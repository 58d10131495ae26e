import Mathlib.Data.List.Nodup
import Mathlib.Data.List.Perm.Basic
import BrickTrace.Lib.FirstSeen

/-!
# Inserting rows under a uniqueness constraint

A database is the list of its rows in insertion order.  A row may have a key;
two rows of one database may not share one.  A plain insert of a row whose key
is taken fails; an insert-or-ignore of such a row does nothing.  A row without a
key never collides.

`executeAll_ok_iff` says when a script of statements succeeds, for scripts whose
ignored inserts never compete with their plain ones for a key.
-/

set_option autoImplicit false

namespace KeyedRows

universe u v

inductive Statement (Row : Type u) where
  | insert (row : Row)
  | insertOrIgnore (row : Row)

section Execute
variable {Row : Type u} {Key : Type v} [DecidableEq Key] (key : Row → Option Key)

/-- Whether the row has a key and the table holds it already. -/
def taken (table : List Row) (row : Row) : Bool :=
  (key row).any fun k => k ∈ table.filterMap key

/-- One statement; an error carries the row whose key was taken. -/
def execute (table : List Row) : Statement Row → Except Row (List Row)
  | .insert row => if taken key table row then .error row else .ok (table ++ [row])
  | .insertOrIgnore row => if taken key table row then .ok table else .ok (table ++ [row])

def executeAll (table : List Row) (script : List (Statement Row)) : Except Row (List Row) :=
  script.foldlM (execute key) table

/-- The rows of the plain inserts, in order. -/
def plainRows (script : List (Statement Row)) : List Row :=
  script.filterMap fun
    | .insert row => some row
    | .insertOrIgnore _ => none

/-- The rows of the ignoring inserts, in order. -/
def ignoredRows (script : List (Statement Row)) : List Row :=
  script.filterMap fun
    | .insert _ => none
    | .insertOrIgnore row => some row

/-- The keys that the plain inserts of a script use. -/
def plainKeys (script : List (Statement Row)) : List Key := (plainRows script).filterMap key

def ignoredKeys (script : List (Statement Row)) : List Key := (ignoredRows script).filterMap key

theorem plainRows_append (first second : List (Statement Row)) :
    plainRows (first ++ second) = plainRows first ++ plainRows second :=
  List.filterMap_append

theorem plainRows_flatMap {A : Type u} (items : List A) (script : A → List (Statement Row)) :
    plainRows (items.flatMap script) = items.flatMap fun item => plainRows (script item) :=
  List.filterMap_flatMap

theorem ignoredRows_append (first second : List (Statement Row)) :
    ignoredRows (first ++ second) = ignoredRows first ++ ignoredRows second :=
  List.filterMap_append

theorem ignoredRows_flatMap {A : Type u} (items : List A) (script : A → List (Statement Row)) :
    ignoredRows (items.flatMap script) = items.flatMap fun item => ignoredRows (script item) :=
  List.filterMap_flatMap

theorem plainRows_inserts {A : Type u} (items : List A) (row : A → Row) :
    plainRows (items.flatMap fun item => [.insert (row item)]) = items.map row := by
  rw [plainRows_flatMap, List.map_eq_flatMap]
  rfl

theorem plainRows_ignores {A : Type u} (items : List A) (row : A → Row) :
    plainRows (items.flatMap fun item => [.insertOrIgnore (row item)]) = [] := by
  rw [plainRows_flatMap]
  exact List.flatMap_eq_nil_iff.mpr fun _ _ => rfl

omit [DecidableEq Key] in
theorem plainKeys_append (first second : List (Statement Row)) :
    plainKeys key (first ++ second) = plainKeys key first ++ plainKeys key second := by
  rw [plainKeys, plainRows_append, List.filterMap_append]
  rfl

omit [DecidableEq Key] in
theorem plainKeys_flatMap {A : Type u} (items : List A) (script : A → List (Statement Row)) :
    plainKeys key (items.flatMap script) = items.flatMap fun item => plainKeys key (script item) := by
  rw [plainKeys, plainRows_flatMap, List.filterMap_flatMap]
  rfl

theorem taken_iff {table : List Row} {row : Row} {k : Key} (found : key row = some k) :
    taken key table row = true ↔ k ∈ table.filterMap key := by
  simp [taken, found]

theorem not_taken_of_keyless {table : List Row} {row : Row} (found : key row = none) :
    ¬ taken key table row = true := by
  simp [taken, found]

theorem executeAll_nil (table : List Row) : executeAll key table [] = .ok table := rfl

theorem executeAll_insert (table : List Row) (row : Row) (script : List (Statement Row)) :
    executeAll key table (.insert row :: script) =
      if taken key table row then .error row else executeAll key (table ++ [row]) script := by
  simp only [executeAll, List.foldlM_cons, execute]
  split <;> rfl

theorem executeAll_ignore (table : List Row) (row : Row) (script : List (Statement Row)) :
    executeAll key table (.insertOrIgnore row :: script) =
      executeAll key (if taken key table row then table else table ++ [row]) script := by
  simp only [executeAll, List.foldlM_cons, execute]
  split <;> rfl

theorem executeAll_append (table : List Row) (first second : List (Statement Row)) :
    executeAll key table (first ++ second) =
      executeAll key table first >>= fun after => executeAll key after second :=
  List.foldlM_append

omit [DecidableEq Key] in
@[simp] theorem plainKeys_insert (row : Row) (script : List (Statement Row)) :
    plainKeys key (.insert row :: script) = (key row).toList ++ plainKeys key script := by
  cases found : key row <;> simp [plainKeys, plainRows, found]

omit [DecidableEq Key] in
@[simp] theorem plainKeys_ignore (row : Row) (script : List (Statement Row)) :
    plainKeys key (.insertOrIgnore row :: script) = plainKeys key script := by
  simp [plainKeys, plainRows]

omit [DecidableEq Key] in
@[simp] theorem ignoredKeys_insert (row : Row) (script : List (Statement Row)) :
    ignoredKeys key (.insert row :: script) = ignoredKeys key script := by
  simp [ignoredKeys, ignoredRows]

omit [DecidableEq Key] in
@[simp] theorem ignoredKeys_ignore (row : Row) (script : List (Statement Row)) :
    ignoredKeys key (.insertOrIgnore row :: script) =
      (key row).toList ++ ignoredKeys key script := by
  cases found : key row <;> simp [ignoredKeys, ignoredRows, found]

/-- A script succeeds exactly when its plain keys are distinct and not taken,
provided no ignored key is a plain one. -/
theorem executeAll_ok_iff (table : List Row) (script : List (Statement Row))
    (apart : ∀ k ∈ ignoredKeys key script, k ∉ plainKeys key script) :
    (∃ after, executeAll key table script = .ok after) ↔
      (plainKeys key script).Nodup ∧ ∀ k ∈ plainKeys key script, k ∉ table.filterMap key := by
  induction script generalizing table with
  | nil => simp [executeAll_nil, plainKeys, plainRows]
  | cons statement script ih =>
      cases statement with
      | insert row =>
          have apart' : ∀ k ∈ ignoredKeys key script, k ∉ plainKeys key script := by
            intro k ignored plain
            rw [ignoredKeys_insert, plainKeys_insert] at apart
            exact apart k ignored (List.mem_append_right _ plain)
          rw [executeAll_insert, plainKeys_insert]
          cases found : key row with
          | none =>
              rw [if_neg (not_taken_of_keyless key found), ih _ apart']
              simp [found]
          | some k =>
              simp only [Option.toList_some, List.singleton_append, List.nodup_cons,
                List.forall_mem_cons]
              by_cases member : k ∈ table.filterMap key
              · rw [if_pos ((taken_iff key found).mpr member)]
                constructor
                · rintro ⟨after, absurd⟩
                  cases absurd
                · rintro ⟨_, free, _⟩
                  exact absurd member free
              · rw [if_neg fun taken => member ((taken_iff key found).mp taken), ih _ apart']
                have extended : (table ++ [row]).filterMap key = table.filterMap key ++ [k] := by
                  simp [found]
                simp only [extended, List.mem_append, List.mem_singleton]
                constructor
                · rintro ⟨distinct, free⟩
                  exact ⟨⟨fun again => free k again (Or.inr rfl), distinct⟩, member,
                    fun other plain held => free other plain (Or.inl held)⟩
                · rintro ⟨⟨once, distinct⟩, _, free⟩
                  refine ⟨distinct, ?_⟩
                  rintro other plain (held | rfl)
                  · exact free other plain held
                  · exact once plain
      | insertOrIgnore row =>
          rw [ignoredKeys_ignore, plainKeys_ignore] at apart
          have apart' : ∀ k ∈ ignoredKeys key script, k ∉ plainKeys key script :=
            fun k ignored => apart k (List.mem_append_right _ ignored)
          rw [executeAll_ignore, plainKeys_ignore, ih _ apart']
          split
          · rfl
          · refine and_congr_right fun _ => forall₂_congr fun k plain => not_congr ?_
            have other : ¬ key row = some k := by
              intro found
              exact apart k (by simp [found]) plain
            simp [other]

/-- What a successful script leaves of the rows that a reader accepts, when it
ignores none of them: those that were there and the inserted ones, in order. -/
theorem filterMap_of_executeAll {B : Type u} (read : Row → Option B) (table after : List Row)
    (script : List (Statement Row)) (done : executeAll key table script = .ok after)
    (plain : ∀ row ∈ ignoredRows script, read row = none) :
    after.filterMap read = table.filterMap read ++ (plainRows script).filterMap read := by
  induction script generalizing table with
  | nil =>
      rw [executeAll_nil] at done
      cases done
      simp [plainRows]
  | cons statement script ih =>
      cases statement with
      | insert row =>
          rw [executeAll_insert] at done
          split at done
          · cases done
          · rw [ih _ done (by simpa [ignoredRows] using plain)]
            have split : plainRows (.insert row :: script) = [row] ++ plainRows script := rfl
            rw [split, List.filterMap_append, List.filterMap_append, List.append_assoc]
      | insertOrIgnore row =>
          have rowPlain : read row = none := plain row (by simp [ignoredRows])
          rw [executeAll_ignore] at done
          rw [ih _ done fun later member => plain later (by simp [ignoredRows] at member ⊢; tauto)]
          have kept : (if taken key table row then table else table ++ [row]).filterMap read =
              table.filterMap read := by
            split
            · rfl
            · simp [List.filterMap_append, rowPlain]
          rw [kept]
          simp [plainRows]

/-! ### The rows and the keys that a script leaves -/

theorem mem_of_executeAll {table after : List Row} {script : List (Statement Row)}
    (done : executeAll key table script = .ok after) {row : Row} (member : row ∈ after) :
    row ∈ table ∨ row ∈ plainRows script ∨ row ∈ ignoredRows script := by
  induction script generalizing table with
  | nil =>
      cases done
      exact Or.inl member
  | cons statement script ih =>
      cases statement with
      | insert inserted =>
          rw [executeAll_insert] at done
          split at done
          · cases done
          · have known := ih done
            simp only [List.mem_append, List.mem_singleton] at known
            simp only [plainRows, ignoredRows, List.filterMap_cons, List.mem_cons] at known ⊢
            tauto
      | insertOrIgnore inserted =>
          rw [executeAll_ignore] at done
          have known := ih done
          have before : (row ∈ if taken key table inserted then table else table ++ [inserted]) →
              row ∈ table ∨ row = inserted := by
            intro held
            split at held
            · exact Or.inl held
            · exact (List.mem_append.mp held).imp_right List.mem_singleton.mp
          simp only [plainRows, ignoredRows, List.filterMap_cons, List.mem_cons] at known ⊢
          tauto

/-- Every key of the table or of an inserted row is a key afterwards. -/
theorem key_mem_of_executeAll {table after : List Row} {script : List (Statement Row)}
    (done : executeAll key table script = .ok after) {k : Key}
    (member : k ∈ table.filterMap key ∨ k ∈ plainKeys key script ∨ k ∈ ignoredKeys key script) :
    k ∈ after.filterMap key := by
  induction script generalizing table with
  | nil =>
      cases done
      simpa [plainKeys, ignoredKeys, plainRows, ignoredRows] using member
  | cons statement script ih =>
      cases statement with
      | insert row =>
          rw [executeAll_insert] at done
          split at done
          · cases done
          · apply ih done
            rw [plainKeys_insert, ignoredKeys_insert] at member
            simp only [List.mem_append, Option.mem_toList] at member
            rw [List.filterMap_append, List.mem_append]
            rcases member with before | (own | plain) | ignored
            · exact Or.inl (Or.inl before)
            · exact Or.inl (Or.inr (by simp [own]))
            · exact Or.inr (Or.inl plain)
            · exact Or.inr (Or.inr ignored)
      | insertOrIgnore row =>
          rw [executeAll_ignore] at done
          apply ih done
          rw [plainKeys_ignore, ignoredKeys_ignore] at member
          simp only [List.mem_append, Option.mem_toList] at member
          by_cases held : taken key table row = true
          · rw [if_pos held]
            rcases member with before | plain | own | ignored
            · exact Or.inl before
            · exact Or.inr (Or.inl plain)
            · exact Or.inl ((taken_iff key own).mp held)
            · exact Or.inr (Or.inr ignored)
          · rw [if_neg held, List.filterMap_append, List.mem_append]
            rcases member with before | plain | own | ignored
            · exact Or.inl (Or.inl before)
            · exact Or.inr (Or.inl plain)
            · exact Or.inl (Or.inr (by simp [own]))
            · exact Or.inr (Or.inr ignored)

/-- A script never repeats a key. -/
theorem nodup_of_executeAll {table after : List Row} {script : List (Statement Row)}
    (done : executeAll key table script = .ok after) (distinct : (table.filterMap key).Nodup) :
    (after.filterMap key).Nodup := by
  have extended : ∀ (held : List Row) row, (held.filterMap key).Nodup →
      ¬ taken key held row = true → ((held ++ [row]).filterMap key).Nodup := by
    intro held row before free
    cases found : key row with
    | none => simpa [found] using before
    | some k =>
        have absent : k ∉ held.filterMap key := fun member => free ((taken_iff key found).mpr member)
        rw [List.filterMap_append, List.filterMap_cons_some found, List.filterMap_nil]
        exact (List.nodup_append.mpr ⟨before, List.nodup_singleton k, fun other isOther last isLast =>
          List.mem_singleton.mp isLast ▸ fun same => absent (same ▸ isOther)⟩)
  induction script generalizing table with
  | nil =>
      cases done
      exact distinct
  | cons statement script ih =>
      cases statement with
      | insert row =>
          rw [executeAll_insert] at done
          split at done
          · cases done
          · rename_i free
            exact ih done (extended table row distinct free)
      | insertOrIgnore row =>
          rw [executeAll_ignore] at done
          apply ih done
          split
          · exact distinct
          · rename_i free
            exact extended table row distinct free

end Execute

/-! ## Tables that carry their constraint -/

/-- A table whose rows have distinct primary keys. -/
structure KeyedTable {Row : Type u} {Key : Type v} (key : Row → Key) where
  rows : List Row
  primaryKey : (rows.map key).Nodup

namespace KeyedTable
variable {Row : Type u} {Key : Type v} {key : Row → Key}

def empty : KeyedTable key := ⟨[], List.nodup_nil⟩

theorem nodup_append_row {rows : List Row} {row : Row} (distinct : (rows.map key).Nodup)
    (free : key row ∉ rows.map key) : ((rows ++ [row]).map key).Nodup := by
  rw [List.map_append, List.nodup_append]
  refine ⟨distinct, List.nodup_singleton _, ?_⟩
  rintro _ held _ added rfl
  exact free (List.mem_singleton.mp added ▸ held)

def deleteWhere (table : KeyedTable key) (condition : Row → Bool) : KeyedTable key where
  rows := table.rows.filter fun row => !condition row
  primaryKey := table.primaryKey.sublist ((List.filter_sublist ..).map key)

variable [DecidableEq Key]

/-- An error carries the row whose key was taken. -/
def insert (table : KeyedTable key) (row : Row) : Except Row (KeyedTable key) :=
  if taken : key row ∈ table.rows.map key then .error row
  else .ok ⟨table.rows ++ [row], nodup_append_row table.primaryKey taken⟩

def insertOrIgnore (table : KeyedTable key) (row : Row) : KeyedTable key :=
  if taken : key row ∈ table.rows.map key then table
  else ⟨table.rows ++ [row], nodup_append_row table.primaryKey taken⟩

theorem rows_insertOrIgnore (table : KeyedTable key) (row : Row) :
    (table.insertOrIgnore row).rows =
      if key row ∈ table.rows.map key then table.rows else table.rows ++ [row] := by
  unfold insertOrIgnore
  split <;> rfl

theorem mem_insertOrIgnore_of_mem {table : KeyedTable key} {held : Row}
    (member : held ∈ table.rows) (row : Row) : held ∈ (table.insertOrIgnore row).rows := by
  rw [rows_insertOrIgnore]
  split
  · exact member
  · exact List.mem_append_left _ member

/-- A row of the table afterwards was there before, or is the new one. -/
theorem mem_insertOrIgnore {table : KeyedTable key} {row found : Row}
    (member : found ∈ (table.insertOrIgnore row).rows) : found ∈ table.rows ∨ found = row := by
  rw [rows_insertOrIgnore] at member
  split at member
  · exact Or.inl member
  · exact (List.mem_append.mp member).imp_right List.mem_singleton.mp

/-- Afterwards some row has the key, whoever wrote it. -/
theorem key_mem_insertOrIgnore (table : KeyedTable key) (row : Row) :
    ∃ held ∈ (table.insertOrIgnore row).rows, key held = key row := by
  rw [rows_insertOrIgnore]
  split
  · rename_i taken
    exact List.mem_map.mp taken
  · exact ⟨row, List.mem_append_right _ (List.mem_singleton_self _), rfl⟩

/-! ### Inserting several rows -/

theorem insert_ok {table : KeyedTable key} {row : Row} (free : key row ∉ table.rows.map key) :
    ∃ written, table.insert row = .ok written ∧ written.rows = table.rows ++ [row] := by
  unfold insert
  rw [dif_neg free]
  exact ⟨_, rfl, rfl⟩

theorem rows_of_insert_ok {table written : KeyedTable key} {row : Row}
    (inserted : table.insert row = .ok written) : written.rows = table.rows ++ [row] := by
  unfold insert at inserted
  split at inserted
  · cases inserted
  · cases inserted
    rfl

/-- Rows with distinct keys that are all free are inserted, in order. -/
theorem foldlM_insert_ok {rows : List Row} {table : KeyedTable key}
    (distinct : (rows.map key).Nodup) (free : ∀ row ∈ rows, key row ∉ table.rows.map key) :
    ∃ written, rows.foldlM insert table = .ok written ∧ written.rows = table.rows ++ rows := by
  induction rows generalizing table with
  | nil => exact ⟨table, rfl, (List.append_nil _).symm⟩
  | cons row rest ih =>
      obtain ⟨once, distinctRest⟩ := List.nodup_cons.mp distinct
      obtain ⟨freeRow, freeRest⟩ := List.forall_mem_cons.mp free
      obtain ⟨next, inserted, nextRows⟩ := insert_ok freeRow
      have stillFree : ∀ later ∈ rest, key later ∉ next.rows.map key := by
        intro later member
        rw [nextRows, List.map_append, List.mem_append]
        rintro (held | added)
        · exact freeRest later member held
        · rw [List.map_singleton, List.mem_singleton] at added
          exact once (added ▸ List.mem_map_of_mem member)
      obtain ⟨written, done, writtenRows⟩ := ih distinctRest stillFree
      refine ⟨written, ?_, ?_⟩
      · rw [List.foldlM_cons, inserted]
        exact done
      · rw [writtenRows, nextRows, List.append_assoc, List.singleton_append]

theorem rows_of_foldlM_insert {rows : List Row} {table written : KeyedTable key}
    (done : rows.foldlM insert table = .ok written) : written.rows = table.rows ++ rows := by
  induction rows generalizing table with
  | nil =>
      cases done
      exact (List.append_nil _).symm
  | cons row rest ih =>
      rw [List.foldlM_cons] at done
      cases inserted : table.insert row with
      | error taken =>
          rw [inserted] at done
          cases done
      | ok next =>
          rw [inserted] at done
          rw [ih done, rows_of_insert_ok inserted, List.append_assoc, List.singleton_append]

theorem insertOrIgnore_of_taken {table : KeyedTable key} {row : Row}
    (taken : key row ∈ table.rows.map key) : table.insertOrIgnore row = table := by
  unfold insertOrIgnore
  exact dif_pos taken

theorem rows_insertOrIgnore_of_free {table : KeyedTable key} {row : Row}
    (free : key row ∉ table.rows.map key) :
    (table.insertOrIgnore row).rows = table.rows ++ [row] := by
  rw [rows_insertOrIgnore, if_neg free]

/-! ### Inserting or ignoring several rows -/

def insertOrIgnoreAll (table : KeyedTable key) (rows : List Row) : KeyedTable key :=
  rows.foldl insertOrIgnore table

theorem mem_insertOrIgnoreAll {table : KeyedTable key} {rows : List Row} {found : Row}
    (member : found ∈ (table.insertOrIgnoreAll rows).rows) : found ∈ table.rows ∨ found ∈ rows := by
  induction rows generalizing table with
  | nil => exact Or.inl member
  | cons row rest ih =>
      rcases ih member with inserted | later
      · rcases mem_insertOrIgnore inserted with held | rfl
        · exact Or.inl held
        · exact Or.inr List.mem_cons_self
      · exact Or.inr (List.mem_cons_of_mem _ later)

/-- The rows that are kept are the first of each free key. -/
theorem rows_insertOrIgnoreAll (table : KeyedTable key) (rows : List Row) :
    (table.insertOrIgnoreAll rows).rows =
      table.rows ++ FirstSeen.fresh key (table.rows.map key) rows := by
  induction rows generalizing table with
  | nil => exact (List.append_nil _).symm
  | cons row rest ih =>
      change ((table.insertOrIgnore row).insertOrIgnoreAll rest).rows = _
      by_cases taken : key row ∈ table.rows.map key
      · rw [insertOrIgnore_of_taken taken, ih, FirstSeen.fresh, if_pos taken]
      · have known : FirstSeen.fresh key ((table.rows ++ [row]).map key) rest =
            FirstSeen.fresh key (key row :: table.rows.map key) rest := by
          apply (FirstSeen.fresh_congr key _).1
          intro item _
          rw [List.map_append, List.map_singleton, List.mem_append, List.mem_singleton, List.mem_cons]
          exact or_comm
        rw [ih, rows_insertOrIgnore_of_free taken, FirstSeen.fresh, if_neg taken, known,
          List.append_assoc, List.singleton_append]

/-! ### Finding a row by its key -/

def find (table : KeyedTable key) (k : Key) : Option Row := table.rows.find? fun row => key row == k

theorem find_eq_some_iff {table : KeyedTable key} {k : Key} {row : Row} :
    table.find k = some row ↔ row ∈ table.rows ∧ key row = k := by
  unfold find
  have keyed : ∀ held, (table.rows.find? fun other => key other == k) = some held →
      key held = k := by
    intro held found
    have isKey := List.find?_some found
    exact eq_of_beq isKey
  constructor
  · intro found
    exact ⟨List.mem_of_find?_eq_some found, keyed row found⟩
  · rintro ⟨member, rfl⟩
    have present : (table.rows.find? fun other => key other == key row).isSome = true :=
      List.find?_isSome.mpr ⟨row, member, beq_self_eq_true _⟩
    obtain ⟨held, found⟩ := Option.isSome_iff_exists.mp present
    have sameKey := keyed held found
    have same := List.inj_on_of_nodup_map table.primaryKey (List.mem_of_find?_eq_some found) member
      sameKey
    exact same ▸ found

theorem find_eq_none_iff {table : KeyedTable key} {k : Key} :
    table.find k = none ↔ k ∉ table.rows.map key := by
  simp [find]

theorem find_insertOrIgnore (table : KeyedTable key) (row : Row) (k : Key) :
    (table.insertOrIgnore row).find k =
      (table.find k).or (if key row = k then some row else none) := by
  unfold find
  rw [rows_insertOrIgnore]
  by_cases taken : key row ∈ table.rows.map key
  · rw [if_pos taken]
    by_cases same : key row = k
    · obtain ⟨held, found⟩ : ∃ held, table.find k = some held :=
        Option.ne_none_iff_exists'.mp fun absent => find_eq_none_iff.mp absent (same ▸ taken)
      unfold find at found
      rw [found, Option.some_or]
    · rw [if_neg same, Option.or_none]
  · rw [if_neg taken, List.find?_append, List.find?_cons, List.find?_nil]
    by_cases same : key row = k
    · rw [if_pos same, beq_iff_eq.mpr same]
    · rw [if_neg same, beq_eq_false_iff_ne.mpr same]

/-! ### Changing a row in place -/

/-- Edit the row with a key, if there is one. -/
def modify (table : KeyedTable key) (k : Key) (edit : Row → Row)
    (keepsKey : ∀ row, key row = k → key (edit row) = k) : KeyedTable key where
  rows := table.rows.map fun row => if key row = k then edit row else row
  primaryKey := by
    have columns : ∀ row, key (if key row = k then edit row else row) = key row := by
      intro row
      split
      · rename_i same
        exact (keepsKey row same).trans same.symm
      · rfl
    rw [List.map_map, show key ∘ _ = key from funext columns]
    exact table.primaryKey

/-- Insert a row, or merge it into the row that has its key. -/
def upsert (table : KeyedTable key) (row : Row) (merge : Row → Row)
    (keepsKey : ∀ held, key held = key row → key (merge held) = key row) : KeyedTable key :=
  if taken : key row ∈ table.rows.map key then table.modify (key row) merge keepsKey
  else ⟨table.rows ++ [row], nodup_append_row table.primaryKey taken⟩

section Change
variable {table : KeyedTable key} {k other : Key} {edit : Row → Row}
  {keepsKey : ∀ row, key row = k → key (edit row) = k}

theorem find_modify_self :
    (table.modify k edit keepsKey).find k = (table.find k).map edit := by
  unfold find modify
  dsimp only
  induction table.rows with
  | nil => rfl
  | cons row rest ih =>
      rw [List.map_cons, List.find?_cons, List.find?_cons]
      by_cases same : key row = k
      · rw [if_pos same, beq_iff_eq.mpr same, beq_iff_eq.mpr (keepsKey row same)]
        rfl
      · rw [if_neg same, beq_eq_false_iff_ne.mpr same]
        exact ih

theorem find_modify_of_ne (differs : other ≠ k) :
    (table.modify k edit keepsKey).find other = table.find other := by
  unfold find modify
  dsimp only
  induction table.rows with
  | nil => rfl
  | cons row rest ih =>
      rw [List.map_cons, List.find?_cons, List.find?_cons, ih]
      by_cases same : key row = k
      · rw [if_pos same, beq_eq_false_iff_ne.mpr (keepsKey row same ▸ differs.symm),
          beq_eq_false_iff_ne.mpr (same ▸ differs.symm)]
      · rw [if_neg same]

end Change

section Upsert
variable {table : KeyedTable key} {row : Row} {merge : Row → Row}
  {keepsKey : ∀ held, key held = key row → key (merge held) = key row}

theorem find_upsert_self :
    (table.upsert row merge keepsKey).find (key row) =
      some (((table.find (key row)).map merge).getD row) := by
  unfold upsert
  split
  · rename_i taken
    obtain ⟨held, found⟩ : ∃ held, table.find (key row) = some held :=
      Option.ne_none_iff_exists'.mp fun absent => find_eq_none_iff.mp absent taken
    rw [find_modify_self, found]
    rfl
  · rename_i free
    rw [find_eq_none_iff.mpr free]
    exact find_eq_some_iff.mpr ⟨List.mem_append_right _ (List.mem_singleton_self _), rfl⟩

theorem find_upsert_of_ne {other : Key} (differs : other ≠ key row) :
    (table.upsert row merge keepsKey).find other = table.find other := by
  unfold upsert
  split
  · exact find_modify_of_ne differs
  · unfold find
    dsimp only
    rw [List.find?_append, List.find?_cons, List.find?_nil, beq_eq_false_iff_ne.mpr differs.symm]
    exact Option.or_none

end Upsert

omit [DecidableEq Key] in
/-- At most one row has a key. -/
theorem eq_of_key_eq {table : KeyedTable key} {first second : Row} (firstHeld : first ∈ table.rows)
    (secondHeld : second ∈ table.rows) (same : key first = key second) : first = second :=
  List.inj_on_of_nodup_map table.primaryKey firstHeld secondHeld same

end KeyedTable

end KeyedRows
