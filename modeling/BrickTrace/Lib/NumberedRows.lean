import Mathlib.Data.List.Nodup

/-!
# Numbered rows under a nullable key

A table numbers its rows as they come in.  Its unique key has columns that may be
absent, and a key with an absent column is never found to be taken: a row with such a
key is inserted again by every upsert.  Rows are looked up by their key with absent
columns taken for equal, in the order of their numbers, which have no gaps here.
-/

set_option autoImplicit false

namespace NumberedRows

universe u v

structure NumberedTable (Content : Type u) where
  rows : List (Nat × Content)
  lastNumber : Nat

/-- Adding keys to a list without duplicates makes none exactly when they are new, each once. -/
theorem nodup_append_iff_of_nodup {Key : Type v} {held added : List Key} (nodup : held.Nodup) :
    (held ++ added).Nodup ↔ added.Nodup ∧ ∀ key ∈ added, key ∉ held := by
  rw [List.nodup_append]
  constructor
  · intro ⟨_, once, apart⟩
    exact ⟨once, fun key isAdded isHeld => apart key isHeld key isAdded rfl⟩
  · intro ⟨once, new⟩
    refine ⟨nodup, once, ?_⟩
    intro key isHeld other isAdded same
    exact new other isAdded (same ▸ isHeld)

variable {Content : Type u} {Key : Type v} [DecidableEq Key]

namespace NumberedTable

def empty : NumberedTable Content := ⟨[], 0⟩

variable (key : Content → Key) (complete : Key → Bool)

def keys (table : NumberedTable Content) : List Key := table.rows.map fun row => key row.2

/-- Whether an upsert finds the key to be taken. -/
def Conflicts (table : NumberedTable Content) (k : Key) : Prop :=
  complete k = true ∧ k ∈ table.keys key

instance (table : NumberedTable Content) (k : Key) : Decidable (table.Conflicts key complete k) :=
  inferInstanceAs (Decidable (_ ∧ _))

/-- Insert a row, or merge it into the ones that its key conflicts with. -/
def upsert (new : Content) (merge : Content → Content) (table : NumberedTable Content) :
    NumberedTable Content :=
  if table.Conflicts key complete (key new) then
    { table with
      rows := table.rows.map fun row =>
        if key row.2 = key new then (row.1, merge row.2) else row }
  else ⟨table.rows ++ [(table.lastNumber + 1, new)], table.lastNumber + 1⟩

/-- The number of the first row with the key. -/
def numberOf (k : Key) (table : NumberedTable Content) : Option Nat :=
  (table.rows.find? fun row => key row.2 == k).map Prod.fst

variable {key complete} {table : NumberedTable Content} {new : Content} {merge : Content → Content}

theorem keys_upsert (keepsKey : ∀ held, key held = key new → key (merge held) = key new) :
    (table.upsert key complete new merge).keys key =
      if table.Conflicts key complete (key new) then table.keys key
      else table.keys key ++ [key new] := by
  unfold upsert
  split
  · unfold keys
    dsimp only
    rw [List.map_map]
    apply List.map_congr_left
    intro row _
    rw [Function.comp_apply]
    split
    · rename_i same
      exact (keepsKey row.2 same).trans same.symm
    · rfl
  · simp [keys]

theorem keys_upsert_of_not_complete (incomplete : complete (key new) = false) :
    (table.upsert key complete new merge).keys key = table.keys key ++ [key new] := by
  have free : ¬ table.Conflicts key complete (key new) := by
    intro conflict
    rw [Conflicts, incomplete] at conflict
    exact absurd conflict.1 Bool.false_ne_true
  unfold upsert
  rw [if_neg free]
  exact List.map_append

/-- A key without absent columns gets one row. -/
theorem nodup_keys_upsert_of_complete
    (keepsKey : ∀ held, key held = key new → key (merge held) = key new)
    (isComplete : complete (key new) = true) (nodup : (table.keys key).Nodup) :
    ((table.upsert key complete new merge).keys key).Nodup := by
  rw [keys_upsert keepsKey]
  split
  · exact nodup
  · rename_i free
    have isNew : key new ∉ table.keys key := fun member => free ⟨isComplete, member⟩
    exact List.nodup_append.mpr ⟨nodup, List.nodup_singleton _, by
      intro held member other singleton same
      rw [List.mem_singleton.mp singleton] at same
      exact isNew (same ▸ member)⟩

/-- A row stays the first one with its key. -/
theorem numberOf_upsert (keepsKey : ∀ held, key held = key new → key (merge held) = key new)
    (k : Key) :
    (table.upsert key complete new merge).numberOf key k =
      (table.numberOf key k).or
        (if ¬ table.Conflicts key complete (key new) ∧ key new = k then
          some (table.lastNumber + 1) else none) := by
  unfold upsert
  by_cases conflict : table.Conflicts key complete (key new)
  · rw [if_pos conflict, if_neg (fun absurd => absurd.1 conflict), Option.or_none]
    unfold numberOf
    dsimp only
    rw [List.find?_map, Option.map_map]
    have sameKey : ∀ row : Nat × Content,
        (key (if key row.2 = key new then (row.1, merge row.2) else row).2 == k) =
          (key row.2 == k) := by
      intro row
      split
      · rename_i same
        rw [keepsKey row.2 same, same]
      · rfl
    rw [show ((fun row : Nat × Content => key row.2 == k) ∘ fun row =>
      if key row.2 = key new then (row.1, merge row.2) else row) = fun row => key row.2 == k from
        funext sameKey]
    congr 1
    funext row
    rw [Function.comp_apply]
    split
    · rfl
    · rfl
  · rw [if_neg conflict]
    unfold numberOf
    dsimp only
    rw [List.find?_append, List.find?_cons, List.find?_nil]
    by_cases same : key new = k
    · rw [if_pos ⟨conflict, same⟩, beq_iff_eq.mpr same]
      cases table.rows.find? fun row => key row.2 == k with
      | none => rfl
      | some row => rfl
    · rw [if_neg (fun both => same both.2), beq_eq_false_iff_ne.mpr same, Option.or_none, Option.or_none]

/-- An upserted key has a row. -/
theorem numberOf_upsert_self {k : Key} (upserted : key new = k)
    (keepsKey : ∀ held, key held = key new → key (merge held) = key new) :
    ∃ number, (table.upsert key complete new merge).numberOf key k = some number := by
  subst upserted
  rw [numberOf_upsert keepsKey]
  cases known : table.numberOf key (key new) with
  | some number => exact ⟨number, rfl⟩
  | none =>
      have free : ¬ table.Conflicts key complete (key new) := by
        rintro ⟨-, member⟩
        obtain ⟨row, held, same⟩ := List.mem_map.mp member
        have missing := List.find?_eq_none.mp (Option.map_eq_none_iff.mp known) row held
        exact missing (beq_iff_eq.mpr same)
      exact ⟨table.lastNumber + 1, by rw [Option.none_or, if_pos ⟨free, rfl⟩]⟩

/-- Upserting keeps the number of every key that has one. -/
theorem numberOf_upsert_of_some
    (keepsKey : ∀ held, key held = key new → key (merge held) = key new) {k : Key} {number : Nat}
    (known : table.numberOf key k = some number) :
    (table.upsert key complete new merge).numberOf key k = some number := by
  rw [numberOf_upsert keepsKey, known, Option.some_or]

/-! ## Answers -/

variable (key) in
/-- Every answer is the number that its key has. -/
def Answered (answers : List (Key × Option Nat)) (table : NumberedTable Content) : Prop :=
  ∀ answer ∈ answers, ∃ number, answer.2 = some number ∧ table.numberOf key answer.1 = some number

/-- Every key was answered with one number. -/
def Consistent (answers : List (Key × Option Nat)) : Prop :=
  ∃ numberFor : Key → Nat, ∀ answer ∈ answers, answer.2 = some (numberFor answer.1)

variable {answers : List (Key × Option Nat)}

theorem answered_nil (table : NumberedTable Content) : Answered key [] table :=
  fun _ member => nomatch member

theorem answered_upsert {k : Key} (upserted : key new = k)
    (keepsKey : ∀ held, key held = key new → key (merge held) = key new)
    (before : Answered key answers table) :
    Answered key
      (answers ++ [(k, (table.upsert key complete new merge).numberOf key k)])
      (table.upsert key complete new merge) := by
  intro answer member
  rcases List.mem_append.mp member with earlier | last
  · obtain ⟨number, answered, known⟩ := before answer earlier
    exact ⟨number, answered, numberOf_upsert_of_some keepsKey known⟩
  · obtain ⟨number, known⟩ : ∃ number,
        (table.upsert key complete new merge).numberOf key k = some number :=
      numberOf_upsert_self upserted keepsKey
    rw [List.mem_singleton.mp last]
    exact ⟨number, known, known⟩

theorem consistent_of_answered (answered : Answered key answers table) : Consistent answers := by
  refine ⟨fun k => (table.numberOf key k).getD 0, ?_⟩
  intro answer member
  obtain ⟨number, given, known⟩ := answered answer member
  dsimp only
  rw [given, known, Option.getD_some]

end NumberedTable

end NumberedRows
