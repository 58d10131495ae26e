import BrickTrace.Lib.Json
import Mathlib.Data.List.Induction
import Mathlib.Data.String.Basic

/-!
# Objects by field

What the named fields of a record are read from, and what an object holds under
each key once its fields are written.  The entries of an object stand in the
order of their keys, so two objects are equal when they hold the same under every
key.
-/

set_option autoImplicit false

namespace Json

/-! ## Reading by name -/

section Reading
variable {A B : Type} (entries : List (String × Json)) (name : String) (decode : Json → Option A)

def requiredIn : Option A := (entries.lookup name).bind decode

def optionalIn : Option (Option A) :=
  match entries.lookup name with
  | some json => decodeNullable decode json
  | none => some none

def defaultedIn (default : A) : Option A :=
  match entries.lookup name with
  | some json => decode json
  | none => some default

theorem pure_read (value : A) (source : Source) :
    (pure value : Reader A) source = some (value, source) := rfl

theorem required_bind_named (rest : A → Reader B) :
    (required name decode >>= rest) (.named entries) =
      (requiredIn entries name decode).bind fun value => rest value (.named entries) := by
  unfold required requiredIn
  cases found : entries.lookup name with
  | none => simp [bind, StateT.bind, next, found, failure, StateT.failure]
  | some json =>
      cases read : decode json with
      | none => simp [bind, StateT.bind, next, found, StateT.lift, read]
      | some value => simp [bind, StateT.bind, next, found, StateT.lift, read]

theorem optional_bind_named (rest : Option A → Reader B) :
    (optional name decode >>= rest) (.named entries) =
      (optionalIn entries name decode).bind fun value => rest value (.named entries) := by
  unfold optional optionalIn
  cases found : entries.lookup name with
  | none => simp [bind, StateT.bind, next, readsByName, found, pure_read]
  | some json =>
      cases read : decodeNullable decode json with
      | none => simp [bind, StateT.bind, next, readsByName, found, StateT.lift, read]
      | some value => simp [bind, StateT.bind, next, readsByName, found, StateT.lift, read, pure]

theorem defaulted_bind_named (default : A) (rest : A → Reader B) :
    (defaulted name decode default >>= rest) (.named entries) =
      (defaultedIn entries name decode default).bind fun value => rest value (.named entries) := by
  unfold defaulted defaultedIn
  cases found : entries.lookup name with
  | none => simp [bind, StateT.bind, next, found, pure_read]
  | some json =>
      cases read : decode json with
      | none => simp [bind, StateT.bind, next, found, StateT.lift, read]
      | some value => simp [bind, StateT.bind, next, found, StateT.lift, read, pure]

variable {entries name decode}

theorem required_bind_eq_some_iff {rest : A → Reader B} {out : B × Source} :
    (required name decode >>= rest) (.named entries) = some out ↔
      ∃ value, requiredIn entries name decode = some value ∧
        rest value (.named entries) = some out := by
  rw [required_bind_named]
  exact Option.bind_eq_some_iff

theorem optional_bind_eq_some_iff {rest : Option A → Reader B} {out : B × Source} :
    (optional name decode >>= rest) (.named entries) = some out ↔
      ∃ value, optionalIn entries name decode = some value ∧
        rest value (.named entries) = some out := by
  rw [optional_bind_named]
  exact Option.bind_eq_some_iff

theorem defaulted_bind_eq_some_iff {default : A} {rest : A → Reader B} {out : B × Source} :
    (defaulted name decode default >>= rest) (.named entries) = some out ↔
      ∃ value, defaultedIn entries name decode default = some value ∧
        rest value (.named entries) = some out := by
  rw [defaulted_bind_named]
  exact Option.bind_eq_some_iff

end Reading

/-! ## Values as a library keeps them -/

/-- An object has its entries in the order of their keys, and a number that is kept as a
negative one is negative. -/
inductive WellFormed : Json → Prop where
  | null : WellFormed .null
  | bool (value : Bool) : WellFormed (.bool value)
  | posInt (value : UInt64) : WellFormed (.number (.posInt value))
  | negInt (value : Int64) (negative : value < 0) : WellFormed (.number (.negInt value))
  | float (bits : UInt64) : WellFormed (.number (.float bits))
  | string (text : String) : WellFormed (.string text)
  | array (items : List Json) (each : ∀ item ∈ items, WellFormed item) : WellFormed (.array items)
  | object (entries : List (String × Json))
      (sorted : entries.Pairwise fun first second => first.1 < second.1)
      (each : ∀ entry ∈ entries, WellFormed entry.2) : WellFormed (.object entries)

def Sorted (entries : List (String × Json)) : Prop :=
  entries.Pairwise fun first second => first.1 < second.1

theorem WellFormed.sorted {entries : List (String × Json)} (formed : WellFormed (.object entries)) :
    Sorted entries := by
  cases formed with
  | object _ sorted _ => exact sorted

theorem WellFormed.of_lookup {entries : List (String × Json)} {name : String} {json : Json}
    (formed : WellFormed (.object entries)) (found : entries.lookup name = some json) :
    WellFormed json := by
  cases formed with
  | object _ _ each =>
      obtain ⟨before, after, rfl, _⟩ := List.lookup_eq_some_iff.mp found
      exact each (name, json) (by simp)

theorem WellFormed.nullable {A : Type} {encode : A → Json} (formed : ∀ value, WellFormed (encode value))
    (value : Option A) : WellFormed (encodeNullable encode value) := by
  cases value with
  | none => exact .null
  | some held => exact formed held

theorem encode_of_decodeU64 {json : Json} {value : UInt64} (formed : WellFormed json)
    (read : decodeU64 json = some value) : encodeU64 value = json := by
  cases formed with
  | posInt held =>
      cases read
      rfl
  | negInt held negative =>
      change (if 0 ≤ held then some held.toUInt64 else none) = some value at read
      rw [if_neg (Int64.not_le.mpr negative)] at read
      cases read
  | _ => cases read

theorem encode_of_decodeString {json : Json} {text : String}
    (read : decodeString json = some text) : Json.string text = json := by
  cases json with
  | string held =>
      cases read
      rfl
  | _ => cases read

/-! ## Entries in order -/

section Entries
variable {entries : List (String × Json)} {key name : String} {value : Json}

theorem mem_insertEntry {entry : String × Json} (member : entry ∈ insertEntry key value entries) :
    entry = (key, value) ∨ entry ∈ entries := by
  induction entries with
  | nil => exact Or.inl (List.mem_singleton.mp member)
  | cons head rest ih =>
      unfold insertEntry at member
      split at member
      · exact (List.mem_cons.mp member).imp_right (List.mem_cons_of_mem _)
      · split at member
        · exact List.mem_cons.mp member
        · rcases List.mem_cons.mp member with rfl | later
          · exact Or.inr (List.mem_cons_self ..)
          · exact (ih later).imp_right (List.mem_cons_of_mem _)

theorem sorted_insertEntry (sorted : Sorted entries) : Sorted (insertEntry key value entries) := by
  induction entries with
  | nil => exact List.pairwise_singleton ..
  | cons head rest ih =>
      obtain ⟨first, sortedRest⟩ := List.pairwise_cons.mp sorted
      unfold insertEntry
      by_cases same : head.1 = key
      · rw [if_pos same]
        exact List.pairwise_cons.mpr ⟨fun entry member => same ▸ first entry member, sortedRest⟩
      · rw [if_neg same]
        by_cases before : key < head.1
        · rw [if_pos before]
          refine List.pairwise_cons.mpr ⟨fun entry member => ?_, sorted⟩
          rcases List.mem_cons.mp member with rfl | later
          · exact before
          · exact lt_trans before (first entry later)
        · rw [if_neg before]
          refine List.pairwise_cons.mpr ⟨fun entry member => ?_, ih sortedRest⟩
          rcases mem_insertEntry member with rfl | later
          · exact lt_of_le_of_ne (not_lt.mp before) same
          · exact first entry later

theorem lookup_insertEntry_of_ne (differs : name ≠ key) :
    (insertEntry key value entries).lookup name = entries.lookup name := by
  have other : (name == key) = false := beq_eq_false_iff_ne.mpr differs
  induction entries with
  | nil =>
      unfold insertEntry
      rw [List.lookup_cons, other]
  | cons head rest ih =>
      unfold insertEntry
      by_cases same : head.1 = key
      · rw [if_pos same, List.lookup_cons, List.lookup_cons, same, other]
      · rw [if_neg same]
        by_cases before : key < head.1
        · rw [if_pos before, List.lookup_cons, other]
        · rw [if_neg before, List.lookup_cons, List.lookup_cons, ih]

/-- Fields of other names leave what an object has under a name. -/
theorem lookup_foldl_insertEntry_of_notMem {fields : List (String × Json)}
    (absent : name ∉ fields.map Prod.fst) :
    (fields.foldl (fun entries field => insertEntry field.1 field.2 entries) entries).lookup name =
      entries.lookup name := by
  induction fields generalizing entries with
  | nil => rfl
  | cons field rest ih =>
      rw [List.map_cons, List.mem_cons, not_or] at absent
      rw [List.foldl_cons, ih absent.2, lookup_insertEntry_of_ne absent.1]

/-- Fields go on top of what an object has. -/
theorem lookup_foldl_insertEntry {fields : List (String × Json)}
    (distinct : (fields.map Prod.fst).Nodup) :
    (fields.foldl (fun entries field => insertEntry field.1 field.2 entries) entries).lookup name =
      (fields.lookup name).or (entries.lookup name) := by
  induction fields generalizing entries with
  | nil => rfl
  | cons field rest ih =>
      rw [List.map_cons, List.nodup_cons] at distinct
      obtain ⟨absent, distinctRest⟩ := distinct
      by_cases isKey : name = field.1
      · subst isKey
        rw [List.foldl_cons, lookup_foldl_insertEntry_of_notMem absent, lookup_insertEntry_self,
          List.lookup_cons_self]
        rfl
      · have other : (name == field.1) = false := beq_eq_false_iff_ne.mpr isKey
        rw [List.foldl_cons, ih distinctRest, lookup_insertEntry_of_ne isKey, List.lookup_cons, other]

theorem lookup_eq_none_of_lt (after : ∀ entry ∈ entries, name < entry.1) :
    entries.lookup name = none := by
  apply List.lookup_eq_none_iff.mpr
  intro entry member
  exact bne_iff_ne.mpr (after entry member).ne

/-- Two objects that hold the same under every key. -/
theorem eq_of_lookup_eq {first second : List (String × Json)} (firstSorted : Sorted first)
    (secondSorted : Sorted second) (same : ∀ name, first.lookup name = second.lookup name) :
    first = second := by
  induction first generalizing second with
  | nil =>
      cases second with
      | nil => rfl
      | cons entry rest =>
          have held := same entry.1
          rw [List.lookup_cons_self] at held
          cases held
  | cons entry rest ih =>
      cases second with
      | nil =>
          have held := same entry.1
          rw [List.lookup_cons_self] at held
          cases held
      | cons entry' rest' =>
          obtain ⟨before, sortedRest⟩ := List.pairwise_cons.mp firstSorted
          obtain ⟨before', sortedRest'⟩ := List.pairwise_cons.mp secondSorted
          have sameKey : entry.1 = entry'.1 := by
            rcases lt_trichotomy entry.1 entry'.1 with lower | equal | higher
            · have held := same entry.1
              rw [List.lookup_cons_self, lookup_eq_none_of_lt] at held
              · cases held
              · intro later member
                rcases List.mem_cons.mp member with rfl | inRest
                · exact lower
                · exact lt_trans lower (before' later inRest)
            · exact equal
            · have held := same entry'.1
              rw [List.lookup_cons_self, lookup_eq_none_of_lt] at held
              · cases held
              · intro later member
                rcases List.mem_cons.mp member with rfl | inRest
                · exact higher
                · exact lt_trans higher (before later inRest)
          have sameEntry : entry = entry' := by
            have held := same entry.1
            rw [List.lookup_cons_self, sameKey, List.lookup_cons_self] at held
            exact Prod.ext sameKey (Option.some.inj held)
          subst sameEntry
          rw [ih sortedRest sortedRest' fun name => ?_]
          by_cases isKey : name = entry.1
          · rw [isKey, lookup_eq_none_of_lt before, lookup_eq_none_of_lt before']
          · have other : (name == entry.1) = false := beq_eq_false_iff_ne.mpr isKey
            have held := same name
            rwa [List.lookup_cons, List.lookup_cons, other] at held

end Entries

/-! ## Objects written field by field

A field that is left out has no value. -/

/-- The entries of `ofFields`. -/
def fieldEntries (fields : List (String × Json)) : List (String × Json) :=
  fields.foldl (fun entries field => insertEntry field.1 field.2 entries) []

def written (fields : List (String × Option Json)) : List (String × Json) :=
  fields.filterMap fun field => field.2.map fun value => (field.1, value)

theorem sorted_fieldEntries (fields : List (String × Json)) : Sorted (fieldEntries fields) := by
  have keeps : ∀ entries, Sorted entries →
      Sorted (fields.foldl (fun entries field => insertEntry field.1 field.2 entries) entries) := by
    induction fields with
    | nil => exact fun _ sorted => sorted
    | cons field rest ih => exact fun _ sorted => ih _ (sorted_insertEntry sorted)
  exact keeps [] List.Pairwise.nil

theorem fieldEntries_append_singleton (fields : List (String × Json)) (name : String)
    (value : Json) :
    fieldEntries (fields ++ [(name, value)]) = insertEntry name value (fieldEntries fields) :=
  List.foldl_append

theorem lookup_fieldEntries {fields : List (String × Json)}
    (distinct : (fields.map Prod.fst).Nodup) (name : String) :
    (fieldEntries fields).lookup name = fields.lookup name :=
  (lookup_foldl_insertEntry distinct).trans Option.or_none

section Written
variable {fields : List (String × Option Json)}

theorem names_written_sublist (fields : List (String × Option Json)) :
    ((written fields).map Prod.fst).Sublist (fields.map Prod.fst) := by
  induction fields with
  | nil => exact List.Sublist.slnil
  | cons field rest ih =>
      obtain ⟨name, value⟩ := field
      cases value with
      | none => exact ih.cons name
      | some json => exact ih.cons_cons name

theorem lookup_written (distinct : (fields.map Prod.fst).Nodup) {field : String × Option Json}
    (member : field ∈ fields) : (written fields).lookup field.1 = field.2 := by
  induction fields with
  | nil => cases member
  | cons head rest ih =>
      obtain ⟨fresh, distinctRest⟩ := List.nodup_cons.mp distinct
      obtain ⟨name, value⟩ := head
      rcases List.mem_cons.mp member with rfl | later
      · cases value with
        | none =>
            apply List.lookup_eq_none_iff.mpr
            intro entry held
            refine bne_iff_ne.mpr fun same => fresh ?_
            have inRest := (names_written_sublist rest).subset (List.mem_map_of_mem held)
            exact same ▸ inRest
        | some json => exact List.lookup_cons_self
      · have differs : field.1 ≠ name := by
          intro same
          have taken : field.1 ∈ rest.map Prod.fst := List.mem_map_of_mem later
          rw [same] at taken
          exact fresh taken
        have other : (field.1 == name) = false := beq_eq_false_iff_ne.mpr differs
        cases value with
        | none => exact ih distinctRest later
        | some json =>
            change List.lookup field.1 ((name, json) :: written rest) = field.2
            rw [List.lookup_cons, other]
            exact ih distinctRest later

theorem lookup_written_of_notMem {name : String} (absent : name ∉ fields.map Prod.fst) :
    (written fields).lookup name = none := by
  apply List.lookup_eq_none_iff.mpr
  intro entry held
  refine bne_iff_ne.mpr fun same => absent ?_
  exact same ▸ (names_written_sublist fields).subset (List.mem_map_of_mem held)

/-- Writing the fields gives back an object exactly when the object holds the value of
every field, and nothing else. -/
theorem fieldEntries_written_eq_iff {entries : List (String × Json)} (sorted : Sorted entries)
    (distinct : (fields.map Prod.fst).Nodup) :
    fieldEntries (written fields) = entries ↔
      (∀ field ∈ fields, entries.lookup field.1 = field.2) ∧
        ∀ entry ∈ entries, entry.1 ∈ fields.map Prod.fst := by
  have holds := lookup_fieldEntries (distinct.sublist (names_written_sublist fields))
  constructor
  · rintro rfl
    refine ⟨fun field member => (holds field.1).trans (lookup_written distinct member), ?_⟩
    intro entry member
    by_contra absent
    have nothing := (holds entry.1).trans (lookup_written_of_notMem absent)
    have differs := List.lookup_eq_none_iff.mp nothing entry member
    exact bne_iff_ne.mp differs rfl
  · rintro ⟨held, known⟩
    apply eq_of_lookup_eq (sorted_fieldEntries _) sorted
    intro name
    rw [holds name]
    by_cases isField : name ∈ fields.map Prod.fst
    · obtain ⟨field, member, rfl⟩ := List.mem_map.mp isField
      rw [lookup_written distinct member, held field member]
    · rw [lookup_written_of_notMem isField]
      symm
      apply List.lookup_eq_none_iff.mpr
      intro entry member
      refine bne_iff_ne.mpr fun same => isField ?_
      exact same ▸ known entry member

/-- An object that is written from well-formed values is well formed. -/
theorem wellFormed_fieldEntries (values : ∀ field ∈ fields, ∀ value ∈ field.2, WellFormed value) :
    WellFormed (.object (fieldEntries (written fields))) := by
  have held : ∀ pairs : List (String × Json), ∀ entry ∈ fieldEntries pairs, entry ∈ pairs := by
    intro pairs
    induction pairs using List.reverseRecOn with
    | nil => exact fun _ member => member
    | append_singleton earlier pair ih =>
        intro entry member
        rw [fieldEntries_append_singleton] at member
        rcases mem_insertEntry member with rfl | before
        · exact List.mem_append_right _ (List.mem_singleton_self _)
        · exact List.mem_append_left _ (ih entry before)
  refine .object _ (sorted_fieldEntries _) fun entry member => ?_
  obtain ⟨field, isField, isWritten⟩ := List.mem_filterMap.mp (held _ entry member)
  obtain ⟨value, hasValue, rfl⟩ := Option.map_eq_some_iff.mp isWritten
  exact values field isField value hasValue

end Written

/-! ## Fields that read and write the same

`read` is what a field was read as; each lemma says when writing it leaves the entry
as it was. -/

section Kept
variable {A : Type} {entries : List (String × Json)} {name : String} {decode : Json → Option A}
  {encode : A → Json}

theorem requiredIn_kept
    (inverse : ∀ json value, entries.lookup name = some json → decode json = some value →
      encode value = json)
    {value : A} (read : requiredIn entries name decode = some value) :
    entries.lookup name = some (encode value) := by
  obtain ⟨json, found, decoded⟩ := Option.bind_eq_some_iff.mp read
  rw [found, inverse json value found decoded]

theorem decodeNullable_cases {json : Json} {value : Option A}
    (decoded : decodeNullable decode json = some value) :
    (json = .null ∧ value = none) ∨
      json ≠ .null ∧ ∃ held, value = some held ∧ decode json = some held := by
  unfold decodeNullable at decoded
  split at decoded
  · cases decoded
    exact Or.inl ⟨rfl, rfl⟩
  · rename_i notNull
    obtain ⟨held, read, rfl⟩ := Option.map_eq_some_iff.mp decoded
    exact Or.inr ⟨notNull, held, rfl, read⟩

/-- A nullable field that is always written. -/
theorem optionalIn_kept_iff
    (inverse : ∀ json value, entries.lookup name = some json → decode json = some value →
      encode value = json)
    {value : Option A} (read : optionalIn entries name decode = some value) :
    entries.lookup name = some (encodeNullable encode value) ↔
      (entries.lookup name).isSome = true := by
  constructor
  · intro kept
    rw [kept]
    rfl
  · intro present
    obtain ⟨json, found⟩ := Option.isSome_iff_exists.mp present
    unfold optionalIn at read
    rw [found] at read
    rw [found]
    rcases decodeNullable_cases read with ⟨rfl, rfl⟩ | ⟨_, held, rfl, decoded⟩
    · rfl
    · exact congrArg some (inverse json held found decoded).symm

/-- A nullable field that is left out when it is null. -/
theorem defaultedIn_nullable_kept_iff
    (inverse : ∀ json value, entries.lookup name = some json → decode json = some value →
      encode value = json)
    {value : Option A} (read : defaultedIn entries name (decodeNullable decode) none = some value) :
    entries.lookup name = value.map encode ↔ entries.lookup name ≠ some .null := by
  unfold defaultedIn at read
  cases found : entries.lookup name with
  | none =>
      rw [found] at read
      cases read
      exact ⟨fun _ isNull => (nomatch isNull), fun _ => rfl⟩
  | some json =>
      rw [found] at read
      rcases decodeNullable_cases read with ⟨rfl, rfl⟩ | ⟨notNull, held, rfl, decoded⟩
      · exact ⟨fun absent => (nomatch absent), fun differs => absurd rfl differs⟩
      · refine ⟨fun _ isNull => notNull (Option.some.inj isNull), fun _ => ?_⟩
        exact congrArg some (inverse json held found decoded).symm

theorem map_encode_of_mapM {items : List Json} {values : List A}
    (inverse : ∀ json ∈ items, ∀ value, decode json = some value → encode value = json)
    (decoded : items.mapM decode = some values) : values.map encode = items := by
  induction items generalizing values with
  | nil =>
      cases decoded
      rfl
  | cons json rest ih =>
      rw [List.mapM_cons] at decoded
      obtain ⟨value, read, decoded⟩ := Option.bind_eq_some_iff.mp decoded
      obtain ⟨others, readOthers, decoded⟩ := Option.bind_eq_some_iff.mp decoded
      cases decoded
      obtain ⟨first, later⟩ := List.forall_mem_cons.mp inverse
      rw [List.map_cons, first value read, ih later readOthers]

theorem decodeArray_eq_some {json : Json} {values : List A}
    (inverse : ∀ json value, decode json = some value → encode value = json)
    (decoded : decodeArray decode json = some values) : json = .array (values.map encode) := by
  cases json with
  | array items =>
      exact congrArg Json.array (map_encode_of_mapM (fun json _ => inverse json) decoded).symm
  | _ => cases decoded

/-- A list that is left out when it is empty. -/
theorem defaultedIn_list_kept_iff
    (inverse : ∀ json value, decode json = some value → encode value = json)
    {values : List A} (read : defaultedIn entries name (decodeArray decode) [] = some values) :
    entries.lookup name =
        (if values.isEmpty then none else some (.array (values.map encode))) ↔
      entries.lookup name ≠ some (.array []) := by
  unfold defaultedIn at read
  cases found : entries.lookup name with
  | none =>
      rw [found] at read
      cases read
      exact ⟨fun _ isEmpty => (nomatch isEmpty), fun _ => rfl⟩
  | some json =>
      rw [found] at read
      cases decodeArray_eq_some inverse read
      cases values with
      | nil => exact ⟨fun absent => (nomatch absent), fun differs => absurd rfl differs⟩
      | cons value rest => exact ⟨fun _ isEmpty => (nomatch isEmpty), fun _ => rfl⟩

/-- A list that is always written. -/
theorem defaultedIn_list_present_iff
    (inverse : ∀ json value, decode json = some value → encode value = json)
    {values : List A} (read : defaultedIn entries name (decodeArray decode) [] = some values) :
    entries.lookup name = some (.array (values.map encode)) ↔
      (entries.lookup name).isSome = true := by
  unfold defaultedIn at read
  cases found : entries.lookup name with
  | none => exact ⟨fun absent => (nomatch absent), fun present => (nomatch present)⟩
  | some json =>
      rw [found] at read
      rw [← decodeArray_eq_some inverse read]
      exact ⟨fun _ => rfl, fun _ => rfl⟩

end Kept

/-! ## Fields read as they were written -/

section Found
variable {A : Type} {entries : List (String × Json)} {name : String} {decode : Json → Option A}
  {encode : A → Json}

theorem requiredIn_of_found {value : A} (found : entries.lookup name = some (encode value))
    (reads : decode (encode value) = some value) :
    requiredIn entries name decode = some value := by
  unfold requiredIn
  rw [found]
  exact reads

theorem optionalIn_of_found {value : Option A}
    (found : entries.lookup name = some (encodeNullable encode value))
    (reads : ∀ value, decodeNullable decode (encode value) = some (some value)) :
    optionalIn entries name decode = some value := by
  unfold optionalIn
  rw [found]
  cases value with
  | none => rfl
  | some held => exact reads held

theorem defaultedIn_nullable_of_found {value : Option A}
    (found : entries.lookup name = value.map encode)
    (reads : ∀ value, decodeNullable decode (encode value) = some (some value)) :
    defaultedIn entries name (decodeNullable decode) none = some value := by
  unfold defaultedIn
  rw [found]
  cases value with
  | none => rfl
  | some held => exact reads held

theorem mapM_map_encode {values : List A} (reads : ∀ value ∈ values, decode (encode value) = some value) :
    (values.map encode).mapM decode = some values := by
  induction values with
  | nil => rfl
  | cons value rest ih =>
      obtain ⟨first, later⟩ := List.forall_mem_cons.mp reads
      rw [List.map_cons, List.mapM_cons, first, ih later]
      rfl

/-- A list that is left out when it is empty. -/
theorem defaultedIn_list_of_found {values : List A}
    (found : entries.lookup name =
      if values.isEmpty then none else some (.array (values.map encode)))
    (reads : ∀ value ∈ values, decode (encode value) = some value) :
    defaultedIn entries name (decodeArray decode) [] = some values := by
  unfold defaultedIn
  rw [found]
  cases values with
  | nil => rfl
  | cons value rest => exact mapM_map_encode reads

end Found

end Json
