import BrickTrace.Lib.JsonFields
import BrickTrace.Lib.OrderedMap

/-!
# Records that are read as they were written

A writer and a reader of values belong together when every value is read back from
what is written of it.  A record is written field by field, each under a name of its
own; a field that is left out is written as nothing.  Reading the fields in any order
then gives the values that were written.
-/

set_option autoImplicit false

namespace Json

/-- What is written is read back, and is never null. -/
structure Inverse {A : Type} (encode : A → Json) (decode : Json → Option A) : Prop where
  reads : ∀ value, decode (encode value) = some value
  notNull : ∀ value, encode value ≠ .null

theorem Inverse.isSome {A : Type} {encode : A → Json} {decode : Json → Option A}
    (inverse : Inverse encode decode) (value : A) : (decode (encode value)).isSome := by
  rw [inverse.reads]
  rfl

theorem inverse_string : Inverse Json.string decodeString := ⟨fun _ => rfl, nofun⟩

theorem inverse_bool : Inverse Json.bool decodeBool := ⟨fun _ => rfl, nofun⟩

theorem inverse_u64 : Inverse encodeU64 decodeU64 := ⟨fun _ => rfl, nofun⟩

/-- The name that stands for a value of an enumeration. -/
def encodeVariant {A : Type} [DecidableEq A] (variants : List (String × A)) (value : A) : Json :=
  .string (((variants.find? fun variant => variant.2 = value).map Prod.fst).getD "")

theorem inverse_variant {A : Type} [DecidableEq A] {variants : List (String × A)}
    (distinct : (variants.map Prod.fst).Nodup) (all : ∀ value, value ∈ variants.map Prod.snd) :
    Inverse (encodeVariant variants) (decodeVariant variants) where
  notNull := nofun
  reads value := by
    obtain ⟨variant, member, rfl⟩ := List.mem_map.mp (all value)
    have found : (variants.find? fun other => other.2 = variant.2).isSome = true :=
      List.find?_isSome.mpr ⟨variant, member, decide_eq_true rfl⟩
    obtain ⟨named, isNamed⟩ := Option.isSome_iff_exists.mp found
    have sameValue : named.2 = variant.2 := by simpa using List.find?_some isNamed
    unfold encodeVariant
    rw [isNamed]
    change variants.lookup named.1 = some variant.2
    rw [← sameValue]
    exact OrderedMap.lookup_of_mem distinct (List.mem_of_find?_eq_some isNamed)

theorem inverse_array {A : Type} {encode : A → Json} {decode : Json → Option A}
    (inverse : Inverse encode decode) :
    Inverse (fun values : List A => .array (values.map encode)) (decodeArray decode) where
  notNull := nofun
  reads _ := mapM_map_encode fun value _ => inverse.reads value

section Nullable
variable {A : Type} {encode : A → Json} {decode : Json → Option A}

theorem Inverse.decodeNullable_encode (inverse : Inverse encode decode) (value : A) :
    decodeNullable decode (encode value) = some (some value) := by
  have reads := inverse.reads value
  have notNull := inverse.notNull value
  unfold decodeNullable
  split
  · contradiction
  · rw [reads]
    rfl

theorem Inverse.nullable (inverse : Inverse encode decode) (value : Option A) :
    decodeNullable decode (encodeNullable encode value) = some value := by
  cases value with
  | none => rfl
  | some held => exact inverse.decodeNullable_encode held

/-- A nullable field that is left out when there is no value. -/
theorem Inverse.omitted (inverse : Inverse encode decode) (value : Option A) :
    value.elim (some none) (decodeNullable decode ∘ encode) = some value := by
  cases value with
  | none => rfl
  | some held => exact inverse.decodeNullable_encode held

/-- A list that is left out when it is empty. -/
theorem Inverse.listed (inverse : Inverse encode decode) (values : List A) :
    (if values = [] then none else some (Json.array (values.map encode))).elim (some [])
      (decodeArray decode) = some values := by
  cases values with
  | nil => rfl
  | cons value rest => exact (inverse_array inverse).reads (value :: rest)

end Nullable

@[simp] theorem decodeString_string (text : String) : decodeString (.string text) = some text := rfl

@[simp] theorem decodeBool_bool (value : Bool) : decodeBool (.bool value) = some value := rfl

@[simp] theorem decodeU64_encodeU64 (value : UInt64) :
    decodeU64 (encodeU64 value) = some value := rfl

@[simp] theorem decodeValue_eq (value : Json) : decodeValue value = some value := rfl

@[simp] theorem nullable_string (text : Option String) :
    decodeNullable decodeString (encodeNullable .string text) = some text :=
  inverse_string.nullable text

@[simp] theorem omitted_string (text : Option String) :
    text.elim (some none) (decodeNullable decodeString ∘ Json.string) = some text :=
  inverse_string.omitted text

@[simp] theorem nullable_u64 (value : Option UInt64) :
    decodeNullable decodeU64 (encodeNullable encodeU64 value) = some value :=
  inverse_u64.nullable value

/-! ## Fields of a record -/

/-- The fields of a record, each under a name of its own. -/
structure Record where
  fields : List (String × Option Json)
  distinct : (fields.map Prod.fst).Nodup

namespace Record

def entries (record : Record) : List (String × Json) := fieldEntries (written record.fields)

def json (record : Record) : Json := .object record.entries

theorem json_ne_null (record : Record) : record.json ≠ .null := nofun

theorem lookup_entries (record : Record) (name : String) :
    record.entries.lookup name = (record.fields.lookup name).join := by
  unfold entries
  rw [lookup_fieldEntries (record.distinct.sublist (names_written_sublist _))]
  cases found : record.fields.lookup name with
  | none =>
      refine lookup_written_of_notMem fun member => ?_
      obtain ⟨field, isField, rfl⟩ := List.mem_map.mp member
      exact bne_iff_ne.mp (List.lookup_eq_none_iff.mp found field isField) rfl
  | some value => exact lookup_written record.distinct (OrderedMap.mem_of_lookup found)

/-- An object holds the fields of a record, whatever else it holds. -/
def HeldBy (record : Record) (body : Json) : Prop :=
  ∃ entries, body = .object entries ∧ ∀ field ∈ record.fields, entries.lookup field.1 = field.2

theorem heldBy_json (record : Record) : record.HeldBy record.json := by
  refine ⟨record.entries, rfl, fun field member => ?_⟩
  rw [lookup_entries, OrderedMap.lookup_of_mem record.distinct member]
  rfl

section Reading
variable {A B : Type} (record : Record) (name : String) (decode : Json → Option A)

@[simp] theorem decodeRecord_json (reader : Reader A) :
    decodeRecord reader record.json = (reader (.named record.entries)).map Prod.fst := rfl

@[simp] theorem required_bind (rest : A → Reader B) :
    (required name decode >>= rest) (.named record.entries) =
      ((record.fields.lookup name).join.bind decode).bind fun value =>
        rest value (.named record.entries) := by
  rw [required_bind_named, requiredIn, lookup_entries]

@[simp] theorem optional_bind (rest : Option A → Reader B) :
    (optional name decode >>= rest) (.named record.entries) =
      ((record.fields.lookup name).join.elim (some none) (decodeNullable decode)).bind fun value =>
        rest value (.named record.entries) := by
  rw [optional_bind_named, optionalIn, lookup_entries]
  cases (record.fields.lookup name).join <;> rfl

@[simp] theorem defaulted_bind (default : A) (rest : A → Reader B) :
    (defaulted name decode default >>= rest) (.named record.entries) =
      ((record.fields.lookup name).join.elim (some default) decode).bind fun value =>
        rest value (.named record.entries) := by
  rw [defaulted_bind_named, defaultedIn, lookup_entries]
  cases (record.fields.lookup name).join <;> rfl

@[simp] theorem pure_named (value : A) :
    (pure value : Reader A) (.named record.entries) = some (value, .named record.entries) := rfl

end Reading

end Record

end Json
