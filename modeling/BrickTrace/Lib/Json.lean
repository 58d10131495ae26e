import Mathlib.Data.List.Basic

/-!
# JSON values and the records read from them

A record is read from an object by field name, with unknown names ignored and a
missing optional field read as absent, or from an array by position, with
nothing left over.  An enumeration without data is read from its name, or from
an object whose only entry maps the name to null.
-/

set_option autoImplicit false

universe u

/-- A number keeps how it was written: a natural number, a negative one, or the
bits of a floating-point one. -/
inductive JsonNumber where
  | posInt (value : UInt64)
  | negInt (value : Int64)
  | float (bits : UInt64)
deriving DecidableEq, Repr

inductive Json where
  | null
  | bool (value : Bool)
  | number (value : JsonNumber)
  | string (value : String)
  | array (items : List Json)
  | object (entries : List (String × Json))

namespace Json

def decodeString : Json → Option String
  | .string text => some text
  | _ => none

def decodeBool : Json → Option Bool
  | .bool value => some value
  | _ => none

def decodeU64 : Json → Option UInt64
  | .number (.posInt value) => some value
  | .number (.negInt value) => if 0 ≤ value then some value.toUInt64 else none
  | _ => none

def decodeValue (json : Json) : Option Json := some json

def decodeArray {A : Type u} (decode : Json → Option A) : Json → Option (List A)
  | .array items => items.mapM decode
  | _ => none

def decodeNullable {A : Type u} (decode : Json → Option A) : Json → Option (Option A)
  | .null => some none
  | json => (decode json).map some

def decodeVariant {A : Type u} (variants : List (String × A)) : Json → Option A
  | .string name => variants.lookup name
  | .object [(name, .null)] => variants.lookup name
  | _ => none

/-- Where the fields of a record are read from. -/
inductive Source where
  | named (entries : List (String × Json))
  | positional (items : List Json)

/-- A reader of fields, in the order the record declares them. -/
abbrev Reader := StateT Source Option

def next (name : String) : Reader (Option Json)
  | .named entries => some (entries.lookup name, .named entries)
  | .positional [] => some (none, .positional [])
  | .positional (item :: rest) => some (some item, .positional rest)

def readsByName : Reader Bool
  | .named entries => some (true, .named entries)
  | .positional items => some (false, .positional items)

def required {A : Type} (name : String) (decode : Json → Option A) : Reader A := do
  match ← next name with
  | some json => StateT.lift (decode json)
  | none => failure

/-- A field that may be null, and may be missing when fields have names. -/
def optional {A : Type} (name : String) (decode : Json → Option A) : Reader (Option A) := do
  let byName ← readsByName
  match ← next name with
  | some json => StateT.lift (decodeNullable decode json)
  | none => if byName then pure none else failure

/-- A field with a default wherever it is missing. -/
def defaulted {A : Type} (name : String) (decode : Json → Option A) (default : A) : Reader A := do
  match ← next name with
  | some json => StateT.lift (decode json)
  | none => pure default

def decodeRecord {A : Type} (reader : Reader A) : Json → Option A
  | .object entries => (reader (.named entries)).map Prod.fst
  | .array items =>
      match reader (.positional items) with
      | some (record, .positional []) => some record
      | _ => none
  | _ => none

/-! ## Looking into values and building them -/

def get (key : String) : Json → Option Json
  | .object entries => entries.lookup key
  | _ => none

/-- The value under a path of keys. -/
def pointer (path : List String) (json : Json) : Option Json :=
  path.foldlM (fun value key => value.get key) json

/-- The entries of an object stand in the order of their keys; a key that is there
already gets the new value. -/
def insertEntry (key : String) (value : Json) : List (String × Json) → List (String × Json)
  | [] => [(key, value)]
  | entry :: rest =>
      if entry.1 = key then (key, value) :: rest
      else if key < entry.1 then (key, value) :: entry :: rest
      else entry :: insertEntry key value rest

def ofFields (fields : List (String × Json)) : Json :=
  .object (fields.foldl (fun entries field => insertEntry field.1 field.2 entries) [])

def encodeU64 (value : UInt64) : Json := .number (.posInt value)

def encodeNullable {A : Type u} (encode : A → Json) : Option A → Json
  | none => .null
  | some value => encode value

theorem lookup_insertEntry_self (key : String) (value : Json) (entries : List (String × Json)) :
    (insertEntry key value entries).lookup key = some value := by
  induction entries with
  | nil => simp [insertEntry]
  | cons entry rest ih =>
      unfold insertEntry
      by_cases same : entry.1 = key
      · rw [if_pos same]
        exact List.lookup_cons_self
      · rw [if_neg same]
        by_cases before : key < entry.1
        · rw [if_pos before]
          exact List.lookup_cons_self
        · rw [if_neg before]
          have differs : (key == entry.1) = false := beq_eq_false_iff_ne.mpr (Ne.symm same)
          rwa [List.lookup_cons, differs]

end Json
