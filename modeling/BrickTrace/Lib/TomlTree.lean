import BrickTrace.Lib.KeyedLists

/-!
# TOML documents

What stands under a key of a document is a value, a table or an array of tables.  Values have
arrays and tables of their own, which are written inline; a table with a header or with dotted
keys is an item.
-/

set_option autoImplicit false

namespace Toml

open KeyedLists (KeyTable Format)

/-- The numbers and times that nothing is computed from are kept as they are written. -/
inductive Value where
  | string (text : String)
  | integer (number : Int)
  | float (text : String)
  | boolean (flag : Bool)
  | datetime (text : String)
  | array (values : List Value)
  | inlineTable (entries : List (String × Value))

inductive Item where
  | value (value : Value)
  | table (entries : List (String × Item))
  | arrayOfTables (tables : List (List (String × Item)))

def Value.asStr : Value → Option String
  | .string text => some text
  | _ => none

def Item.asStr : Item → Option String
  | .value held => held.asStr
  | _ => none

def Item.asInteger : Item → Option Int
  | .value (.integer number) => some number
  | _ => none

def Item.asArray : Item → Option (List Value)
  | .value (.array values) => some values
  | _ => none

def Item.asTable : Item → Option (KeyTable Item)
  | .table entries => some entries
  | _ => none

def Item.asArrayOfTables : Item → Option (List (KeyTable Item))
  | .arrayOfTables tables => some tables
  | _ => none

/-! ## What is written, whichever way -/

mutual

/-- The value of an item, as if it was written inline. -/
def Item.plain : Item → Value
  | .value held => held
  | .table entries => .inlineTable (plainEntries entries)
  | .arrayOfTables tables => .array (plainTables tables)

def plainEntries : List (String × Item) → List (String × Value)
  | [] => []
  | (key, item) :: rest => (key, item.plain) :: plainEntries rest

def plainTables : List (List (String × Item)) → List Value
  | [] => []
  | entries :: rest => .inlineTable (plainEntries entries) :: plainTables rest

end

def Value.field (key : String) : Value → Option Value
  | .inlineTable entries => entries.lookup key
  | _ => none

def Value.items : Value → List Value
  | .array values => values
  | _ => []

def Value.isTable : Value → Bool
  | .inlineTable _ => true
  | _ => false

def Value.isArray : Value → Bool
  | .array _ => true
  | _ => false

theorem lookup_plainEntries (entries : List (String × Item)) (key : String) :
    (plainEntries entries).lookup key = (entries.lookup key).map Item.plain := by
  induction entries with
  | nil => rfl
  | cons entry rest ih =>
      obtain ⟨name, item⟩ := entry
      change List.lookup key ((name, item.plain) :: plainEntries rest) = _
      rw [List.lookup_cons, List.lookup_cons]
      cases key == name with
      | true => rfl
      | false => exact ih

theorem plainTables_eq_map (tables : List (List (String × Item))) :
    plainTables tables = tables.map fun entries => .inlineTable (plainEntries entries) := by
  induction tables with
  | nil => rfl
  | cons entries rest ih => exact congrArg (_ :: ·) ih

/-! ## Tables -/

/-- The item takes the place of one under the key, or comes last. -/
def insert (key : String) (item : Item) : KeyTable Item → KeyTable Item
  | [] => [(key, item)]
  | entry :: rest => if entry.1 = key then (key, item) :: rest else entry :: insert key item rest

theorem insert_ne_nil (key : String) (item : Item) (entries : KeyTable Item) :
    insert key item entries ≠ [] := by
  cases entries with
  | nil => exact nofun
  | cons entry rest =>
      unfold insert
      split <;> exact nofun

theorem lookup_insert_self (key : String) (item : Item) (entries : KeyTable Item) :
    (insert key item entries).lookup key = some item := by
  induction entries with
  | nil => exact List.lookup_cons_self
  | cons entry rest ih =>
      unfold insert
      by_cases same : entry.1 = key
      · rw [if_pos same]
        exact List.lookup_cons_self
      · rw [if_neg same, List.lookup_cons, beq_eq_false_iff_ne.mpr (Ne.symm same)]
        exact ih

theorem lookup_insert_of_ne {name key : String} (item : Item) (entries : KeyTable Item)
    (other : name ≠ key) : (insert key item entries).lookup name = entries.lookup name := by
  have differs : (name == key) = false := beq_eq_false_iff_ne.mpr other
  induction entries with
  | nil =>
      unfold insert
      rw [List.lookup_cons, differs]
  | cons entry rest ih =>
      unfold insert
      by_cases same : entry.1 = key
      · rw [if_pos same, List.lookup_cons, List.lookup_cons, same, differs]
      · rw [if_neg same, List.lookup_cons, List.lookup_cons, ih]

theorem insert_insert (key : String) (item earlier : Item) (entries : KeyTable Item) :
    insert key item (insert key earlier entries) = insert key item entries := by
  induction entries with
  | nil => exact if_pos rfl
  | cons entry rest ih =>
      have step (item : Item) : insert key item (entry :: rest) =
          if entry.1 = key then (key, item) :: rest else entry :: insert key item rest := rfl
      rw [step earlier, step item]
      by_cases same : entry.1 = key
      · rw [if_pos same, if_pos same]
        exact if_pos rfl
      · rw [if_neg same, if_neg same, ← ih]
        exact if_neg same

/-- Tables and arrays of tables; one that is written inline is neither. -/
def format : Format Item (KeyTable Item) where
  table := .table
  list := .arrayOfTables
  asTable := Item.asTable
  asList := Item.asArrayOfTables
  insert := insert
  asTable_table _ := rfl
  asList_list _ := rfl
  insert_ne_nil := insert_ne_nil
  lookup_insert_self := lookup_insert_self
  lookup_insert_of_ne := lookup_insert_of_ne

end Toml
