import BrickTrace.Lib.JsonFields

/-!
# Comparing and building JSON values

Two values are compared by their structure; an object that is built has what its fields say.
-/

set_option autoImplicit false

namespace Json

mutual

def same : Json → Json → Bool
  | .null, .null => true
  | .bool first, .bool second => first == second
  | .number first, .number second => decide (first = second)
  | .string first, .string second => first == second
  | .array first, .array second => sameItems first second
  | .object first, .object second => sameEntries first second
  | _, _ => false

def sameItems : List Json → List Json → Bool
  | [], [] => true
  | first :: firstRest, second :: secondRest =>
      same first second && sameItems firstRest secondRest
  | _, _ => false

def sameEntries : List (String × Json) → List (String × Json) → Bool
  | [], [] => true
  | (firstKey, first) :: firstRest, (secondKey, second) :: secondRest =>
      firstKey == secondKey && same first second && sameEntries firstRest secondRest
  | _, _ => false

end

example : same (.object [("a", .array [.null])]) (.object [("a", .array [.null])]) = true := by decide

mutual

theorem eq_of_same : ∀ {first second : Json}, same first second = true → first = second
  | .null, second, equal => by
      cases second with
      | null => rfl
      | _ => cases equal
  | .bool flag, second, equal => by
      cases second with
      | bool other => rw [beq_iff_eq.mp (show (flag == other) = true from equal)]
      | _ => cases equal
  | .number held, second, equal => by
      cases second with
      | number other => rw [of_decide_eq_true (show decide (held = other) = true from equal)]
      | _ => cases equal
  | .string text, second, equal => by
      cases second with
      | string other => rw [beq_iff_eq.mp (show (text == other) = true from equal)]
      | _ => cases equal
  | .array items, second, equal => by
      cases second with
      | array others => rw [eq_of_sameItems (show sameItems items others = true from equal)]
      | _ => cases equal
  | .object entries, second, equal => by
      cases second with
      | object others => rw [eq_of_sameEntries (show sameEntries entries others = true from equal)]
      | _ => cases equal

theorem eq_of_sameItems : ∀ {first second : List Json}, sameItems first second = true →
    first = second
  | [], second, equal => by
      cases second with
      | nil => rfl
      | cons other others => cases equal
  | item :: items, second, equal => by
      cases second with
      | nil => cases equal
      | cons other others =>
          obtain ⟨head, tail⟩ := (Bool.and_eq_true ..).mp
            (show (same item other && sameItems items others) = true from equal)
          rw [eq_of_same head, eq_of_sameItems tail]

theorem eq_of_sameEntries : ∀ {first second : List (String × Json)},
    sameEntries first second = true → first = second
  | [], second, equal => by
      cases second with
      | nil => rfl
      | cons other others => cases equal
  | (key, value) :: entries, second, equal => by
      cases second with
      | nil => cases equal
      | cons other others =>
          obtain ⟨otherKey, otherValue⟩ := other
          obtain ⟨head, tail⟩ := (Bool.and_eq_true ..).mp
            (show (key == otherKey && same value otherValue && sameEntries entries others) = true
              from equal)
          obtain ⟨keys, values⟩ := (Bool.and_eq_true ..).mp head
          rw [beq_iff_eq.mp keys, eq_of_same values, eq_of_sameEntries tail]

end

mutual

theorem same_refl : ∀ value : Json, same value value = true
  | .null => rfl
  | .bool flag => beq_self_eq_true flag
  | .number held => decide_eq_true (rfl : held = held)
  | .string text => beq_self_eq_true text
  | .array items => sameItems_refl items
  | .object entries => sameEntries_refl entries

theorem sameItems_refl : ∀ items : List Json, sameItems items items = true
  | [] => rfl
  | item :: items => by
      change (same item item && sameItems items items) = true
      rw [same_refl item, sameItems_refl items]
      rfl

theorem sameEntries_refl : ∀ entries : List (String × Json), sameEntries entries entries = true
  | [] => rfl
  | (key, value) :: entries => by
      change (key == key && same value value && sameEntries entries entries) = true
      rw [beq_self_eq_true, same_refl value, sameEntries_refl entries]
      rfl

end

theorem get_ofFields {fields : List (String × Json)} (distinct : (fields.map Prod.fst).Nodup)
    (name : String) : (ofFields fields).get name = fields.lookup name := by
  change (fields.foldl (fun entries field => insertEntry field.1 field.2 entries) []).lookup name = _
  rw [lookup_foldl_insertEntry distinct, List.lookup_nil, Option.or_none]

end Json
