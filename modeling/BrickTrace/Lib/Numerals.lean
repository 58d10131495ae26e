import Mathlib.Data.Nat.Basic
import Mathlib.Data.String.Basic

/-!
# Numerals in texts

Decimal numerals as a machine integer parses them (an optional plus sign, at
least one digit, nothing else, a value below a bound), and hexadecimal numerals
of a fixed width.  Printing and parsing in decimal is a round trip; a fixed
width in hexadecimal determines the number.
-/

set_option autoImplicit false

namespace Numerals

/-- The digits after an optional plus sign. -/
def unsignedDigits : List Char → List Char
  | '+' :: digits => digits
  | digits => digits

def parseUnsigned (bound : Nat) (text : String) : Option Nat :=
  let digits := unsignedDigits text.toList
  if digits ≠ [] ∧ digits.all Char.isDigit ∧ Nat.ofDigitChars 10 digits 0 < bound then
    some (Nat.ofDigitChars 10 digits 0)
  else none

theorem unsignedDigits_toDigits (value : Nat) :
    unsignedDigits (Nat.toDigits 10 value) = Nat.toDigits 10 value := by
  unfold unsignedDigits
  split
  · rename_i digits shape
    have digit : '+'.isDigit = true := by
      refine Nat.isDigit_of_mem_toDigits (b := 10) (n := value) (by decide) (by decide) ?_
      rw [shape]
      exact List.mem_cons_self ..
    exact absurd digit (by decide)
  · rfl

/-- Parsing a printed number gives it back. -/
theorem parseUnsigned_repr {bound value : Nat} (fits : value < bound) :
    parseUnsigned bound value.repr = some value := by
  have nonempty : Nat.toDigits 10 value ≠ [] := Nat.toDigits_ne_nil
  have digits : (Nat.toDigits 10 value).all Char.isDigit = true :=
    List.all_eq_true.mpr fun _ member =>
      Nat.isDigit_of_mem_toDigits (by decide) (by decide) member
  simp only [parseUnsigned, Nat.toList_repr, unsignedDigits_toDigits, Nat.ofDigitChars_ten_toDigits]
  rw [if_pos ⟨nonempty, digits, fits⟩]

/-- The last `width` hexadecimal digits of a number, most significant first. -/
def hexDigits : Nat → Nat → List Char
  | 0, _ => []
  | width + 1, value => hexDigits width (value / 16) ++ [Nat.digitChar (value % 16)]

theorem digitChar_injective_below : ∀ left < 16, ∀ right < 16,
    Nat.digitChar left = Nat.digitChar right → left = right := by decide

theorem digitChar_ne_hyphen : ∀ digit < 16, Nat.digitChar digit ≠ '-' := by decide

theorem hyphen_notMem_hexDigits (width value : Nat) : '-' ∉ hexDigits width value := by
  induction width generalizing value with
  | zero => simp [hexDigits]
  | succ width ih =>
      have last := digitChar_ne_hyphen (value % 16) (Nat.mod_lt _ (by decide))
      simp [hexDigits, ih, last.symm]

theorem hexDigits_injective {width left right : Nat} (leftFits : left < 16 ^ width)
    (rightFits : right < 16 ^ width) (same : hexDigits width left = hexDigits width right) :
    left = right := by
  induction width generalizing left right with
  | zero => simp only [Nat.pow_zero] at leftFits rightFits; omega
  | succ width ih =>
      simp only [hexDigits] at same
      obtain ⟨front, last⟩ := List.append_inj' same rfl
      have lowEqual : left % 16 = right % 16 :=
        digitChar_injective_below _ (Nat.mod_lt _ (by decide)) _ (Nat.mod_lt _ (by decide))
          (List.cons.inj last).1
      have highEqual : left / 16 = right / 16 := by
        refine ih ?_ ?_ front
        · exact Nat.div_lt_of_lt_mul (by rwa [Nat.pow_succ, Nat.mul_comm] at leftFits)
        · exact Nat.div_lt_of_lt_mul (by rwa [Nat.pow_succ, Nat.mul_comm] at rightFits)
      omega

end Numerals
