import Mathlib.Data.List.Basic

/-!
# Numbers of a variable width

A number is written in bytes of seven bits each, the lowest first.  Every byte but the last has
its high bit set, so a reader can tell where the number ends.
-/

set_option autoImplicit false

namespace Varint

/-- The byte says that another one follows. -/
def continues (byte : UInt8) : Bool := byte &&& 0x80 != 0

def encode (value : Nat) : List UInt8 :=
  if value < 128 then [UInt8.ofNat value]
  else UInt8.ofNat (value % 128 + 128) :: encode (value / 128)
termination_by value
decreasing_by omega

theorem encode_of_lt {value : Nat} (small : value < 128) : encode value = [UInt8.ofNat value] := by
  rw [encode, if_pos small]

theorem encode_of_le {value : Nat} (large : 128 ≤ value) :
    encode value = UInt8.ofNat (value % 128 + 128) :: encode (value / 128) := by
  rw [encode, if_neg (Nat.not_lt.mpr large)]

/-- A number has one byte for its low seven bits, and the bytes of the rest before it ends. -/
theorem encode_induction {motive : Nat → Prop} (last : ∀ value < 128, motive value)
    (more : ∀ value, 128 ≤ value → motive (value / 128) → motive value) (value : Nat) :
    motive value := by
  induction value using Nat.strongRecOn with
  | ind value ih =>
      by_cases small : value < 128
      · exact last value small
      · exact more value (Nat.not_lt.mp small) (ih (value / 128) (by omega))

theorem length_encode_pos (value : Nat) : 0 < (encode value).length := by
  rw [encode]
  split <;> simp

theorem toNat_ofNat_of_lt {value : Nat} (small : value < 256) : (UInt8.ofNat value).toNat = value :=
  UInt8.toNat_ofNat_of_lt' small

theorem and_0x80 (byte : UInt8) : (byte &&& 0x80).toNat = byte.toNat / 128 * 128 := by
  have all : ∀ value < 256, value &&& 128 = value / 128 * 128 := by decide +kernel
  rw [UInt8.toNat_and]
  exact all byte.toNat byte.toNat_lt

theorem continues_iff (byte : UInt8) : continues byte = true ↔ 128 ≤ byte.toNat := by
  have high := and_0x80 byte
  unfold continues
  rw [bne_iff_ne, ne_eq, ← UInt8.toNat_inj, high]
  have zero : (0 : UInt8).toNat = 0 := rfl
  omega

theorem continues_last {value : Nat} (small : value < 128) :
    continues (UInt8.ofNat value) = false := by
  rw [← Bool.not_eq_true, continues_iff, toNat_ofNat_of_lt (by omega)]
  omega

theorem continues_more (value : Nat) : continues (UInt8.ofNat (value % 128 + 128)) = true := by
  rw [continues_iff, toNat_ofNat_of_lt (by omega)]
  omega

/-- The seven bits that a byte holds of a number. -/
theorem low_toNat (byte : UInt8) : (byte &&& 0x7f).toNat = byte.toNat % 128 := by
  rw [UInt8.toNat_and]
  exact Nat.and_two_pow_sub_one_eq_mod byte.toNat 7

end Varint
