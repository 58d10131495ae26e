import Mathlib.Data.List.Infix

/-!
# Percent-encoded bytes

An escape is a percent sign with two hexadecimal digits after it and stands for one byte.
Every other byte stands for itself, a percent sign without its digits among them.
-/

set_option autoImplicit false

namespace PercentCoding

def percentSign : UInt8 := 37

def hexValue (digit : UInt8) : Option UInt8 :=
  if 48 ≤ digit ∧ digit ≤ 57 then some (digit - 48)
  else if 65 ≤ digit ∧ digit ≤ 70 then some (digit - 55)
  else if 97 ≤ digit ∧ digit ≤ 102 then some (digit - 87)
  else none

/-- The byte that an escape at the start of the bytes stands for. -/
def escapedByte : List UInt8 → Option UInt8
  | sign :: high :: low :: _ =>
      if sign = percentSign then
        match hexValue high, hexValue low with
        | some upper, some lower => some (upper * 16 + lower)
        | _, _ => none
      else none
  | _ => none

def decode : List UInt8 → List UInt8
  | sign :: high :: low :: rest =>
      match escapedByte (sign :: high :: low :: rest) with
      | some escaped => escaped :: decode rest
      | none => sign :: decode (high :: low :: rest)
  | bytes => bytes

/-- Some part of the bytes is an escape. -/
def HasEscape (bytes : List UInt8) : Prop := ∃ part, part <:+ bytes ∧ (escapedByte part).isSome

theorem hasEscape_cons_iff {byte : UInt8} {rest : List UInt8} :
    HasEscape (byte :: rest) ↔ (escapedByte (byte :: rest)).isSome ∨ HasEscape rest := by
  constructor
  · rintro ⟨part, within, escape⟩
    rcases List.suffix_cons_iff.mp within with rfl | later
    · exact Or.inl escape
    · exact Or.inr ⟨part, later, escape⟩
  · rintro (escape | ⟨part, later, escape⟩)
    · exact ⟨byte :: rest, List.suffix_refl _, escape⟩
    · exact ⟨part, List.suffix_cons_iff.mpr (Or.inr later), escape⟩

theorem length_decode_le (bytes : List UInt8) : (decode bytes).length ≤ bytes.length := by
  fun_induction decode bytes with
  | case1 sign high low rest escaped escape ih =>
      rw [List.length_cons, List.length_cons, List.length_cons, List.length_cons]
      omega
  | case2 sign high low rest plain ih => exact Nat.succ_le_succ ih
  | case3 bytes short => exact Nat.le_refl _

theorem not_hasEscape_nil : ¬ HasEscape [] := by
  rintro ⟨part, within, escape⟩
  rw [List.suffix_nil.mp within] at escape
  exact absurd escape (by decide)

/-- An escape takes three bytes. -/
theorem not_hasEscape_of_short {bytes : List UInt8}
    (short : ∀ sign high low rest, bytes ≠ sign :: high :: low :: rest) : ¬ HasEscape bytes := by
  rcases bytes with _ | ⟨first, _ | ⟨second, _ | ⟨third, rest⟩⟩⟩
  · exact not_hasEscape_nil
  · simp [hasEscape_cons_iff, not_hasEscape_nil, escapedByte]
  · simp [hasEscape_cons_iff, not_hasEscape_nil, escapedByte]
  · exact absurd rfl (short first second third rest)

/-- Bytes decode to themselves exactly when they have no escape: one that has is longer
than what it decodes to. -/
theorem decode_eq_self_iff (bytes : List UInt8) : decode bytes = bytes ↔ ¬ HasEscape bytes := by
  fun_induction decode bytes with
  | case1 sign high low rest escaped escape ih =>
      have isEscape : (escapedByte (sign :: high :: low :: rest)).isSome := by
        rw [escape]
        rfl
      constructor
      · intro same
        have lengths := congrArg List.length same
        have shorter := length_decode_le rest
        simp only [List.length_cons] at lengths
        omega
      · intro free
        exact absurd (hasEscape_cons_iff.mpr (Or.inl isEscape)) free
  | case2 sign high low rest plain ih =>
      rw [List.cons.injEq, hasEscape_cons_iff, plain, ih]
      simp
  | case3 bytes short =>
      exact iff_of_true rfl (not_hasEscape_of_short short)

/-! ## Texts -/

/-- A text is decoded as the bytes of its UTF-8 form, which have to be such a form again. -/
def decodeText (text : String) : Option String :=
  String.fromUTF8? (decode text.toByteArray.data.toList).toByteArray

def TextHasEscape (text : String) : Prop := HasEscape text.toByteArray.data.toList

theorem fromUTF8?_eq_some_iff {bytes : ByteArray} {text : String} :
    String.fromUTF8? bytes = some text ↔ text.toByteArray = bytes := by
  unfold String.fromUTF8?
  constructor
  · intro decoded
    split at decoded
    · cases decoded
      rfl
    · cases decoded
  · rintro rfl
    rw [dif_pos text.isValidUTF8]
    rfl

/-- A text that is decoded to a text stands for itself exactly when it has no escape. -/
theorem decodeText_eq_self_iff {text decoded : String} (isDecoded : decodeText text = some decoded) :
    text = decoded ↔ ¬ TextHasEscape text := by
  have bytes := fromUTF8?_eq_some_iff.mp isDecoded
  unfold TextHasEscape
  rw [← decode_eq_self_iff, ← String.toByteArray_inj, bytes]
  constructor
  · intro same
    have lists := congrArg (fun array : ByteArray => array.data.toList) same
    simpa using lists.symm
  · intro same
    rw [same]
    apply ByteArray.ext
    simp

end PercentCoding
