import BrickTrace.Lib.NulFields

/-!
# Text from bytes that may not be UTF-8

The characters of a stream of bytes are read one after the other.  Where no character stands, the
longest start of one, or a single byte, is read as the replacement character.  A line feed is read
as such wherever it stands, so a stream may be cut after any of them.
-/

set_option autoImplicit false

namespace LossyText

open NulFields (bytes)

def isContinuation (byte : UInt8) : Bool := 0x80 ≤ byte && byte ≤ 0xbf

/-- The length of the character that a byte above `0x7f` starts, and the range of the byte
after it. -/
def leadByte (byte : UInt8) : Option (Nat × UInt8 × UInt8) :=
  if 0xc2 ≤ byte && byte ≤ 0xdf then some (2, 0x80, 0xbf)
  else if byte == 0xe0 then some (3, 0xa0, 0xbf)
  else if byte == 0xed then some (3, 0x80, 0x9f)
  else if 0xe1 ≤ byte && byte ≤ 0xef then some (3, 0x80, 0xbf)
  else if byte == 0xf0 then some (4, 0x90, 0xbf)
  else if 0xf1 ≤ byte && byte ≤ 0xf3 then some (4, 0x80, 0xbf)
  else if byte == 0xf4 then some (4, 0x80, 0x8f)
  else none

/-- The number of bytes after a first one that go into the same replacement character. -/
def brokenRest (first : UInt8) (rest : List UInt8) : Nat :=
  match leadByte first, rest with
  | some (width, low, high), second :: others =>
      if low ≤ second && second ≤ high then
        ((others.take (width - 2)).takeWhile isContinuation).length + 1
      else 0
  | _, _ => 0

/-- The character at the start of some bytes. -/
def firstChar (stream : List UInt8) : Option Char := stream.toByteArray.utf8DecodeChar? 0

/-- The characters of some bytes, of which the first ones were read before. -/
def decodeAfter : Nat → List UInt8 → List Char
  | _, [] => []
  | skipped + 1, _ :: rest => decodeAfter skipped rest
  | 0, byte :: rest =>
      match firstChar (byte :: rest) with
      | some char => char :: decodeAfter (char.utf8Size - 1) rest
      | none => '\uFFFD' :: decodeAfter (brokenRest byte rest) rest

def decode (stream : List UInt8) : List Char := decodeAfter 0 stream

/-! ## Characters of UTF-8 -/

theorem firstChar_append (char : Char) (rest : List UInt8) :
    firstChar (String.utf8EncodeChar char ++ rest) = some char := by
  unfold firstChar
  rw [List.toByteArray_append]
  exact ByteArray.utf8DecodeChar?_utf8EncodeChar_append

theorem eq_append_of_firstChar {stream : List UInt8} {char : Char}
    (found : firstChar stream = some char) :
    ∃ rest, stream = String.utf8EncodeChar char ++ rest := by
  obtain ⟨rest, whole⟩ := ByteArray.exists_of_utf8DecodeChar?_eq_some found
  refine ⟨rest.data.toList, ?_⟩
  have := congrArg (fun bytes => bytes.data.toList) whole
  simpa using this

theorem decodeAfter_length (first rest : List UInt8) :
    decodeAfter first.length (first ++ rest) = decode rest := by
  induction first with
  | nil => rfl
  | cons byte others ih => exact ih

theorem decode_append (char : Char) (rest : List UInt8) :
    decode (String.utf8EncodeChar char ++ rest) = char :: decode rest := by
  have found := firstChar_append char rest
  cases encoded : String.utf8EncodeChar char with
  | nil =>
      have := String.length_utf8EncodeChar char
      rw [encoded] at this
      exact absurd this (Nat.ne_of_lt char.utf8Size_pos)
  | cons byte others =>
      have size : char.utf8Size - 1 = others.length := by
        rw [← String.length_utf8EncodeChar, encoded]
        rfl
      rw [encoded] at found
      rw [List.cons_append] at found ⊢
      rw [decode, decodeAfter, found]
      simp only
      rw [size, decodeAfter_length]

/-- A text is read as it was written. -/
theorem decode_bytes_append (text : String) (rest : List UInt8) :
    decode (bytes text ++ rest) = text.toList ++ decode rest := by
  unfold bytes
  induction text.toList with
  | nil => rfl
  | cons char others ih =>
      rw [List.flatMap_cons, List.append_assoc, decode_append, ih]
      rfl

/-! ## Line feeds -/

theorem newline_notMem_utf8EncodeChar {char : Char} (other : char ≠ '\n') :
    10 ∉ String.utf8EncodeChar char := by
  intro member
  have code : char.toNat = 10 := NulFields.toNat_eq_of_mem_utf8EncodeChar member (by decide)
  exact other (Char.ext (UInt32.toNat_inj.mp code))

theorem newline_notMem_bytes {text : String} (free : '\n' ∉ text.toList) : 10 ∉ bytes text := by
  unfold bytes
  rw [List.mem_flatMap]
  rintro ⟨char, member, newline⟩
  exact newline_notMem_utf8EncodeChar (fun same => free (same ▸ member)) newline

/-- A byte that ends a run is not passed, however many bytes are looked at. -/
theorem length_takeWhile_take_le {A : Type} (inRun : A → Bool) {mark : A}
    (ends : inRun mark = false) (count : Nat) (front rest : List A) :
    (((front ++ mark :: rest).take count).takeWhile inRun).length ≤ front.length := by
  induction front generalizing count with
  | nil =>
      cases count with
      | zero => exact Nat.zero_le _
      | succ count => simp [ends]
  | cons item others ih =>
      cases count with
      | zero => exact Nat.zero_le _
      | succ count =>
          rw [List.cons_append, List.take_succ_cons, List.takeWhile_cons]
          cases inRun item with
          | false => exact Nat.zero_le _
          | true => exact Nat.succ_le_succ (ih count)

/-- A start in which the mark does not stand is no longer than what stands before the mark. -/
theorem length_le_of_unmarked {A : Type} {mark : A} {first after front rest : List A}
    (unmarked : mark ∉ first) (whole : first ++ after = front ++ mark :: rest) :
    first.length ≤ front.length := by
  obtain ⟨more, rfl, _⟩ | ⟨more, rfl, _⟩ := List.append_eq_append_iff.mp whole
  · rw [List.length_append]
    exact Nat.le_add_right _ _
  · rename_i ending
    cases more with
    | nil => exact Nat.le_of_eq (congrArg List.length (List.append_nil front))
    | cons item others =>
        obtain rfl := (List.cons.inj ending).1
        exact absurd (List.mem_append_right _ List.mem_cons_self) unmarked

theorem low_of_leadByte {byte : UInt8} {width : Nat} {low high : UInt8}
    (found : leadByte byte = some (width, low, high)) : 0x80 ≤ low := by
  unfold leadByte at found
  split at found
  · cases found; decide
  · split at found
    · cases found; decide
    · split at found
      · cases found; decide
      · split at found
        · cases found; decide
        · split at found
          · cases found; decide
          · split at found
            · cases found; decide
            · split at found
              · cases found; decide
              · cases found

/-- A replacement character stands for nothing beyond a line feed. -/
theorem brokenRest_le (first : UInt8) (front rest : List UInt8) :
    brokenRest first (front ++ 10 :: rest) ≤ front.length := by
  unfold brokenRest
  cases lead : leadByte first with
  | none => exact Nat.zero_le _
  | some found =>
      obtain ⟨width, low, high⟩ := found
      have low_le := low_of_leadByte lead
      cases front with
      | nil =>
          have below : ¬ low ≤ 10 := fun held =>
            absurd (UInt8.le_trans low_le held) (by decide)
          simp [below]
      | cons second others =>
          simp only [List.cons_append]
          split
          · exact Nat.succ_le_succ (length_takeWhile_take_le isContinuation rfl _ _ _)
          · exact Nat.zero_le _

/-- What stands before a line feed is read first, and no line feed is read there unless one
stands there. -/
theorem decodeAfter_line (front : List UInt8) {skipped : Nat} (within : skipped ≤ front.length)
    (rest : List UInt8) :
    ∃ text, ('\n' ∈ text → 10 ∈ front) ∧
      decodeAfter skipped (front ++ 10 :: rest) = text ++ '\n' :: decode rest := by
  induction front generalizing skipped with
  | nil =>
      obtain rfl := Nat.le_zero.mp within
      exact ⟨[], fun member => absurd member List.not_mem_nil, decode_append '\n' rest⟩
  | cons byte others ih =>
      cases skipped with
      | succ skipped =>
          obtain ⟨text, marked, decoded⟩ := ih (Nat.le_of_succ_le_succ within)
          exact ⟨text, fun member => List.mem_cons_of_mem _ (marked member), decoded⟩
      | zero =>
          rw [List.cons_append, decodeAfter]
          cases found : firstChar (byte :: (others ++ 10 :: rest)) with
          | none =>
              obtain ⟨text, marked, decoded⟩ := ih (brokenRest_le byte others rest)
              refine ⟨'\uFFFD' :: text, ?_, by simp only [decoded, List.cons_append]⟩
              intro member
              obtain same | member := List.mem_cons.mp member
              · exact absurd same (by decide)
              · exact List.mem_cons_of_mem _ (marked member)
          | some char =>
              obtain ⟨after, whole⟩ := eq_append_of_firstChar found
              have first : char = '\n' → byte = 10 := by
                rintro rfl
                exact (List.cons.inj whole).1
              have fits : char.utf8Size ≤ (byte :: others).length := by
                by_cases isNewline : char = '\n'
                · rw [isNewline]
                  exact Nat.succ_le_succ (Nat.zero_le _)
                · rw [← String.length_utf8EncodeChar]
                  exact length_le_of_unmarked (newline_notMem_utf8EncodeChar isNewline) whole.symm
              obtain ⟨text, marked, decoded⟩ := ih (Nat.sub_le_of_le_add fits)
              refine ⟨char :: text, ?_, by simp only [decoded, List.cons_append]⟩
              intro member
              obtain isNewline | member := List.mem_cons.mp member
              · rw [first isNewline.symm]
                exact List.mem_cons_self
              · exact List.mem_cons_of_mem _ (marked member)

/-- A line feed is read only where one stands. -/
theorem newline_of_mem_decodeAfter {stream : List UInt8} {skipped : Nat}
    (member : '\n' ∈ decodeAfter skipped stream) : 10 ∈ stream := by
  induction stream generalizing skipped with
  | nil =>
      cases skipped <;> exact absurd member List.not_mem_nil
  | cons byte rest ih =>
      cases skipped with
      | succ skipped => exact List.mem_cons_of_mem _ (ih member)
      | zero =>
          rw [decodeAfter] at member
          cases found : firstChar (byte :: rest) with
          | none =>
              rw [found] at member
              rcases List.mem_cons.mp member with same | later
              · exact absurd same (by decide)
              · exact List.mem_cons_of_mem _ (ih later)
          | some char =>
              rw [found] at member
              rcases List.mem_cons.mp member with rfl | later
              · obtain ⟨after, whole⟩ := eq_append_of_firstChar found
                rw [(List.cons.inj whole).1]
                exact List.mem_cons_self
              · exact List.mem_cons_of_mem _ (ih later)

theorem newline_of_mem_decode {stream : List UInt8} (member : '\n' ∈ decode stream) : 10 ∈ stream :=
  newline_of_mem_decodeAfter member

end LossyText
