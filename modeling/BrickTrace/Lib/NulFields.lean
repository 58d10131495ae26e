import Mathlib.Data.List.Basic

/-!
# Fields that end in a zero byte

A stream of bytes is cut at its zero bytes, and the pieces that are not empty are read as
UTF-8.  Texts without a zero character, each followed by a zero byte, are read back.
-/

set_option autoImplicit false

namespace NulFields

/-- The text in UTF-8. -/
def bytes (text : String) : List UInt8 := text.toList.flatMap String.utf8EncodeChar

def readUtf8 (encoded : List UInt8) : Option String := String.fromUTF8? encoded.toByteArray

theorem readUtf8_bytes (text : String) : readUtf8 (bytes text) = some text := by
  have encoded : (bytes text).toByteArray = text.toByteArray := String.utf8Encode_toList
  unfold readUtf8 String.fromUTF8?
  rw [encoded, dif_pos text.isValidUTF8]
  rfl

@[simp] theorem bytes_append (first second : String) :
    bytes (first ++ second) = bytes first ++ bytes second := by
  simp [bytes]

theorem bytes_eq_nil_iff {text : String} : bytes text = [] ↔ text = "" := by
  constructor
  · intro empty
    have read := readUtf8_bytes text
    rw [empty, show ([] : List UInt8) = bytes "" from rfl, readUtf8_bytes] at read
    exact (Option.some.inj read).symm
  · rintro rfl
    rfl

/-- A byte below 128 is the code of its character. -/
theorem toNat_eq_of_mem_utf8EncodeChar {char : Char} {byte : UInt8}
    (member : byte ∈ String.utf8EncodeChar char) (ascii : byte.toNat < 128) :
    char.toNat = byte.toNat := by
  have large : ∀ value : Nat, 128 ≤ value → value < 256 → byte ≠ UInt8.ofNat value := by
    rintro value above fits rfl
    rw [UInt8.toNat_ofNat_of_lt' fits] at ascii
    omega
  unfold String.utf8EncodeChar at member
  dsimp only at member
  split at member
  · rename_i small
    rw [List.mem_singleton.mp member, UInt8.toNat_ofNat_of_lt' (by change _ < 256; omega)]
    rfl
  · exfalso
    split at member
    · simp only [List.mem_cons, List.not_mem_nil, or_false] at member
      obtain is | is := member
      all_goals exact large _ (by omega) (by omega) is
    · split at member
      · simp only [List.mem_cons, List.not_mem_nil, or_false] at member
        obtain is | is | is := member
        all_goals exact large _ (by omega) (by omega) is
      · simp only [List.mem_cons, List.not_mem_nil, or_false] at member
        obtain is | is | is | is := member
        all_goals exact large _ (by omega) (by omega) is

/-- Only the zero character has a zero byte. -/
theorem zero_notMem_utf8EncodeChar {char : Char} (nonzero : char ≠ '\x00') :
    0 ∉ String.utf8EncodeChar char := by
  intro member
  have code : char.toNat = 0 := toNat_eq_of_mem_utf8EncodeChar member (by decide)
  exact nonzero (Char.ext (UInt32.toNat_inj.mp code))

theorem zero_notMem_bytes {text : String} (nulFree : '\x00' ∉ text.toList) : 0 ∉ bytes text := by
  unfold bytes
  rw [List.mem_flatMap]
  rintro ⟨char, member, zero⟩
  exact zero_notMem_utf8EncodeChar (fun isNul => nulFree (isNul ▸ member)) zero

/-- The texts of the pieces that are not empty, when all of them are UTF-8. -/
def fields (stream : List UInt8) : Option (List String) :=
  ((stream.splitOn 0).filter fun piece => !piece.isEmpty).mapM readUtf8

def written (texts : List String) : List UInt8 := texts.flatMap fun text => bytes text ++ [0]

/-- A text without an end is one field. -/
theorem fields_bytes {text : String} (nulFree : '\x00' ∉ text.toList) :
    fields (bytes text) = some ([text].filter (· ≠ "")) := by
  unfold fields
  rw [List.splitOn_eq_singleton (zero_notMem_bytes nulFree)]
  by_cases empty : text = ""
  · subst empty
    rfl
  · have nonempty : bytes text ≠ [] := fun none => empty (bytes_eq_nil_iff.mp none)
    rw [List.filter_cons_of_pos (by simpa using nonempty),
      List.filter_cons_of_pos (by simpa using empty), List.filter_nil, List.mapM_cons,
      readUtf8_bytes]
    rfl

/-- The texts that are not empty are read back. -/
theorem fields_written {texts : List String} (nulFree : ∀ text ∈ texts, '\x00' ∉ text.toList) :
    fields (written texts) = some (texts.filter (· ≠ "")) := by
  induction texts with
  | nil => rfl
  | cons text rest ih =>
      have later := ih fun other member => nulFree other (List.mem_cons_of_mem _ member)
      have noZero := zero_notMem_bytes (nulFree text List.mem_cons_self)
      have pieces : (written (text :: rest)).splitOn 0 = bytes text :: (written rest).splitOn 0 := by
        rw [written, List.flatMap_cons, List.append_assoc, List.singleton_append]
        exact List.splitOn_append_cons_self_of_not_mem noZero _
      unfold fields at later ⊢
      rw [pieces]
      by_cases empty : text = ""
      · subst empty
        exact later
      · have nonempty : bytes text ≠ [] := fun none => empty (bytes_eq_nil_iff.mp none)
        rw [List.filter_cons_of_pos (by simpa using nonempty),
          List.filter_cons_of_pos (by simpa using empty), List.mapM_cons, readUtf8_bytes, later]
        rfl

end NulFields
