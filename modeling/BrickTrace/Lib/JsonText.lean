import BrickTrace.Lib.Json
import BrickTrace.Lib.Numerals

/-!
# JSON values as texts

The compact text of a JSON value: no blanks, and in a text a quote, a backslash and every
control character written as an escape.  How a floating-point number is written is left to
the writer.
-/

set_option autoImplicit false

namespace JsonText

/-- A character as it stands between quotes. -/
def escape (char : Char) : List Char :=
  if char = '\x22' then ['\x5c', '\x22']
  else if char = '\x5c' then ['\x5c', '\x5c']
  else if char = '\x08' then ['\x5c', 'b']
  else if char = '\x0c' then ['\x5c', 'f']
  else if char = '\n' then ['\x5c', 'n']
  else if char = '\r' then ['\x5c', 'r']
  else if char = '\t' then ['\x5c', 't']
  else if char.toNat < 32 then ['\x5c', 'u', '0', '0'] ++ Numerals.hexDigits 2 char.toNat
  else [char]

def escaped (chars : List Char) : List Char := chars.flatMap escape

def quoted (text : String) : List Char := '\x22' :: escaped text.toList ++ ['\x22']

def writeInt (value : Int) : List Char :=
  (if value < 0 then ['-'] else []) ++ Nat.toDigits 10 value.natAbs

section Write
variable (writeFloat : UInt64 → List Char)

def writeNumber : JsonNumber → List Char
  | .posInt value => writeInt value.toNat
  | .negInt value => writeInt value.toInt
  | .float bits => writeFloat bits

def comma {A : Type} (rest : List A) : List Char := if rest.isEmpty then [] else [',']

mutual

def write : Json → List Char
  | .null => ['n', 'u', 'l', 'l']
  | .bool true => ['t', 'r', 'u', 'e']
  | .bool false => ['f', 'a', 'l', 's', 'e']
  | .number value => writeNumber writeFloat value
  | .string text => quoted text
  | .array items => '[' :: writeItems items ++ [']']
  | .object entries => '\x7b' :: writeEntries entries ++ ['\x7d']

def writeItems : List Json → List Char
  | [] => []
  | item :: rest => write item ++ comma rest ++ writeItems rest

def writeEntries : List (String × Json) → List Char
  | [] => []
  | (name, value) :: rest => quoted name ++ ':' :: write value ++ comma rest ++ writeEntries rest

end

end Write

/-! ## What a text holds -/

/-- A part without a quote, a backslash and control characters is written as it is. -/
theorem infix_escaped_of_plain {part chars : List Char} (within : part <:+: chars)
    (plain : ∀ char ∈ part, escape char = [char]) : part <:+: escaped chars := by
  obtain ⟨before, after, rfl⟩ := within
  have kept : part.flatMap escape = part := by
    rw [List.flatMap_congr (g := fun char => [char]) plain, List.flatMap_singleton']
  refine ⟨escaped before, escaped after, ?_⟩
  unfold escaped
  rw [List.flatMap_append, List.flatMap_append, kept]

theorem printable_hexDigits (width value : Nat) :
    ∀ char ∈ Numerals.hexDigits width value, 32 ≤ char.toNat := by
  induction width generalizing value with
  | zero => simp [Numerals.hexDigits]
  | succ width ih =>
      have printable : ∀ digit < 16, 32 ≤ (Nat.digitChar digit).toNat := by decide
      have last := printable (value % 16) (Nat.mod_lt _ (by decide))
      simp only [Numerals.hexDigits, List.forall_mem_append, List.forall_mem_singleton]
      exact ⟨ih _, last⟩

theorem printable_of_all {chars : List Char}
    (all : chars.all (fun char => 32 ≤ char.toNat) = true) : ∀ char ∈ chars, 32 ≤ char.toNat :=
  fun char member => of_decide_eq_true (List.all_eq_true.mp all char member)

/-- An escape holds no control character. -/
theorem printable_escape (char : Char) : ∀ other ∈ escape char, 32 ≤ other.toNat := by
  unfold escape
  repeat' split
  all_goals try exact printable_of_all (by decide)
  · rw [List.forall_mem_append]
    exact ⟨printable_of_all (by decide), printable_hexDigits 2 char.toNat⟩
  · rename_i notControl
    rw [List.forall_mem_singleton]
    exact Nat.not_lt.mp notControl

section Control
variable {control : Char} (isControl : control.toNat < 32)
include isControl

theorem control_notMem_of_printable {chars : List Char}
    (printable : ∀ char ∈ chars, 32 ≤ char.toNat) : control ∉ chars :=
  fun member => absurd (printable control member) (Nat.not_le.mpr isControl)

theorem control_notMem_quoted (text : String) : control ∉ quoted text := by
  apply control_notMem_of_printable isControl
  intro char member
  simp only [quoted, escaped, List.cons_append, List.mem_cons, List.mem_append, List.mem_flatMap,
    List.not_mem_nil, or_false] at member
  rcases member with rfl | ⟨inner, _, inEscape⟩ | rfl
  · decide
  · exact printable_escape inner char inEscape
  · decide

theorem control_notMem_writeInt (value : Int) : control ∉ writeInt value := by
  have digits : control ∉ Nat.toDigits 10 value.natAbs := by
    intro member
    have isDigit := Nat.isDigit_of_mem_toDigits (by decide) (by decide) member
    have atLeast : 48 ≤ control.toNat := (Char.isDigit_iff_toNat.mp isDigit).1
    omega
  have sign : control ≠ '-' := by
    rintro rfl
    exact absurd isControl (by decide)
  unfold writeInt
  split <;> simp [digits, sign]

theorem control_notMem_comma {A : Type} (rest : List A) : control ∉ comma rest := by
  apply control_notMem_of_printable isControl
  unfold comma
  split
  · exact printable_of_all (by decide)
  · exact printable_of_all (by decide)

mutual

theorem control_notMem_write {writeFloat : UInt64 → List Char}
    (floats : ∀ bits, control ∉ writeFloat bits) (json : Json) : control ∉ write writeFloat json := by
  have plain : ∀ {char : Char}, 32 ≤ char.toNat → control ≠ char := by
    rintro char printable rfl
    omega
  match json with
  | .null =>
      have printable : ∀ char ∈ ['n', 'u', 'l', 'l'], 32 ≤ char.toNat := printable_of_all (by decide)
      exact control_notMem_of_printable isControl printable
  | .bool true =>
      have printable : ∀ char ∈ ['t', 'r', 'u', 'e'], 32 ≤ char.toNat := printable_of_all (by decide)
      exact control_notMem_of_printable isControl printable
  | .bool false =>
      have printable : ∀ char ∈ ['f', 'a', 'l', 's', 'e'], 32 ≤ char.toNat := printable_of_all (by decide)
      exact control_notMem_of_printable isControl printable
  | .number (.posInt value) => exact control_notMem_writeInt isControl _
  | .number (.negInt value) => exact control_notMem_writeInt isControl _
  | .number (.float bits) => exact floats bits
  | .string text => exact control_notMem_quoted isControl text
  | .array items =>
      have inner := control_notMem_writeItems floats items
      have opening : control ≠ '[' := plain (by decide)
      have closing : control ≠ ']' := plain (by decide)
      simp [write, inner, opening, closing]
  | .object entries =>
      have inner := control_notMem_writeEntries floats entries
      have opening : control ≠ '\x7b' := plain (by decide)
      have closing : control ≠ '\x7d' := plain (by decide)
      simp [write, inner, opening, closing]

theorem control_notMem_writeItems {writeFloat : UInt64 → List Char}
    (floats : ∀ bits, control ∉ writeFloat bits) (items : List Json) :
    control ∉ writeItems writeFloat items := by
  match items with
  | [] => simp [writeItems]
  | item :: rest =>
      simp [writeItems, control_notMem_write floats item, control_notMem_comma isControl rest,
        control_notMem_writeItems floats rest]

theorem control_notMem_writeEntries {writeFloat : UInt64 → List Char}
    (floats : ∀ bits, control ∉ writeFloat bits) (entries : List (String × Json)) :
    control ∉ writeEntries writeFloat entries := by
  match entries with
  | [] => simp [writeEntries]
  | (name, value) :: rest =>
      have colon : control ≠ ':' := by
        rintro rfl
        exact absurd isControl (by decide)
      simp [writeEntries, control_notMem_quoted isControl name, control_notMem_write floats value,
        control_notMem_comma isControl rest, control_notMem_writeEntries floats rest, colon]

end

end Control

end JsonText
