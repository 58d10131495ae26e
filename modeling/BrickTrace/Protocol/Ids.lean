import BrickTrace.Lib.Numerals
import Mathlib.Algebra.GroupWithZero.Nat

/-!
# Identifiers of the provenance protocol

An event is identified by a UUID, printed with hyphens in lower case.  The
entities of the graph are identified by texts, one type for each kind of entity
so that kinds are not mixed.
-/

set_option autoImplicit false

namespace BrickTrace

instance uuidValues_neZero : NeZero (16 ^ 32) := ⟨by decide⟩

structure Uuid where
  value : Fin (16 ^ 32)
deriving DecidableEq

namespace Uuid

def digits (uuid : Uuid) : List Char := Numerals.hexDigits 32 uuid.value.val

/-- Hyphens after 8, 12, 16 and 20 digits. -/
def hyphenated (digits : List Char) : List Char :=
  digits.take 8 ++ '-' :: (digits.drop 8).take 4 ++ '-' :: (digits.drop 12).take 4 ++
    '-' :: (digits.drop 16).take 4 ++ '-' :: digits.drop 20

def text (uuid : Uuid) : String := String.ofList (hyphenated uuid.digits)

theorem filter_hyphenated (digits : List Char) (plain : '-' ∉ digits) :
    (hyphenated digits).filter (· ≠ '-') = digits := by
  have kept : ∀ part : List Char, part.Sublist digits → part.filter (· ≠ '-') = part := by
    intro part within
    apply List.filter_eq_self.mpr
    intro char member
    have differs : char ≠ '-' := by
      rintro rfl
      exact plain (within.subset member)
    simpa using differs
  have hyphen : ∀ rest : List Char, ('-' :: rest).filter (· ≠ '-') = rest.filter (· ≠ '-') :=
    fun rest => by simp
  have middle : ∀ start, ((digits.drop start).take 4).Sublist digits := fun start =>
    (List.take_sublist ..).trans (List.drop_sublist ..)
  simp only [hyphenated, List.append_assoc, List.cons_append, List.filter_append, hyphen,
    kept _ (List.take_sublist 8 digits), kept _ (middle 8), kept _ (middle 12),
    kept _ (middle 16), kept _ (List.drop_sublist 20 digits)]
  have join : ∀ start, (digits.drop start).take 4 ++ digits.drop (start + 4) = digits.drop start := by
    intro start
    rw [← List.drop_drop]
    exact List.take_append_drop 4 (digits.drop start)
  rw [join 16, join 12, join 8, List.take_append_drop]

theorem text_injective {left right : Uuid} (same : left.text = right.text) : left = right := by
  have lists : hyphenated left.digits = hyphenated right.digits := by
    simpa [text] using congrArg String.toList same
  have digitsEqual : left.digits = right.digits := by
    have filtered := congrArg (List.filter (· ≠ '-')) lists
    rwa [filter_hyphenated left.digits (Numerals.hyphen_notMem_hexDigits 32 _),
      filter_hyphenated right.digits (Numerals.hyphen_notMem_hexDigits 32 _)] at filtered
  have values : left.value.val = right.value.val :=
    Numerals.hexDigits_injective left.value.isLt right.value.isLt digitsEqual
  cases left
  cases right
  exact congrArg Uuid.mk (Fin.ext values)

end Uuid

inductive TraceIdKind where
  | org
  | project
  | mission
  | session
  | artifact
  | attachment
  | logRef
  | repoContext
  | externalRef
  | fileRef
deriving DecidableEq

/-- An identifier of one kind of entity, kept as the text it is written as. -/
structure TraceId (kind : TraceIdKind) where
  text : String
deriving DecidableEq

abbrev OrgId := TraceId .org
abbrev ProjectId := TraceId .project
abbrev MissionId := TraceId .mission
abbrev SessionId := TraceId .session
abbrev ArtifactId := TraceId .artifact
abbrev AttachmentId := TraceId .attachment
abbrev LogRefId := TraceId .logRef
abbrev RepoContextId := TraceId .repoContext
abbrev ExternalRefId := TraceId .externalRef
abbrev FileRefId := TraceId .fileRef

/-- The characters of the Unicode property `White_Space`. -/
def isWhiteSpace (char : Char) : Bool :=
  let code := char.toNat
  (9 ≤ code && code ≤ 13) || code == 0x20 || code == 0x85 || code == 0xA0 || code == 0x1680 ||
    (0x2000 ≤ code && code ≤ 0x200A) || code == 0x2028 || code == 0x2029 || code == 0x202F ||
    code == 0x205F || code == 0x3000

theorem isWhiteSpace_of_isDigit {char : Char} (digit : char.isDigit = true) :
    isWhiteSpace char = false := by
  have zero : '0'.toNat = 48 := by decide
  have nine : '9'.toNat = 57 := by decide
  have bounds := Char.isDigit_iff_toNat.mp digit
  rw [zero, nine] at bounds
  simp only [isWhiteSpace, Bool.or_eq_false_iff, Bool.and_eq_false_iff, beq_eq_false_iff_ne,
    decide_eq_false_iff_not]
  omega

/-- Whether nothing is left of a text once it is trimmed. -/
def isBlank (text : String) : Bool := text.toList.all isWhiteSpace

def parseTraceId (kind : TraceIdKind) (value : String) : Option (TraceId kind) :=
  if isBlank value then none else some ⟨value⟩

end BrickTrace
