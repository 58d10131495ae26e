import Mathlib.Algebra.BigOperators.Group.List.Basic
import Mathlib.Algebra.GroupWithZero.Nat
import Mathlib.Data.List.Infix

/-!
# Slices of a text at byte positions

A text is kept in UTF-8 and its positions count bytes.  A slice is refused when one of its ends
is behind the end of the text or inside a character, or when it ends before it starts.
-/

set_option autoImplicit false

namespace Utf8Slices

def byteLength (text : List Char) : Nat := (text.map Char.utf8Size).sum

inductive SliceError where
  | outOfRange
  | insideCharacter
  | endBeforeStart
  deriving Repr, DecidableEq

/-- What stands before a position and what stands after it. -/
def cutAt : List Char → Nat → Except SliceError (List Char × List Char)
  | text, 0 => .ok ([], text)
  | [], _ + 1 => .error .outOfRange
  | char :: rest, place + 1 =>
      if char.utf8Size ≤ place + 1 then
        (cutAt rest (place + 1 - char.utf8Size)).map fun parts => (char :: parts.1, parts.2)
      else .error .insideCharacter

def sliceTo (text : List Char) (place : Nat) : Except SliceError (List Char) :=
  (cutAt text place).map Prod.fst

def sliceFrom (text : List Char) (place : Nat) : Except SliceError (List Char) :=
  (cutAt text place).map Prod.snd

def slice (text : List Char) (start stop : Nat) : Except SliceError (List Char) :=
  if start ≤ stop then do
    let front ← sliceTo text stop
    sliceFrom front start
  else .error .endBeforeStart

def isCharBoundary (text : List Char) (place : Nat) : Bool := (cutAt text place).isOk

/-- Where the part stands for the first time. -/
def find (part : List Char) : List Char → Option Nat
  | [] => if part.isEmpty then some 0 else none
  | char :: rest =>
      if part.isPrefixOf (char :: rest) then some 0
      else (find part rest).map (char.utf8Size + ·)

@[simp] theorem byteLength_nil : byteLength [] = 0 := rfl

@[simp] theorem byteLength_cons (char : Char) (rest : List Char) :
    byteLength (char :: rest) = char.utf8Size + byteLength rest := rfl

@[simp] theorem byteLength_append (front back : List Char) :
    byteLength (front ++ back) = byteLength front + byteLength back := by
  unfold byteLength
  rw [List.map_append, List.sum_append]

theorem byteLength_eq_zero {text : List Char} (empty : byteLength text = 0) : text = [] := by
  cases text with
  | nil => rfl
  | cons char rest =>
      rw [byteLength_cons] at empty
      have := char.utf8Size_pos
      omega

/-! ## Cutting -/

theorem cutAt_append (before after : List Char) :
    cutAt (before ++ after) (byteLength before) = .ok (before, after) := by
  induction before with
  | nil => rw [List.nil_append, byteLength_nil, cutAt]
  | cons char rest ih =>
      have size := char.utf8Size_pos
      rw [List.cons_append, byteLength_cons]
      obtain ⟨place, isPlace⟩ : ∃ place, char.utf8Size + byteLength rest = place + 1 :=
        ⟨char.utf8Size + byteLength rest - 1, by omega⟩
      have left : place + 1 - char.utf8Size = byteLength rest := by omega
      rw [isPlace, cutAt, if_pos (by omega), left, ih]
      rfl

theorem eq_append_of_cutAt {text before after : List Char} {place : Nat}
    (cut : cutAt text place = .ok (before, after)) :
    text = before ++ after ∧ byteLength before = place := by
  induction text generalizing place before with
  | nil =>
      cases place with
      | zero =>
          cases cut
          exact ⟨rfl, rfl⟩
      | succ place => cases cut
  | cons char rest ih =>
      cases place with
      | zero =>
          cases cut
          exact ⟨rfl, rfl⟩
      | succ place =>
          rw [cutAt] at cut
          by_cases fits : char.utf8Size ≤ place + 1
          · rw [if_pos fits] at cut
            cases inner : cutAt rest (place + 1 - char.utf8Size) with
            | error failure =>
                rw [inner] at cut
                cases cut
            | ok parts =>
                rw [inner] at cut
                cases cut
                obtain ⟨isRest, size⟩ := ih inner
                exact ⟨congrArg (char :: ·) isRest, by rw [byteLength_cons]; omega⟩
          · rw [if_neg fits] at cut
            cases cut

theorem sliceFrom_append (before after : List Char) :
    sliceFrom (before ++ after) (byteLength before) = .ok after := by
  unfold sliceFrom
  rw [cutAt_append]
  rfl

theorem sliceTo_append (before after : List Char) :
    sliceTo (before ++ after) (byteLength before) = .ok before := by
  unfold sliceTo
  rw [cutAt_append]
  rfl

theorem slice_append (before part after : List Char) :
    slice (before ++ part ++ after) (byteLength before) (byteLength (before ++ part)) = .ok part := by
  unfold slice
  rw [if_pos (by rw [byteLength_append]; omega), sliceTo_append]
  exact sliceFrom_append before part

theorem isCharBoundary_iff {text : List Char} {place : Nat} :
    isCharBoundary text place = true ↔
      ∃ before after, text = before ++ after ∧ byteLength before = place := by
  unfold isCharBoundary
  constructor
  · intro boundary
    cases cut : cutAt text place with
    | error failure =>
        rw [cut] at boundary
        cases boundary
    | ok parts => exact ⟨parts.1, parts.2, eq_append_of_cutAt cut⟩
  · rintro ⟨before, after, rfl, rfl⟩
    rw [cutAt_append]
    rfl

theorem isCharBoundary_zero (text : List Char) : isCharBoundary text 0 = true :=
  isCharBoundary_iff.mpr ⟨[], text, rfl, rfl⟩

theorem isCharBoundary_byteLength (text : List Char) :
    isCharBoundary text (byteLength text) = true :=
  isCharBoundary_iff.mpr ⟨text, [], (List.append_nil text).symm, rfl⟩

theorem prefix_of_byteLength_le {text front longer : List Char} (isFront : front <+: text)
    (isLonger : longer <+: text) (le : byteLength front ≤ byteLength longer) : front <+: longer := by
  rcases List.prefix_or_prefix_of_prefix isFront isLonger with shorter | ⟨extra, rfl⟩
  · exact shorter
  · rw [byteLength_append] at le
    have none : extra = [] := byteLength_eq_zero (by omega)
    rw [none, List.append_nil]

/-- A slice between two characters of the text is never refused. -/
theorem slice_of_boundaries {text : List Char} {start stop : Nat}
    (startsWell : isCharBoundary text start = true) (stopsWell : isCharBoundary text stop = true)
    (ordered : start ≤ stop) : ∃ part, slice text start stop = .ok part := by
  obtain ⟨before, rest, isText, rfl⟩ := isCharBoundary_iff.mp startsWell
  obtain ⟨front, after, same, rfl⟩ := isCharBoundary_iff.mp stopsWell
  obtain ⟨part, rfl⟩ : before <+: front :=
    prefix_of_byteLength_le ⟨rest, isText.symm⟩ ⟨after, same.symm⟩ ordered
  rw [same]
  exact ⟨part, slice_append before part after⟩

/-! ## Finding -/

/-- A part is found where it stands when nothing before it has a character of it. -/
theorem find_after_gap {part : List Char} (solid : part ≠ []) {gap : List Char}
    (apart : ∀ char ∈ gap, char ∉ part) (rest : List Char) :
    find part (gap ++ part ++ rest) = some (byteLength gap) := by
  induction gap with
  | nil =>
      cases part with
      | nil => exact absurd rfl solid
      | cons char others =>
          rw [List.nil_append, List.cons_append, find, if_pos]
          · rfl
          · exact List.isPrefixOf_iff_prefix.mpr (List.prefix_append (char :: others) rest)
  | cons char others ih =>
      obtain ⟨here, later⟩ := List.forall_mem_cons.mp apart
      rw [List.cons_append, List.cons_append, find, if_neg, ih later]
      · rfl
      · intro starts
        cases part with
        | nil => exact solid rfl
        | cons head tail =>
            have same := (List.cons_prefix_cons.mp (List.isPrefixOf_iff_prefix.mp starts)).1
            exact here (same ▸ List.mem_cons_self)

end Utf8Slices
