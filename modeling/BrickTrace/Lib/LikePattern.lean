import Mathlib.Data.List.Infix

/-!
# LIKE with an escape character

A pattern is matched against a text without regard to the case of ASCII letters.  A percent
sign stands for any text and an underscore for any character, unless the escape character
comes before it.
-/

set_option autoImplicit false

namespace LikePattern

def matchesLike (mark : Char) : List Char → List Char → Bool
  | [], text => text.isEmpty
  | char :: pattern, text =>
      if char = '%' then text.tails.any (matchesLike mark pattern)
      else if char = mark then
        match pattern, text with
        | literal :: pattern, other :: rest =>
            literal.toLower == other.toLower && matchesLike mark pattern rest
        | _, _ => false
      else
        match text with
        | [] => false
        | other :: rest =>
            (char = '_' || char.toLower == other.toLower) && matchesLike mark pattern rest

/-- A text with the escape character before each character that is special. -/
def escape (mark : Char) (text : List Char) : List Char :=
  text.flatMap fun char => if char = mark ∨ char = '%' ∨ char = '_' then [mark, char] else [char]

def folded (text : List Char) : List Char := text.map Char.toLower

theorem matchesLike_percent (mark : Char) (pattern text : List Char) :
    matchesLike mark ('%' :: pattern) text = text.tails.any (matchesLike mark pattern) := by
  conv_lhs => unfold matchesLike
  rw [if_pos rfl]

theorem matchesLike_mark {mark : Char} (notPercent : mark ≠ '%') (char : Char)
    (pattern text : List Char) :
    matchesLike mark (mark :: char :: pattern) text = true ↔
      ∃ other rest, text = other :: rest ∧ char.toLower = other.toLower ∧
        matchesLike mark pattern rest = true := by
  conv_lhs => unfold matchesLike
  rw [if_neg notPercent, if_pos rfl]
  cases text with
  | nil => simp
  | cons other rest => simp

theorem matchesLike_plain {mark char : Char}
    (plain : ¬ (char = mark ∨ char = '%' ∨ char = '_')) (pattern text : List Char) :
    matchesLike mark (char :: pattern) text = true ↔
      ∃ other rest, text = other :: rest ∧ char.toLower = other.toLower ∧
        matchesLike mark pattern rest = true := by
  rw [not_or, not_or] at plain
  obtain ⟨notMark, notPercent, notAny⟩ := plain
  conv_lhs => unfold matchesLike
  rw [if_neg notPercent, if_neg notMark]
  cases text with
  | nil => simp
  | cons other rest => simp [notAny]

section Escape
variable {mark : Char} (notPercent : mark ≠ '%')
include notPercent

/-- An escaped character matches itself and what differs from it in case. -/
theorem matchesLike_escape_cons (char : Char) (pattern text : List Char) :
    matchesLike mark (escape mark [char] ++ pattern) text = true ↔
      ∃ other rest, text = other :: rest ∧ char.toLower = other.toLower ∧
        matchesLike mark pattern rest = true := by
  unfold escape
  rw [List.flatMap_singleton]
  by_cases special : char = mark ∨ char = '%' ∨ char = '_'
  · rw [if_pos special]
    exact matchesLike_mark notPercent char pattern text
  · rw [if_neg special]
    exact matchesLike_plain special pattern text

/-- An escaped text matches the front of a text up to the case of letters. -/
theorem matchesLike_escape_append {front pattern text : List Char} :
    matchesLike mark (escape mark front ++ pattern) text = true ↔
      ∃ start rest, text = start ++ rest ∧ folded start = folded front ∧
        matchesLike mark pattern rest = true := by
  induction front generalizing text with
  | nil =>
      constructor
      · exact fun matched => ⟨[], text, rfl, rfl, matched⟩
      · rintro ⟨start, rest, rfl, same, matched⟩
        have none : start = [] := List.map_eq_nil_iff.mp same
        rw [none]
        exact matched
  | cons char front ih =>
      have split : escape mark (char :: front) = escape mark [char] ++ escape mark front := by
        unfold escape
        rw [List.flatMap_cons, List.flatMap_singleton]
      rw [split, List.append_assoc, matchesLike_escape_cons notPercent]
      constructor
      · rintro ⟨other, rest, rfl, same, matched⟩
        obtain ⟨start, left, rfl, alike, last⟩ := ih.mp matched
        refine ⟨other :: start, left, rfl, ?_, last⟩
        exact List.cons_eq_cons.mpr ⟨same.symm, alike⟩
      · rintro ⟨start, rest, rfl, same, matched⟩
        cases start with
        | nil => cases same
        | cons other start =>
            obtain ⟨here, others⟩ := List.cons_eq_cons.mp same
            exact ⟨other, start ++ rest, rfl, here.symm, ih.mpr ⟨start, rest, rfl, others, matched⟩⟩

theorem matchesLike_escape {front text : List Char} :
    matchesLike mark (escape mark front) text = true ↔ folded text = folded front := by
  rw [← List.append_nil (escape mark front), matchesLike_escape_append notPercent]
  constructor
  · rintro ⟨start, rest, rfl, same, last⟩
    have none : rest = [] := List.isEmpty_iff.mp last
    rw [none, List.append_nil]
    exact same
  · exact fun same => ⟨text, [], (List.append_nil text).symm, same, rfl⟩

end Escape

theorem matchesLike_any (mark : Char) (text : List Char) : matchesLike mark ['%'] text = true := by
  rw [matchesLike_percent]
  exact List.any_eq_true.mpr ⟨[], (List.mem_tails _ _).mpr (List.nil_suffix), rfl⟩

end LikePattern
