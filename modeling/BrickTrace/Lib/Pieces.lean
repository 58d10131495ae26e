import Mathlib.Data.List.Infix
import Mathlib.Data.List.TakeWhile

/-!
# The pieces of a list between its separators

The pieces of `List.splitOnP` in order, where a piece stands in the list, and when the pieces of
one list are the last ones of another.
-/

set_option autoImplicit false

namespace Pieces

universe u

variable {A : Type u}

section Separators
variable {p : A → Bool}

/-- A list is a last piece, or a piece with a separator and a list behind it. -/
theorem split_induction {P : List A → Prop} (last : ∀ piece, (∀ item ∈ piece, p item = false) → P piece)
    (more : ∀ piece item rest, (∀ item ∈ piece, p item = false) → p item = true → P rest →
      P (piece ++ item :: rest)) (items : List A) : P items := by
  suffices behind : ∀ piece, (∀ item ∈ piece, p item = false) → P (piece ++ items) from
    behind [] (List.forall_mem_nil _)
  induction items with
  | nil =>
      intro piece free
      rw [List.append_nil]
      exact last piece free
  | cons item rest ih =>
      intro piece free
      cases separates : p item with
      | true => exact more piece item rest free separates (ih [] (List.forall_mem_nil _))
      | false =>
          rw [List.append_cons]
          refine ih (piece ++ [item]) (List.forall_mem_append.mpr ⟨free, ?_⟩)
          exact List.forall_mem_singleton.mpr separates

end Separators

/-- The part stands in the list with nothing next to it but what the condition admits. -/
def StandsBetween (p : A → Bool) (part items : List A) : Prop :=
  ∃ before after, items = before ++ part ++ after ∧
    (∀ item ∈ before.getLast?, p item = true) ∧ ∀ item ∈ after.head?, p item = true

section Standing
variable {p q : A → Bool} {part middle items : List A}

theorem StandsBetween.trans (inner : StandsBetween q part middle)
    (outer : StandsBetween p middle items) (wider : ∀ item, p item = true → q item = true) :
    StandsBetween q part items := by
  obtain ⟨before, after, rfl, endsBefore, startsAfter⟩ := inner
  obtain ⟨front, back, rfl, endsFront, startsBack⟩ := outer
  refine ⟨front ++ before, after ++ back, by simp only [List.append_assoc], ?_, ?_⟩
  · intro item isLast
    rw [List.getLast?_append, Option.mem_def, Option.or_eq_some_iff] at isLast
    rcases isLast with here | ⟨_, farther⟩
    · exact endsBefore item here
    · exact wider item (endsFront item farther)
  · intro item isFirst
    rw [List.head?_append, Option.mem_def, Option.or_eq_some_iff] at isFirst
    rcases isFirst with here | ⟨_, farther⟩
    · exact startsAfter item here
    · exact wider item (startsBack item farther)

/-- What is left of a list without what is dropped at both of its ends. -/
theorem standsBetween_trimmed (p : A → Bool) (items : List A) :
    StandsBetween p ((items.dropWhile p).reverse.dropWhile p).reverse items := by
  refine ⟨items.takeWhile p, ((items.dropWhile p).reverse.takeWhile p).reverse, ?_, ?_, ?_⟩
  · rw [List.append_assoc, ← List.reverse_append, List.takeWhile_append_dropWhile,
      List.reverse_reverse, List.takeWhile_append_dropWhile]
  · intro item isLast
    exact List.mem_takeWhile_imp (List.mem_of_getLast? isLast)
  · intro item isFirst
    have member := List.mem_reverse.mp (List.mem_of_mem_head? isFirst)
    exact List.mem_takeWhile_imp member

theorem standsBetween_of_mem_splitOnP (member : part ∈ items.splitOnP p) :
    StandsBetween p part items := by
  induction items using split_induction (p := p) with
  | last piece free =>
      rw [List.splitOnP_eq_singleton free, List.mem_singleton] at member
      rw [member]
      refine ⟨[], [], (List.append_nil piece).symm, ?_, ?_⟩
      · intro item isLast
        cases isLast
      · intro item isFirst
        cases isFirst
  | more piece item rest free separates ih =>
      rw [List.splitOnP_append_cons_of_forall_mem free item separates] at member
      rcases List.mem_cons.mp member with rfl | later
      · refine ⟨[], item :: rest, rfl, ?_, ?_⟩
        · intro item isLast
          cases isLast
        · intro item isFirst
          cases isFirst
          exact separates
      · obtain ⟨before, after, rfl, endsBefore, startsAfter⟩ := ih later
        refine ⟨piece ++ item :: before, after, by simp, ?_, startsAfter⟩
        intro last isLast
        rw [List.getLast?_append, List.getLast?_cons] at isLast
        cases ends : before.getLast? with
        | none =>
            rw [ends] at isLast
            cases isLast
            exact separates
        | some item =>
            rw [ends] at isLast
            cases isLast
            exact endsBefore item ends

end Standing

/-! ## The last pieces -/

section LastPieces
variable [BEq A] [LawfulBEq A]

omit [BEq A] [LawfulBEq A] in
theorem intercalate_append (sep first : List A) (others : List (List A)) {back : List (List A)}
    (someBack : back ≠ []) : sep.intercalate (first :: others ++ back) =
      sep.intercalate (first :: others) ++ sep ++ sep.intercalate back := by
  induction others generalizing first with
  | nil =>
      rw [List.singleton_append, List.intercalate_cons_of_ne_nil someBack,
        List.intercalate_singleton]
  | cons next rest ih =>
      have here := @List.intercalate_cons_cons A sep first next (rest ++ back)
      rw [List.cons_append, List.cons_append, here, ← List.cons_append, ih,
        List.intercalate_cons_cons]
      simp only [List.append_assoc]

theorem splitOn_injective {sep : A} {left right : List A}
    (same : left.splitOn sep = right.splitOn sep) : left = right := by
  have joined := congrArg [sep].intercalate same
  rwa [List.intercalate_splitOn, List.intercalate_splitOn] at joined

/-- The pieces of a list are the last ones of another when it is the other or ends it behind a
separator. -/
theorem splitOn_suffix_iff {sep : A} {back whole : List A} :
    back.splitOn sep <:+ whole.splitOn sep ↔ back = whole ∨ sep :: back <:+ whole := by
  constructor
  · rintro ⟨pieces, same⟩
    cases pieces with
    | nil => exact Or.inl (splitOn_injective same)
    | cons first others =>
        have apart := intercalate_append [sep] first others (List.splitOn_ne_nil sep back)
        rw [same, List.intercalate_splitOn, List.intercalate_splitOn, List.append_assoc] at apart
        exact Or.inr ⟨_, apart.symm⟩
  · rintro (rfl | ⟨front, rfl⟩)
    · exact List.suffix_rfl
    · rw [List.splitOn_append_cons_self]
      exact List.suffix_append _ _

end LastPieces

end Pieces
