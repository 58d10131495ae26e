import Mathlib.Data.List.Infix
import Mathlib.Data.Nat.Find

/-!
# Blocks between two markers

A text may have blocks in it, each from an opening marker to the next closing one.  The first
block is searched for, and the search goes on after it.  A marker begins with a letter that no
marker has again, so the occurrences of markers in a text never overlap.
-/

set_option autoImplicit false

namespace MarkedBlocks

variable {α : Type}

/-! ## Where a marker may stand -/

theorem prefix_append_letter_iff {letter : α} {tail front back : List α} (fresh : letter ∉ tail) :
    tail <+: front ++ letter :: back ↔ tail <+: front := by
  constructor
  · intro starts
    have ordered := List.prefix_or_prefix_of_prefix starts (List.prefix_append _ _)
    rcases ordered with inFront | ⟨rest, rfl⟩
    · exact inFront
    · cases rest with
      | nil => exact (List.append_nil _).symm ▸ List.prefix_rfl
      | cons char rest =>
          have same := (List.prefix_append_right_inj _).mp starts
          rw [(List.cons_prefix_cons.mp same).1] at fresh
          exact absurd (List.mem_append_right _ List.mem_cons_self) fresh
  · exact fun starts => starts.trans (List.prefix_append _ _)

/-- A marker does not reach over the start of another. -/
theorem infix_append_letter_iff {letter : α} {tail front back : List α} (fresh : letter ∉ tail) :
    letter :: tail <:+: front ++ letter :: back ↔
      letter :: tail <:+: front ∨ letter :: tail <:+: letter :: back := by
  induction front with
  | nil => simp
  | cons char front ih =>
      rw [List.cons_append, List.infix_cons_iff, List.infix_cons_iff, ih, List.cons_prefix_cons,
        List.cons_prefix_cons, prefix_append_letter_iff fresh, or_assoc]

/-- A marker does not begin where its first letter is not. -/
theorem infix_append_of_notMem_iff {letter : α} {tail front back : List α}
    (absent : letter ∉ front) :
    letter :: tail <:+: front ++ back ↔ letter :: tail <:+: back := by
  induction front with
  | nil => rfl
  | cons char front ih =>
      rw [List.mem_cons, not_or] at absent
      rw [List.cons_append, List.infix_cons_iff, ih absent.2, List.cons_prefix_cons]
      exact or_iff_right fun here => absent.1 here.1

/-! ## Markers -/

/-- The letter stands at the start of either marker and nowhere else in it, and neither marker
is how the other begins. -/
structure Markers (α : Type) where
  letter : α
  opening : List α
  closing : List α
  inOpening : letter ∉ opening
  inClosing : letter ∉ closing
  apart : ¬ closing <+: opening ∧ ¬ opening <+: closing

namespace Markers

def start (markers : Markers α) : List α := markers.letter :: markers.opening

def stop (markers : Markers α) : List α := markers.letter :: markers.closing

theorem start_ne_nil (markers : Markers α) : markers.start ≠ [] := List.cons_ne_nil _ _

theorem stop_ne_nil (markers : Markers α) : markers.stop ≠ [] := List.cons_ne_nil _ _

theorem stop_infix_start_append_iff (markers : Markers α) {rest : List α} :
    markers.stop <:+: markers.start ++ rest ↔ markers.stop <:+: rest := by
  unfold start stop
  rw [List.cons_append, List.infix_cons_iff, List.cons_prefix_cons,
    infix_append_of_notMem_iff markers.inOpening]
  refine or_iff_right fun here => ?_
  rcases List.prefix_or_prefix_of_prefix here.2 (List.prefix_append _ _) with inIt | inIt
  · exact markers.apart.1 inIt
  · exact markers.apart.2 inIt

end Markers

/-- The first block of a content, with what is before it, in it and after it. -/
structure FirstBlock (markers : Markers α) (content before inner after : List α) : Prop where
  whole : content = before ++ (markers.start ++ inner ++ markers.stop) ++ after
  notBefore : ¬ markers.start <:+: before
  notInner : ¬ markers.stop <:+: inner

theorem FirstBlock.take_before {markers : Markers α} {content before inner after : List α}
    (block : FirstBlock markers content before inner after) :
    content.take before.length = before := by
  rw [block.whole, List.append_assoc, List.take_left]

theorem FirstBlock.drop_block {markers : Markers α} {content before inner after : List α}
    (block : FirstBlock markers content before inner after) :
    content.drop (before.length + (markers.start ++ inner ++ markers.stop).length) = after := by
  rw [block.whole, ← List.length_append, List.drop_left]

theorem FirstBlock.take_block {markers : Markers α} {content before inner after : List α}
    (block : FirstBlock markers content before inner after) :
    (content.take (before.length + (markers.start ++ inner ++ markers.stop).length)).drop
      before.length = markers.start ++ inner ++ markers.stop := by
  rw [block.whole, ← List.length_append, List.take_left, List.drop_left]

variable [DecidableEq α]

/-! ## The first occurrence -/

def find (text part : List α) : Option Nat :=
  (text.dropInfix? part).map fun halves => halves.1.length

theorem find_eq_some_iff {text part : List α} {place : Nat} :
    find text part = some place ↔
      ∃ front back, text = front ++ part ++ back ∧ front.length = place ∧
        ∀ other rest, text = other ++ part ++ rest → place ≤ other.length := by
  unfold find
  simp only [Option.map_eq_some_iff, Prod.exists, List.dropInfix?_eq_some_iff, beq_iff_eq]
  constructor
  · rintro ⟨front, back, ⟨⟨_, whole, rfl⟩, least⟩, rfl⟩
    exact ⟨front, back, whole, rfl, fun other rest same => least other _ rest same rfl⟩
  · rintro ⟨front, back, whole, rfl, least⟩
    refine ⟨front, back, ⟨⟨part, whole, rfl⟩, ?_⟩, rfl⟩
    rintro other _ rest same rfl
    exact least other rest same

theorem exists_find_eq_some {text part : List α} (occurs : part <:+: text) :
    ∃ place, find text part = some place := by
  classical
  have somePlace : ∃ place, ∃ front back, text = front ++ part ++ back ∧ front.length = place := by
    obtain ⟨front, back, whole⟩ := occurs
    exact ⟨_, front, back, whole.symm, rfl⟩
  obtain ⟨front, back, whole, length⟩ := Nat.find_spec somePlace
  refine ⟨_, find_eq_some_iff.mpr ⟨front, back, whole, length, fun other rest same => ?_⟩⟩
  exact Nat.find_min' somePlace ⟨other, rest, same, rfl⟩

theorem find_eq_none_iff {text part : List α} : find text part = none ↔ ¬ part <:+: text := by
  constructor
  · intro absent occurs
    obtain ⟨place, found⟩ := exists_find_eq_some occurs
    rw [absent] at found
    cases found
  · intro absent
    cases found : find text part with
    | none => rfl
    | some place =>
        obtain ⟨front, back, rfl, _⟩ := find_eq_some_iff.mp found
        exact absurd ⟨front, back, rfl⟩ absent

/-- The first occurrence of a marker is the one with none before it. -/
theorem find_marker {letter : α} {tail front : List α} (fresh : letter ∉ tail)
    (free : ¬ letter :: tail <:+: front) (back : List α) :
    find (front ++ letter :: tail ++ back) (letter :: tail) = some front.length := by
  refine find_eq_some_iff.mpr ⟨front, back, rfl, rfl, fun other rest same => ?_⟩
  by_contra shorter
  rw [List.append_assoc, List.append_assoc] at same
  rcases List.append_eq_append_iff.mp same with ⟨middle, rfl, _⟩ | ⟨middle, rfl, after⟩
  · exact shorter (by rw [List.length_append]; exact Nat.le_add_right _ _)
  · have starts : letter :: tail <+: middle ++ letter :: (tail ++ back) := ⟨rest, after⟩
    cases middle with
    | nil => exact shorter (by rw [List.append_nil])
    | cons char middle =>
        have here := List.cons_prefix_cons.mp starts
        have inMiddle := (prefix_append_letter_iff fresh).mp here.2
        refine free ((List.IsPrefix.isInfix ?_).trans (List.suffix_append other _).isInfix)
        exact List.cons_prefix_cons.mpr ⟨here.1, inMiddle⟩

theorem exists_first {text part : List α} (nonempty : part ≠ []) (occurs : part <:+: text) :
    ∃ front back, text = front ++ part ++ back ∧ ¬ part <:+: front := by
  obtain ⟨place, found⟩ := exists_find_eq_some occurs
  obtain ⟨front, back, whole, rfl, least⟩ := find_eq_some_iff.mp found
  refine ⟨front, back, whole, ?_⟩
  rintro ⟨before, after, rfl⟩
  have shorter := least before (after ++ part ++ back) (by rw [whole]; simp)
  have positive := List.length_pos_of_ne_nil nonempty
  rw [List.length_append, List.length_append] at shorter
  omega

/-! ## The first block -/

/-- Where the first block begins and where it ends. -/
def span (markers : Markers α) (content : List α) : Option (Nat × Nat) := do
  let start ← find content markers.start
  let closing ← find (content.drop start) markers.stop
  return (start, closing + start + markers.stop.length)

theorem FirstBlock.span_eq {markers : Markers α} {content before inner after : List α}
    (block : FirstBlock markers content before inner after) :
    span markers content =
      some (before.length, before.length + (markers.start ++ inner ++ markers.stop).length) := by
  obtain ⟨rfl, notBefore, notInner⟩ := block
  have opens : find (before ++ (markers.start ++ inner ++ markers.stop) ++ after) markers.start =
      some before.length := by
    have first := find_marker markers.inOpening notBefore (inner ++ markers.stop ++ after)
    rwa [show before ++ markers.letter :: markers.opening ++ (inner ++ markers.stop ++ after) =
      before ++ (markers.start ++ inner ++ markers.stop) ++ after by simp [Markers.start]] at first
  have rest : (before ++ (markers.start ++ inner ++ markers.stop) ++ after).drop before.length =
      markers.start ++ inner ++ markers.stop ++ after := by
    rw [List.append_assoc, List.drop_left]
  have closes : find (markers.start ++ inner ++ markers.stop ++ after) markers.stop =
      some (markers.start ++ inner).length :=
    find_marker markers.inClosing (markers.stop_infix_start_append_iff.not.mpr notInner) after
  unfold span
  rw [opens, Option.bind_eq_bind, Option.bind_some, rest, closes]
  simp only [List.length_append, Option.bind_some, Option.pure_def, Option.some.injEq,
    Prod.mk.injEq, true_and]
  omega

/-- Either a content has a first block, or no closing marker comes after an opening one. -/
theorem span_cases (markers : Markers α) (content : List α) :
    span markers content = none ∨
      ∃ before inner after, FirstBlock markers content before inner after := by
  by_cases opens : markers.start <:+: content
  · obtain ⟨before, rest, rfl, notBefore⟩ := exists_first markers.start_ne_nil opens
    by_cases closes : markers.stop <:+: rest
    · obtain ⟨inner, after, rfl, notInner⟩ := exists_first markers.stop_ne_nil closes
      exact Or.inr ⟨before, inner, after, by simp, notBefore, notInner⟩
    · left
      have first : find (before ++ markers.start ++ rest) markers.start = some before.length :=
        find_marker markers.inOpening notBefore rest
      have absent : find (markers.start ++ rest) markers.stop = none :=
        find_eq_none_iff.mpr (markers.stop_infix_start_append_iff.not.mpr closes)
      unfold span
      rw [first, Option.bind_eq_bind, Option.bind_some, List.append_assoc, List.drop_left, absent]
      rfl
  · left
    unfold span
    rw [find_eq_none_iff.mpr opens]
    rfl

theorem span_eq_none_of_free {markers : Markers α} {content : List α}
    (free : ¬ markers.start <:+: content) : span markers content = none := by
  unfold span
  rw [find_eq_none_iff.mpr free]
  rfl

theorem span_bounds {markers : Markers α} {content : List α} {place : Nat × Nat}
    (found : span markers content = some place) : 0 < place.2 ∧ 0 < content.length := by
  rcases span_cases markers content with absent | ⟨before, inner, after, block⟩
  · rw [absent] at found
    cases found
  · have length := congrArg List.length block.whole
    rw [block.span_eq] at found
    cases found
    simp only [List.length_append, Markers.start, List.length_cons] at length ⊢
    omega

/-! ## The text outside blocks -/

/-- The text before the first block, and the texts after each. -/
def pieces (markers : Markers α) (content : List α) : List α × List (List α) :=
  match _ : span markers content with
  | none => (content, [])
  | some (start, stop) =>
      let rest := pieces markers (content.drop stop)
      (content.take start, rest.1 :: rest.2)
termination_by content.length
decreasing_by
  rename_i found
  have bounds := span_bounds found
  rw [List.length_drop]
  omega

def outside (markers : Markers α) (content : List α) : List α :=
  (pieces markers content).1 ++ (pieces markers content).2.flatten

theorem pieces_of_none {markers : Markers α} {content : List α}
    (absent : span markers content = none) : pieces markers content = (content, []) := by
  rw [pieces]
  split
  · rfl
  · rename_i found
    rw [absent] at found
    cases found

theorem FirstBlock.pieces_eq {markers : Markers α} {content before inner after : List α}
    (block : FirstBlock markers content before inner after) :
    pieces markers content =
      (before, (pieces markers after).1 :: (pieces markers after).2) := by
  rw [pieces]
  split
  · rename_i found
    rw [block.span_eq] at found
    cases found
  · rename_i found
    rw [block.span_eq] at found
    cases found
    rw [block.take_before, block.drop_block]

/-- What is put before a content, without making an opening marker, joins its first piece. -/
theorem pieces_append {markers : Markers α} {front content : List α}
    (free : ¬ markers.start <:+: front ++ (pieces markers content).1) :
    pieces markers (front ++ content) =
      (front ++ (pieces markers content).1, (pieces markers content).2) := by
  rcases span_cases markers content with absent | ⟨before, inner, after, block⟩
  · rw [pieces_of_none absent] at free ⊢
    exact pieces_of_none (span_eq_none_of_free free)
  · have whole : front ++ content =
        front ++ before ++ (markers.start ++ inner ++ markers.stop) ++ after := by
      rw [block.whole, List.append_assoc before, List.append_assoc front, List.append_assoc front,
        List.append_assoc before]
    rw [block.pieces_eq] at free ⊢
    exact FirstBlock.pieces_eq ⟨whole, free, block.notInner⟩

/-- A letter that begins no marker joins the first piece. -/
theorem pieces_cons {markers : Markers α} {char : α} (other : char ≠ markers.letter)
    (content : List α) :
    pieces markers (char :: content) =
      (char :: (pieces markers content).1, (pieces markers content).2) := by
  have shifted (text : List α) : markers.start <:+: char :: text ↔ markers.start <:+: text :=
    @infix_append_of_notMem_iff α markers.letter markers.opening [char] text
      (by simpa using other.symm)
  rcases span_cases markers content with absent | ⟨before, inner, after, block⟩
  · have later : span markers (char :: content) = none := by
      rcases span_cases markers (char :: content) with absent | ⟨before, inner, after, block⟩
      · exact absent
      · obtain ⟨whole, notBefore, notInner⟩ := block
        cases before with
        | nil => exact absurd (List.cons.inj whole).1 other
        | cons first before =>
            have same := (List.cons.inj whole).1
            subst same
            have here : FirstBlock markers content before inner after :=
              ⟨(List.cons.inj whole).2, (shifted before).not.mp notBefore, notInner⟩
            rw [here.span_eq] at absent
            cases absent
    rw [pieces_of_none absent, pieces_of_none later]
  · have here : FirstBlock markers (char :: content) (char :: before) inner after :=
      ⟨congrArg (char :: ·) block.whole, (shifted before).not.mpr block.notBefore, block.notInner⟩
    rw [block.pieces_eq, here.pieces_eq]

theorem pieces_prefix (markers : Markers α) (content : List α) :
    (pieces markers content).1 <+: content := by
  rcases span_cases markers content with absent | ⟨before, inner, after, block⟩
  · rw [pieces_of_none absent]
  · rw [block.pieces_eq, block.whole, List.append_assoc]
    exact List.prefix_append _ _

theorem outside_block {markers : Markers α} {content before inner after : List α}
    (block : FirstBlock markers content before inner after) :
    outside markers content = before ++ outside markers after := by
  unfold outside
  rw [block.pieces_eq, List.flatten_cons]

end MarkedBlocks
