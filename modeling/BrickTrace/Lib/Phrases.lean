import Mathlib.Data.List.Infix

/-!
# Phrases in an expression

An expression of a full-text search asks for several phrases at once.  Each stands between
quotation marks, with those in it doubled; what is read ends at a NUL.
-/

set_option autoImplicit false

namespace Phrases

def mark : Char := '\x22'
def nul : Char := '\x00'

def doubled (phrase : List Char) : List Char :=
  phrase.flatMap fun char => if char = mark then [mark, mark] else [char]

def quoted (phrase : List Char) : List Char := mark :: (doubled phrase ++ [mark])

def conjunction : List (List Char) → List Char
  | [] => []
  | [phrase] => quoted phrase
  | phrase :: rest => quoted phrase ++ [' ', 'A', 'N', 'D', ' '] ++ conjunction rest

/-- Where the reader is: before a phrase, in one, or after a mark in it. -/
inductive Place where
  | start
  | inside (phrase : List Char)
  | closing (phrase : List Char)

/-- The phrases of an expression that joins them with `AND`. -/
def read : Place → List Char → Option (List (List Char))
  | .start, [] => none
  | .start, char :: rest => if char = mark then read (.inside []) rest else none
  | .inside _, [] => none
  | .inside phrase, char :: rest =>
      if char = mark then read (.closing phrase) rest else read (.inside (phrase ++ [char])) rest
  | .closing phrase, [] => some [phrase]
  | .closing phrase, ' ' :: 'A' :: 'N' :: 'D' :: ' ' :: rest => (read .start rest).map (phrase :: ·)
  | .closing phrase, char :: rest =>
      if char = mark then read (.inside (phrase ++ [mark])) rest else none

def readExpression (text : List Char) : Option (List (List Char)) :=
  read .start (text.takeWhile (· ≠ nul))

/-! ## Reading what was written -/

theorem read_doubled (before phrase rest : List Char) :
    read (.inside before) (doubled phrase ++ rest) = read (.inside (before ++ phrase)) rest := by
  induction phrase generalizing before with
  | nil => rw [doubled, List.flatMap_nil, List.nil_append, List.append_nil]
  | cons char phrase ih =>
      have split : doubled (char :: phrase) =
          (if char = mark then [mark, mark] else [char]) ++ doubled phrase := List.flatMap_cons
      rw [split, List.append_assoc]
      by_cases isMark : char = mark
      · rw [if_pos isMark, isMark]
        have twice : read (.inside before) ([mark, mark] ++ (doubled phrase ++ rest)) =
            read (.inside (before ++ [mark])) (doubled phrase ++ rest) := rfl
        rw [twice, ih, List.append_assoc]
        rfl
      · rw [if_neg isMark, List.singleton_append, read, if_neg isMark, ih, List.append_assoc]
        rfl

theorem read_quoted (phrase rest : List Char) :
    read .start (quoted phrase ++ rest) = read (.closing phrase) rest := by
  unfold quoted
  rw [List.cons_append, read, if_pos rfl, List.append_assoc, read_doubled, List.nil_append,
    List.singleton_append, read, if_pos rfl]

/-! ## Up to a NUL -/

theorem takeWhile_append_of_notMem {chars : List Char} (free : nul ∉ chars) (rest : List Char) :
    (chars ++ rest).takeWhile (· ≠ nul) = chars ++ rest.takeWhile (· ≠ nul) := by
  apply List.takeWhile_append_of_pos
  intro char member
  rw [decide_eq_true_eq]
  rintro rfl
  exact free member

theorem nul_mem_doubled {phrase : List Char} : nul ∈ doubled phrase ↔ nul ∈ phrase := by
  unfold doubled
  rw [List.mem_flatMap]
  constructor
  · rintro ⟨char, member, here⟩
    split at here
    · exact absurd here (by decide)
    · rw [List.mem_singleton.mp here]
      exact member
  · exact fun member => ⟨nul, member, by rw [if_neg (by decide)]; exact List.mem_cons_self⟩

theorem nul_mem_quoted {phrase : List Char} : nul ∈ quoted phrase ↔ nul ∈ phrase := by
  unfold quoted
  rw [List.mem_cons, List.mem_append, nul_mem_doubled, List.mem_singleton]
  have notMark : nul ≠ mark := by decide
  simp only [notMark, false_or, or_false]

/-- A phrase that is cut at a NUL has no end. -/
theorem read_cut {phrase : List Char} (hasNul : nul ∈ phrase) (rest : List Char) :
    read .start ((quoted phrase ++ rest).takeWhile (· ≠ nul)) = none := by
  obtain ⟨front, back, rfl, free⟩ := List.eq_append_cons_of_mem hasNul
  have start : quoted (front ++ nul :: back) ++ rest =
      mark :: doubled front ++ nul :: (doubled back ++ [mark] ++ rest) := by
    unfold quoted doubled
    rw [List.flatMap_append, List.flatMap_cons, if_neg (by decide)]
    simp
  have plain : nul ∉ mark :: doubled front := by
    rw [List.mem_cons, not_or]
    exact ⟨by decide, nul_mem_doubled.not.mpr free⟩
  rw [start, takeWhile_append_of_notMem plain, List.takeWhile_cons_of_neg (by simp),
    List.append_nil, read, if_pos rfl, ← List.append_nil (doubled front), read_doubled]
  rfl

theorem conjunction_cons (phrase : List Char) (rest : List (List Char)) :
    ∃ after, conjunction (phrase :: rest) = quoted phrase ++ after ∧
      (rest = [] ∧ after = [] ∨
        rest ≠ [] ∧ after = ' ' :: 'A' :: 'N' :: 'D' :: ' ' :: conjunction rest) := by
  cases rest with
  | nil => exact ⟨[], (List.append_nil _).symm, Or.inl ⟨rfl, rfl⟩⟩
  | cons next more =>
      refine ⟨_, ?_, Or.inr ⟨List.cons_ne_nil _ _, rfl⟩⟩
      rw [conjunction, List.append_assoc]
      · rfl
      · exact List.cons_ne_nil _ _

/-- An expression is read as its phrases, unless one of them has a NUL. -/
theorem readExpression_conjunction {phrases : List (List Char)} (nonempty : phrases ≠ []) :
    readExpression (conjunction phrases) =
      if ∃ phrase ∈ phrases, nul ∈ phrase then none else some phrases := by
  unfold readExpression
  induction phrases with
  | nil => exact absurd rfl nonempty
  | cons phrase rest ih =>
      obtain ⟨after, whole, last⟩ := conjunction_cons phrase rest
      rw [whole]
      by_cases hasNul : nul ∈ phrase
      · rw [read_cut hasNul, if_pos ⟨phrase, List.mem_cons_self, hasNul⟩]
      · rw [takeWhile_append_of_notMem (nul_mem_quoted.not.mpr hasNul), read_quoted]
        rcases last with ⟨rfl, rfl⟩ | ⟨more, rfl⟩
        · rw [if_neg (by simpa using hasNul)]
          rfl
        · have cut : (' ' :: 'A' :: 'N' :: 'D' :: ' ' :: conjunction rest).takeWhile (· ≠ nul) =
              ' ' :: 'A' :: 'N' :: 'D' :: ' ' :: (conjunction rest).takeWhile (· ≠ nul) := by
            have free : nul ∉ [' ', 'A', 'N', 'D', ' '] := by decide
            exact takeWhile_append_of_notMem free (conjunction rest)
          rw [cut]
          change (read .start ((conjunction rest).takeWhile (· ≠ nul))).map (phrase :: ·) = _
          rw [ih more]
          by_cases later : ∃ other ∈ rest, nul ∈ other
          · obtain ⟨other, member, inOther⟩ := later
            rw [if_pos ⟨other, member, inOther⟩,
              if_pos ⟨other, List.mem_cons_of_mem _ member, inOther⟩]
            rfl
          · rw [if_neg later, if_neg]
            · rfl
            · rintro ⟨other, member, inOther⟩
              rcases List.mem_cons.mp member with rfl | inRest
              · exact hasNul inOther
              · exact later ⟨other, inRest, inOther⟩

/-! ## Texts joined by blanks -/

def joined (mark : Char) : List (List Char) → List Char
  | [] => []
  | [part] => part
  | part :: rest => part ++ mark :: joined mark rest

/-- What has no mark stands on one side of it. -/
theorem infix_mark_iff {mark : Char} {part front back : List Char} (free : mark ∉ part) :
    part <:+: front ++ mark :: back ↔ part <:+: front ∨ part <:+: back := by
  constructor
  · rintro ⟨before, after, whole⟩
    -- the first list begins with a mark, so the part is empty
    have atMark : ∀ rest, mark :: rest = part ++ after → part = [] := by
      intro rest same
      cases part with
      | nil => rfl
      | cons char part =>
          rw [(List.cons.inj same).1] at free
          exact absurd List.mem_cons_self free
    rw [List.append_assoc] at whole
    rcases List.append_eq_append_iff.mp whole with ⟨middle, rfl, rest⟩ | ⟨middle, rfl, rest⟩
    · rcases List.append_eq_append_iff.mp rest with ⟨more, rfl, _⟩ | ⟨more, rfl, tail⟩
      · exact Or.inl ⟨before, more, List.append_assoc _ _ _⟩
      · cases more with
        | nil =>
            rw [List.append_nil]
            exact Or.inl (List.suffix_append _ _).isInfix
        | cons char more =>
            rw [(List.cons.inj tail).1] at free
            exact absurd (List.mem_append_right _ List.mem_cons_self) free
    · cases middle with
      | nil =>
          rw [atMark back rest]
          exact Or.inl (List.nil_infix)
      | cons char middle =>
          exact Or.inr ⟨middle, after, (List.append_assoc _ _ _).trans (List.cons.inj rest).2.symm⟩
  · rintro (inFront | inBack)
    · exact inFront.trans (List.prefix_append _ _).isInfix
    · exact inBack.trans ((List.suffix_cons _ _).trans (List.suffix_append _ _)).isInfix

/-- What has no mark, and is not empty, stands in one of the parts. -/
theorem infix_joined_iff {mark : Char} {part : List Char} (free : mark ∉ part) (nonempty : part ≠ [])
    (parts : List (List Char)) : part <:+: joined mark parts ↔ ∃ text ∈ parts, part <:+: text := by
  induction parts with
  | nil => simp [joined, nonempty]
  | cons first rest ih =>
      rw [List.exists_mem_cons_iff]
      cases rest with
      | nil => simp [joined]
      | cons next more =>
          have split : joined mark (first :: next :: more) =
              first ++ mark :: joined mark (next :: more) := rfl
          rw [split, infix_mark_iff free, ih]

end Phrases
