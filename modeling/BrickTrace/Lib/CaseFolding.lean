import Mathlib.Data.List.Infix

/-!
# Lower case and texts that are alike but for case

The lower case of a character is what a table of Unicode says, except for the capital sigma:
it becomes a final sigma at the end of a word.  Texts are alike when they differ in the case of
their characters only; the forms of the small sigma are then one character.
-/

set_option autoImplicit false

namespace CaseFolding

def capitalSigma : Char := 'Σ'
def smallSigma : Char := 'σ'
def finalSigma : Char := 'ς'

/-- The tables of Unicode that lower case needs, with what holds of them. -/
structure CaseTables where
  lower : Char → List Char
  cased : Char → Bool
  caseIgnorable : Char → Bool
  lower_stable : ∀ char, ∀ small ∈ lower char, lower small = [small]
  lower_ne_nil : ∀ char, lower char ≠ []
  lower_capitalSigma : lower capitalSigma = [smallSigma]
  finalSigma_mem_lower : ∀ char, finalSigma ∈ lower char ↔ char = finalSigma
  blank_mem_lower : ∀ char, ' ' ∈ lower char ↔ char = ' '
  blank_apart : cased ' ' = false ∧ caseIgnorable ' ' = false

variable (tables : CaseTables)

/-- Whether a cased character comes first, those aside that do not count. -/
def ignorableThenCased (chars : List Char) : Bool :=
  match chars.dropWhile tables.caseIgnorable with
  | [] => false
  | char :: _ => tables.cased char

/-- One character in lower case, with what stands before it (backwards) and after it. -/
def lowerAt (before : List Char) (char : Char) (after : List Char) : List Char :=
  if char = capitalSigma then
    if ignorableThenCased tables before && !ignorableThenCased tables after then [finalSigma]
    else [smallSigma]
  else tables.lower char

def lowerFrom (before : List Char) : List Char → List Char
  | [] => []
  | char :: after => lowerAt tables before char after ++ lowerFrom (char :: before) after

def toLowercase (text : List Char) : List Char := lowerFrom tables [] text

/-- A character without its case. -/
def foldChar (char : Char) : List Char :=
  if char = finalSigma then [smallSigma] else tables.lower char

def fold (text : List Char) : List Char := text.flatMap (foldChar tables)

/-- The first text stands in the second, but for the case of the characters. -/
def OccursIn (part text : List Char) : Prop := fold tables part <:+: fold tables text

instance (part text : List Char) : Decidable (OccursIn tables part text) :=
  inferInstanceAs (Decidable (_ <:+: _))

section Tables
variable {tables}

/-! ## One character -/

theorem lower_finalSigma : tables.lower finalSigma = [finalSigma] :=
  tables.lower_stable finalSigma finalSigma ((tables.finalSigma_mem_lower finalSigma).mpr rfl)

theorem lower_smallSigma : tables.lower smallSigma = [smallSigma] :=
  tables.lower_stable capitalSigma smallSigma (tables.lower_capitalSigma ▸ List.mem_cons_self)

theorem lower_blank : tables.lower ' ' = [' '] :=
  tables.lower_stable ' ' ' ' ((tables.blank_mem_lower ' ').mpr rfl)

theorem lowerAt_cases (before : List Char) (char : Char) (after : List Char) :
    (char = capitalSigma ∧ (lowerAt tables before char after = [finalSigma] ∨
      lowerAt tables before char after = [smallSigma])) ∨
    (char ≠ capitalSigma ∧ lowerAt tables before char after = tables.lower char) := by
  unfold lowerAt
  by_cases isSigma : char = capitalSigma
  · rw [if_pos isSigma]
    refine Or.inl ⟨isSigma, ?_⟩
    split
    · exact Or.inl rfl
    · exact Or.inr rfl
  · rw [if_neg isSigma]
    exact Or.inr ⟨isSigma, rfl⟩

/-- What lower case writes is in lower case. -/
theorem stable_of_lowerAt {before : List Char} {char : Char} {after : List Char} {small : Char}
    (member : small ∈ lowerAt tables before char after) :
    tables.lower small = [small] ∧ small ≠ capitalSigma := by
  have stable : tables.lower small = [small] := by
    rcases lowerAt_cases before char after with ⟨_, isFinal | isSmall⟩ | ⟨_, plain⟩
    · rw [isFinal] at member
      rw [List.mem_singleton.mp member]
      exact lower_finalSigma
    · rw [isSmall] at member
      rw [List.mem_singleton.mp member]
      exact lower_smallSigma
    · rw [plain] at member
      exact tables.lower_stable char small member
  refine ⟨stable, ?_⟩
  rintro rfl
  rw [tables.lower_capitalSigma] at stable
  exact absurd stable (by decide)

/-- Lower case changes nothing but the case. -/
theorem fold_lowerAt (before : List Char) (char : Char) (after : List Char) :
    fold tables (lowerAt tables before char after) = foldChar tables char := by
  rcases lowerAt_cases before char after with ⟨rfl, isFinal | isSmall⟩ | ⟨_, plain⟩
  · rw [isFinal]
    unfold fold
    rw [List.flatMap_singleton]
    unfold foldChar
    rw [if_pos rfl, if_neg (by decide), tables.lower_capitalSigma]
  · rw [isSmall]
    unfold fold
    rw [List.flatMap_singleton]
    unfold foldChar
    rw [if_neg (by decide), if_neg (by decide), tables.lower_capitalSigma, lower_smallSigma]
  · rw [plain]
    by_cases isFinal : char = finalSigma
    · rw [isFinal, lower_finalSigma]
      exact List.flatMap_singleton _ _
    · have kept : ∀ small ∈ tables.lower char, foldChar tables small = [small] := by
        intro small member
        unfold foldChar
        rw [if_neg, tables.lower_stable char small member]
        rintro rfl
        exact isFinal ((tables.finalSigma_mem_lower char).mp member)
      unfold fold
      rw [List.flatMap_congr kept, List.flatMap_singleton']
      unfold foldChar
      rw [if_neg isFinal]

/-! ## Texts -/

theorem fold_append (front back : List Char) :
    fold tables (front ++ back) = fold tables front ++ fold tables back := List.flatMap_append

theorem fold_toLowercase (text : List Char) : fold tables (toLowercase tables text) = fold tables text := by
  unfold toLowercase
  generalize [] = before
  induction text generalizing before with
  | nil => rfl
  | cons char after ih =>
      rw [lowerFrom, fold_append, fold_lowerAt, ih]
      exact List.flatMap_cons.symm

theorem stable_of_lowerFrom {before text : List Char} :
    ∀ small ∈ lowerFrom tables before text, tables.lower small = [small] ∧ small ≠ capitalSigma := by
  induction text generalizing before with
  | nil => exact fun _ member => absurd member List.not_mem_nil
  | cons char after ih =>
      intro small member
      rcases List.mem_append.mp member with here | later
      · exact stable_of_lowerAt here
      · exact ih small later

/-- A text in lower case is its own lower case. -/
theorem toLowercase_of_stable {text : List Char}
    (stable : ∀ small ∈ text, tables.lower small = [small] ∧ small ≠ capitalSigma) :
    toLowercase tables text = text := by
  unfold toLowercase
  generalize [] = before
  induction text generalizing before with
  | nil => rfl
  | cons char after ih =>
      obtain ⟨⟨isLower, notSigma⟩, others⟩ := List.forall_mem_cons.mp stable
      rw [lowerFrom, ih others]
      unfold lowerAt
      rw [if_neg notSigma, isLower]
      rfl

theorem toLowercase_toLowercase (text : List Char) :
    toLowercase tables (toLowercase tables text) = toLowercase tables text :=
  toLowercase_of_stable stable_of_lowerFrom

/-- What stands in a text after both are in lower case stands in it but for the case. -/
theorem occursIn_of_lowercase {part text : List Char}
    (within : toLowercase tables part <:+: toLowercase tables text) : OccursIn tables part text := by
  obtain ⟨front, back, whole⟩ := within
  refine ⟨fold tables front, fold tables back, ?_⟩
  rw [← fold_toLowercase part, ← fold_append, ← fold_append, whole, fold_toLowercase]

theorem occursIn_toLowercase_iff {part text : List Char} :
    OccursIn tables (toLowercase tables part) text ↔ OccursIn tables part text := by
  unfold OccursIn
  rw [fold_toLowercase]

/-- Without a capital or a final sigma, lower case is what is left without the case. -/
theorem toLowercase_eq_fold {text : List Char} (noCapital : capitalSigma ∉ text)
    (noFinal : finalSigma ∉ text) : toLowercase tables text = fold tables text := by
  unfold toLowercase
  generalize [] = before
  induction text generalizing before with
  | nil => rfl
  | cons char after ih =>
      rw [List.mem_cons, not_or] at noCapital noFinal
      have here : lowerAt tables before char after = foldChar tables char := by
        unfold lowerAt foldChar
        rw [if_neg (Ne.symm noCapital.1), if_neg (Ne.symm noFinal.1)]
      rw [lowerFrom, here, ih noCapital.2 noFinal.2]
      exact List.flatMap_cons.symm

/-! ## Blanks -/

theorem blank_mem_lowerAt {before : List Char} {char : Char} {after : List Char} :
    ' ' ∈ lowerAt tables before char after ↔ char = ' ' := by
  rcases lowerAt_cases before char after with ⟨rfl, isFinal | isSmall⟩ | ⟨_, plain⟩
  · rw [isFinal]
    decide
  · rw [isSmall]
    decide
  · rw [plain]
    exact tables.blank_mem_lower char

theorem blank_mem_toLowercase {text : List Char} : ' ' ∈ toLowercase tables text ↔ ' ' ∈ text := by
  unfold toLowercase
  generalize [] = before
  induction text generalizing before with
  | nil => exact Iff.rfl
  | cons char after ih =>
      rw [lowerFrom, List.mem_append, blank_mem_lowerAt, ih, List.mem_cons, eq_comm]

theorem blank_mem_fold {text : List Char} : ' ' ∈ fold tables text ↔ ' ' ∈ text := by
  unfold fold
  rw [List.mem_flatMap]
  have here : ∀ char, ' ' ∈ foldChar tables char ↔ char = ' ' := by
    intro char
    unfold foldChar
    by_cases isFinal : char = finalSigma
    · rw [if_pos isFinal, isFinal]
      decide
    · rw [if_neg isFinal]
      exact tables.blank_mem_lower char
  simp only [here, exists_eq_right]

/-- A blank ends a word, so what stands on its other side does not count. -/
theorem ignorableThenCased_append_blank (chars rest : List Char) :
    ignorableThenCased tables (chars ++ ' ' :: rest) = ignorableThenCased tables chars := by
  unfold ignorableThenCased
  induction chars with
  | nil =>
      rw [List.nil_append, List.dropWhile_cons_of_neg (by simp [tables.blank_apart.2])]
      exact tables.blank_apart.1
  | cons char chars ih =>
      by_cases ignorable : tables.caseIgnorable char = true
      · rw [List.cons_append, List.dropWhile_cons_of_pos ignorable,
          List.dropWhile_cons_of_pos ignorable]
        exact ih
      · rw [List.cons_append, List.dropWhile_cons_of_neg ignorable,
          List.dropWhile_cons_of_neg ignorable]

theorem lowerFrom_before_blank (before other text : List Char) :
    lowerFrom tables (before ++ ' ' :: other) text = lowerFrom tables before text := by
  induction text generalizing before with
  | nil => rfl
  | cons char after ih =>
      rw [lowerFrom, lowerFrom, ← List.cons_append, ih]
      unfold lowerAt
      rw [ignorableThenCased_append_blank]

/-- The words on both sides of a blank are put in lower case apart from each other. -/
theorem toLowercase_blank (front back : List Char) :
    toLowercase tables (front ++ ' ' :: back) =
      toLowercase tables front ++ ' ' :: toLowercase tables back := by
  unfold toLowercase
  have general : ∀ before, lowerFrom tables before (front ++ ' ' :: back) =
      lowerFrom tables before front ++ ' ' :: lowerFrom tables [] back := by
    induction front with
    | nil =>
        intro before
        rw [List.nil_append, lowerFrom, lowerFrom]
        have blank : lowerAt tables before ' ' back = [' '] := by
          unfold lowerAt
          rw [if_neg (by decide), lower_blank]
        rw [blank, ← List.nil_append (' ' :: before), lowerFrom_before_blank]
        rfl
    | cons char front ih =>
        intro before
        rw [List.cons_append, lowerFrom, lowerFrom, ih, List.append_assoc]
        congr 1
        unfold lowerAt
        rw [ignorableThenCased_append_blank]
  exact general []

theorem fold_blank (front back : List Char) :
    fold tables (front ++ ' ' :: back) = fold tables front ++ ' ' :: fold tables back := by
  have blank : foldChar tables ' ' = [' '] := by
    unfold foldChar
    rw [if_neg (by decide), lower_blank]
  rw [fold_append]
  unfold fold
  rw [List.flatMap_cons, blank]
  rfl

/-! ## Empty texts -/

theorem lowerAt_ne_nil (before : List Char) (char : Char) (after : List Char) :
    lowerAt tables before char after ≠ [] := by
  rcases lowerAt_cases before char after with ⟨_, isFinal | isSmall⟩ | ⟨_, plain⟩
  · rw [isFinal]
    exact List.cons_ne_nil _ _
  · rw [isSmall]
    exact List.cons_ne_nil _ _
  · rw [plain]
    exact tables.lower_ne_nil char

theorem toLowercase_eq_nil {text : List Char} : toLowercase tables text = [] ↔ text = [] := by
  cases text with
  | nil => exact iff_of_true rfl rfl
  | cons char after =>
      refine iff_of_false ?_ (List.cons_ne_nil _ _)
      exact fun none => lowerAt_ne_nil [] char after (List.append_eq_nil_iff.mp none).1

theorem fold_eq_nil {text : List Char} : fold tables text = [] ↔ text = [] := by
  cases text with
  | nil => exact iff_of_true rfl rfl
  | cons char after =>
      refine iff_of_false ?_ (List.cons_ne_nil _ _)
      intro none
      have here := (List.flatMap_eq_nil_iff.mp none) char List.mem_cons_self
      unfold foldChar at here
      split at here
      · cases here
      · exact tables.lower_ne_nil char here

end Tables

end CaseFolding
