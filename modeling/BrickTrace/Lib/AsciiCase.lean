import BrickTrace.Lib.CaseFolding

/-!
# Lower case of the ASCII letters

Two characters outside ASCII have a lower case that starts with an ASCII letter: the Kelvin sign,
which becomes a k, and the capital I with a dot, which becomes an i and a combining dot.  A word of
other ASCII letters that stands at the start of a text in lower case is therefore the lower case
of as many ASCII characters at the start of the text.
-/

set_option autoImplicit false

namespace CaseFolding

def combiningDot : Char := '\u0307'

/-- The tables of lower case with what they say of the ASCII letters. -/
structure AsciiTables extends CaseTables where
  lower_ascii : ∀ char : Char, char.toNat < 128 → lower char = [char.toLower]
  ascii_of_lower : ∀ char small rest, lower char = small :: rest → small.toNat < 128 →
    char.toNat < 128 ∨ lower char = ['k'] ∨ lower char = ['i', combiningDot]

theorem toNat_toLower (char : Char) :
    char.toLower = char ∨
      (65 ≤ char.toNat ∧ char.toNat ≤ 90 ∧ char.toLower.toNat = char.toNat + 32) := by
  unfold Char.toLower
  split
  · rename_i upper
    have bounds : 65 ≤ char.toNat ∧ char.toNat ≤ 90 := by
      simpa [UInt32.le_iff_toNat_le] using upper
    refine Or.inr ⟨bounds.1, bounds.2, ?_⟩
    simp only [← Char.toNat_val, UInt32.toNat_add] at bounds ⊢
    change (char.val.toNat + 32) % 4294967296 = char.val.toNat + 32
    omega
  · exact Or.inl rfl

theorem ascii_of_toLower {char : Char} (ascii : char.toLower.toNat < 128) : char.toNat < 128 := by
  rcases toNat_toLower char with same | ⟨_, le, _⟩
  · rwa [same] at ascii
  · omega

theorem toLower_toLower (char : Char) : char.toLower.toLower = char.toLower := by
  rcases toNat_toLower char with same | ⟨from65, to90, moved⟩
  · rw [same, same]
  · rcases toNat_toLower char.toLower with same | ⟨_, le, _⟩
    · exact same
    · omega

section Tables
variable {tables : AsciiTables}

theorem lowerAt_ascii {char : Char} (ascii : char.toNat < 128) (before after : List Char) :
    lowerAt tables.toCaseTables before char after = [char.toLower] := by
  unfold lowerAt
  rw [if_neg, tables.lower_ascii char ascii]
  rintro rfl
  exact absurd ascii (by decide)

/-- What of a word in lower case says of the first character of the text. -/
theorem ascii_of_lowerAt {before : List Char} {char : Char} {after rest : List Char}
    {small : Char} {others : List Char} (plain : ∀ letter ∈ small :: others, letter.toNat < 128)
    (noKelvin : small ≠ 'k') (ends : (small :: others).getLast? ≠ some 'i')
    (starts : small :: others <+: lowerAt tables.toCaseTables before char after ++ rest) :
    char.toNat < 128 := by
  obtain ⟨asciiSmall, asciiOthers⟩ := List.forall_mem_cons.mp plain
  rcases @lowerAt_cases tables.toCaseTables before char after with
    ⟨_, isFinal | isSmall⟩ | ⟨_, lowered⟩
  · rw [isFinal] at starts
    rw [(List.cons_prefix_cons.mp starts).1] at asciiSmall
    exact absurd asciiSmall (by decide)
  · rw [isSmall] at starts
    rw [(List.cons_prefix_cons.mp starts).1] at asciiSmall
    exact absurd asciiSmall (by decide)
  · rw [lowered] at starts
    cases forms : tables.lower char with
    | nil => exact absurd forms (tables.lower_ne_nil char)
    | cons first more =>
        rw [forms, List.cons_append, List.cons_prefix_cons] at starts
        obtain ⟨rfl, inRest⟩ := starts
        rcases tables.ascii_of_lower char small more forms asciiSmall with ascii | kelvin | dotted
        · exact ascii
        · rw [forms] at kelvin
          exact absurd (List.cons.inj kelvin).1 noKelvin
        · rw [forms] at dotted
          obtain ⟨rfl, rfl⟩ := List.cons.inj dotted
          cases others with
          | nil => exact absurd rfl ends
          | cons next later =>
              have isDot := (List.cons_prefix_cons.mp inRest).1
              have asciiNext := asciiOthers next List.mem_cons_self
              rw [isDot] at asciiNext
              exact absurd asciiNext (by decide)

/-- A word of ASCII letters starts the text in lower case just when letters that differ from it
in their case start the text. -/
theorem prefix_lowerFrom_iff {word : List Char}
    (plain : ∀ letter ∈ word, letter.toNat < 128 ∧ letter ≠ 'k')
    (ends : word.getLast? ≠ some 'i') (before text : List Char) :
    word <+: lowerFrom tables.toCaseTables before text ↔
      ∃ written rest, text = written ++ rest ∧ written.map Char.toLower = word := by
  induction word generalizing before text with
  | nil =>
      refine iff_of_true (List.nil_prefix) ⟨[], text, rfl, rfl⟩
  | cons small others ih =>
      obtain ⟨here, later⟩ := List.forall_mem_cons.mp plain
      have endsLater : others.getLast? ≠ some 'i' := by
        cases others with
        | nil => exact (nomatch ·)
        | cons next rest => rwa [List.getLast?_cons_cons] at ends
      cases text with
      | nil =>
          refine iff_of_false (fun starts => ?_) ?_
          · cases List.prefix_nil.mp starts
          · rintro ⟨written, rest, same, lowered⟩
            rw [(List.append_eq_nil_iff.mp same.symm).1] at lowered
            cases lowered
      | cons char after =>
          rw [lowerFrom]
          constructor
          · intro starts
            have ascii := ascii_of_lowerAt (fun letter member => (plain letter member).1) here.2
              ends starts
            rw [lowerAt_ascii ascii, List.singleton_append, List.cons_prefix_cons] at starts
            obtain ⟨rfl, inRest⟩ := starts
            obtain ⟨written, rest, rfl, rfl⟩ := (ih later endsLater _ _).mp inRest
            exact ⟨char :: written, rest, rfl, rfl⟩
          · rintro ⟨written, rest, same, lowered⟩
            cases written with
            | nil => cases lowered
            | cons first others =>
                obtain ⟨rfl, rfl⟩ := List.cons.inj same
                obtain ⟨isSmall, isOthers⟩ := List.cons.inj lowered
                have ascii : char.toNat < 128 := ascii_of_toLower (isSmall ▸ here.1)
                rw [lowerAt_ascii ascii, List.singleton_append, List.cons_prefix_cons]
                exact ⟨isSmall.symm, (ih later endsLater _ _).mpr ⟨others, rest, rfl, isOthers⟩⟩

end Tables

/-! ## The letters of these tables alone -/

def kelvinSign : Char := '\u212A'
def dottedCapitalI : Char := '\u0130'

def latinLower (char : Char) : List Char :=
  if char.toNat < 128 then [char.toLower]
  else if char = capitalSigma then [smallSigma]
  else if char = kelvinSign then ['k']
  else if char = dottedCapitalI then ['i', combiningDot]
  else [char]

theorem latinLower_cases (char : Char) :
    (char.toNat < 128 ∧ latinLower char = [char.toLower]) ∨
    (char = capitalSigma ∧ latinLower char = [smallSigma]) ∨
    (char = kelvinSign ∧ latinLower char = ['k']) ∨
    (char = dottedCapitalI ∧ latinLower char = ['i', combiningDot]) ∨
    (128 ≤ char.toNat ∧ char ≠ capitalSigma ∧ latinLower char = [char]) := by
  by_cases ascii : char.toNat < 128
  · exact Or.inl ⟨ascii, if_pos ascii⟩
  · have plain : latinLower char = _ := if_neg ascii
    by_cases isSigma : char = capitalSigma
    · exact Or.inr (Or.inl ⟨isSigma, by rw [plain, if_pos isSigma]⟩)
    · rw [if_neg isSigma] at plain
      by_cases isKelvin : char = kelvinSign
      · exact Or.inr (Or.inr (Or.inl ⟨isKelvin, by rw [plain, if_pos isKelvin]⟩))
      · rw [if_neg isKelvin] at plain
        by_cases isDotted : char = dottedCapitalI
        · exact Or.inr (Or.inr (Or.inr (Or.inl ⟨isDotted, by rw [plain, if_pos isDotted]⟩)))
        · rw [if_neg isDotted] at plain
          exact Or.inr (Or.inr (Or.inr (Or.inr ⟨by omega, isSigma, plain⟩)))

theorem latinLower_stable (char small : Char) (member : small ∈ latinLower char) :
    latinLower small = [small] := by
  rcases latinLower_cases char with ⟨ascii, lowered⟩ | ⟨_, lowered⟩ | ⟨_, lowered⟩ |
    ⟨_, lowered⟩ | ⟨_, _, lowered⟩
  · rw [lowered] at member
    have asciiLower : char.toLower.toNat < 128 := by
      rcases toNat_toLower char with same | ⟨_, _, moved⟩
      · rwa [same]
      · omega
    rw [List.mem_singleton.mp member, latinLower, if_pos asciiLower, toLower_toLower]
  · rw [lowered] at member
    rw [List.mem_singleton.mp member]
    decide
  · rw [lowered] at member
    rw [List.mem_singleton.mp member]
    decide
  · rw [lowered] at member
    rcases List.mem_pair.mp member with rfl | rfl
    · decide
    · decide
  · rw [lowered] at member
    rw [List.mem_singleton.mp member, lowered]

/-- A character that no letter becomes, and that stays itself, stands in its own lower case only. -/
theorem mem_latinLower_iff {wanted : Char} (stays : latinLower wanted = [wanted])
    (others : wanted ≠ smallSigma ∧ wanted ≠ 'k' ∧ wanted ≠ 'i' ∧ wanted ≠ combiningDot)
    (noLetter : ¬ (97 ≤ wanted.toNat ∧ wanted.toNat ≤ 122)) (char : Char) :
    wanted ∈ latinLower char ↔ char = wanted := by
  constructor
  · intro member
    rcases latinLower_cases char with ⟨ascii, lowered⟩ | ⟨_, lowered⟩ | ⟨_, lowered⟩ |
      ⟨_, lowered⟩ | ⟨_, _, lowered⟩
    · rw [lowered, List.mem_singleton] at member
      rcases toNat_toLower char with same | ⟨_, _, moved⟩
      · rw [member, same]
      · rw [← member] at moved
        omega
    · rw [lowered, List.mem_singleton] at member
      exact absurd member others.1
    · rw [lowered, List.mem_singleton] at member
      exact absurd member others.2.1
    · rw [lowered, List.mem_cons, List.mem_singleton] at member
      exact member.elim (absurd · others.2.2.1) (absurd · others.2.2.2)
    · rw [lowered, List.mem_singleton] at member
      exact member.symm
  · rintro rfl
    rw [stays]
    exact List.mem_cons_self

/-- The ASCII letters, the sigmas and the two characters that become ASCII letters. -/
def latinTables : AsciiTables where
  lower := latinLower
  cased char := char.isAlpha || char == capitalSigma || char == smallSigma || char == finalSigma
  caseIgnorable _ := false
  lower_stable := latinLower_stable
  lower_ne_nil char := by
    rcases latinLower_cases char with ⟨_, lowered⟩ | ⟨_, lowered⟩ | ⟨_, lowered⟩ |
      ⟨_, lowered⟩ | ⟨_, _, lowered⟩
    all_goals rw [lowered]; exact List.cons_ne_nil _ _
  lower_capitalSigma := by decide
  finalSigma_mem_lower := mem_latinLower_iff (by decide) (by decide) (by decide)
  blank_mem_lower := mem_latinLower_iff (by decide) (by decide) (by decide)
  blank_apart := by decide
  lower_ascii char ascii := if_pos ascii
  ascii_of_lower char small rest starts ascii := by
    rcases latinLower_cases char with ⟨here, _⟩ | ⟨_, lowered⟩ | ⟨_, lowered⟩ |
      ⟨_, lowered⟩ | ⟨outside, _, lowered⟩
    · exact Or.inl here
    · rw [lowered] at starts
      rw [← (List.cons.inj starts).1] at ascii
      exact absurd ascii (by decide)
    · exact Or.inr (Or.inl lowered)
    · exact Or.inr (Or.inr lowered)
    · rw [lowered] at starts
      rw [← (List.cons.inj starts).1] at ascii
      exact Or.inl ascii

end CaseFolding
