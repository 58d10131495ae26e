import Mathlib.Data.List.Basic
import Mathlib.Algebra.Order.BigOperators.Group.List
import Mathlib.Algebra.GroupWithZero.Nat

/-!
# The words of a shell command

A POSIX shell takes a command apart into words.  Here a text is read as one simple
command whose words are literal: a text with an operator, an expansion, a substitution,
a pattern, a comment or an open quotation is not read.  Between double quotes a dollar
sign that starts no expansion stands for itself, as it does in every shell.
-/

set_option autoImplicit false

namespace ShellWords

def blank : List Char := [' ', '\t']
def singleQuote : Char := '\x27'
def doubleQuote : Char := '\x22'
def backslash : Char := '\x5c'
def backquote : Char := '\x60'
def nul : Char := '\x00'

/-- The characters that have a meaning when they are not quoted, besides blanks, quotation
marks and the backslash. -/
def unquotedSpecial : List Char :=
  ['|', '&', ';', '<', '>', '(', ')', '$', backquote, '\n', '*', '?', '[', '#', '~', '=', '%', '!',
    '\x7b', '\x7d', nul]

/-- The characters that a backslash quotes between double quotes. -/
def escapable : List Char := ['$', backquote, doubleQuote, backslash, '\n']

/-- Whether a dollar sign before the character is an expansion. -/
def startsExpansion (next : Char) : Bool :=
  next.isAlphanum || next ∈ ['_', '\x7b', '(', '@', '*', '#', '?', '-', '$', '!']

/-- Where in a command a character stands; `escaped` and `doubleEscaped` come after a
backslash. -/
inductive Quoting where
  | unquoted
  | escaped
  | single
  | double
  | doubleEscaped

/-- The words of a text, from inside a word or between two. -/
def words : Quoting → Option (List Char) → List Char → Option (List (List Char))
  | .unquoted, word, [] => some word.toList
  | _, _, [] => none
  | .unquoted, word, char :: rest =>
      if char ∈ blank then (words .unquoted none rest).map (word.toList ++ ·)
      else if char = doubleQuote then words .double (some (word.getD [])) rest
      else if char = singleQuote then words .single (some (word.getD [])) rest
      else if char = backslash then words .escaped word rest
      else if char ∈ unquotedSpecial then none
      else words .unquoted (some (word.getD [] ++ [char])) rest
  | .escaped, word, char :: rest =>
      if char = '\n' then words .unquoted word rest
      else if char = nul then none
      else words .unquoted (some (word.getD [] ++ [char])) rest
  | .single, word, char :: rest =>
      if char = singleQuote then words .unquoted word rest
      else if char = nul then none
      else words .single (some (word.getD [] ++ [char])) rest
  | .double, word, char :: rest =>
      if char = doubleQuote then words .unquoted word rest
      else if char = backslash then words .doubleEscaped word rest
      else if char = backquote ∨ char = nul then none
      else if char = '$' ∧ rest.head?.any startsExpansion then none
      else words .double (some (word.getD [] ++ [char])) rest
  | .doubleEscaped, word, char :: rest =>
      if char = '\n' then words .double word rest
      else if char = nul then none
      else if char ∈ escapable then words .double (some (word.getD [] ++ [char])) rest
      else words .double (some (word.getD [] ++ [backslash, char])) rest

/-! ## Texts without a meaning of their own -/

/-- Whether a character stands for itself between double quotes, before another one. -/
def literalBefore (char : Char) (next : Option Char) : Bool :=
  char != doubleQuote && (char != backquote && (char != nul &&
    ((char != backslash || !next.any (· ∈ escapable)) && (char != '$' || !next.any startsExpansion))))

/-- Whether a text stands for itself between double quotes, with what comes after it. -/
def staysLiteral (after : Option Char) : List Char → Bool
  | [] => true
  | char :: rest => literalBefore char (rest.head?.or after) && staysLiteral after rest

theorem staysLiteral_append (after : Option Char) (first second : List Char) :
    staysLiteral after (first ++ second) =
      (staysLiteral (second.head?.or after) first && staysLiteral after second) := by
  induction first with
  | nil => rfl
  | cons char rest ih =>
      have head : (rest ++ second).head?.or after = rest.head?.or (second.head?.or after) := by
        cases rest with
        | nil => rfl
        | cons next later => rfl
      rw [List.cons_append, staysLiteral, staysLiteral, ih, head, Bool.and_assoc]

/-- A backslash before a character that it does not quote stands for itself. -/
theorem words_backslash {rest : List Char} (word : List Char)
    (unescaped : rest.head?.any (· ∈ escapable) = false) :
    words .double (some word) (backslash :: rest) = words .double (some (word ++ [backslash])) rest := by
  have isBackslash : words .double (some word) (backslash :: rest) =
      words .doubleEscaped (some word) rest := by
    conv_lhs => unfold words
    rw [if_neg (by decide), if_pos rfl]
  rw [isBackslash]
  cases rest with
  | nil => rfl
  | cons next later =>
      simp only [List.head?_cons, Option.any_some, decide_eq_false_iff_not] at unescaped
      have plain : next ≠ '\n' ∧ next ≠ doubleQuote ∧ next ≠ backslash ∧ next ≠ backquote ∧ next ≠ '$' := by
        refine ⟨?_, ?_, ?_, ?_, ?_⟩ <;>
          · rintro rfl
            exact unescaped (by decide)
      obtain ⟨newline, double, back, grave, dollar⟩ := plain
      unfold words
      rw [if_neg newline, if_neg double, if_neg back]
      by_cases isNul : next = nul
      · rw [if_pos isNul, if_pos (Or.inr isNul)]
      · rw [if_neg isNul, if_neg unescaped, if_neg (by simp [grave, isNul]), if_neg (by simp [dollar])]
        simp

/-- A text that stands for itself is taken into the word as it is. -/
theorem words_of_staysLiteral {chars rest : List Char} (word : List Char)
    (literal : staysLiteral rest.head? chars = true) :
    words .double (some word) (chars ++ rest) = words .double (some (word ++ chars)) rest := by
  induction chars generalizing word with
  | nil => rw [List.nil_append, List.append_nil]
  | cons char later ih =>
      rw [staysLiteral, Bool.and_eq_true] at literal
      obtain ⟨here, others⟩ := literal
      have head : later.head?.or rest.head? = (later ++ rest).head? := by
        cases later with
        | nil => rfl
        | cons next others => rfl
      rw [head] at here
      have step : words .double (some word) (char :: (later ++ rest)) =
          words .double (some (word ++ [char])) (later ++ rest) := by
        simp only [literalBefore, Bool.and_eq_true, Bool.or_eq_true, bne_iff_ne, ne_eq,
          Bool.not_eq_true'] at here
        obtain ⟨notDouble, notGrave, notNul, backslashed, dollared⟩ := here
        by_cases isBackslash : char = backslash
        · subst isBackslash
          exact words_backslash word (backslashed.resolve_left (not_not_intro rfl))
        · conv_lhs => unfold words
          rw [if_neg notDouble, if_neg isBackslash, if_neg (by simp [notGrave, notNul]), if_neg ?_]
          · rfl
          · rintro ⟨isDollar, expands⟩
            rw [dollared.resolve_left (not_not_intro isDollar)] at expands
            cases expands
      rw [List.cons_append, step, ih _ others, List.append_assoc, List.singleton_append]

/-! ## Texts that do not stand for themselves

Quotation marks and quoting backslashes are taken from a command and put into none of its words. -/

def size (read : List (List Char)) : Nat := (read.map List.length).sum

/-- What is left of the characters before, when the one that follows is read. -/
def pending : Quoting → Nat
  | .escaped => 1
  | .doubleEscaped => 1
  | _ => 0

theorem size_toList (word : Option (List Char)) : size word.toList = (word.getD []).length := by
  cases word with
  | none => rfl
  | some chars => simp [size]

/-- A command that ends in a double quotation mark has fewer characters in its words. -/
theorem size_lt {quoting : Quoting} {word : Option (List Char)} {input : List Char}
    {read : List (List Char)} (ends : input.getLast? = some doubleQuote)
    (isRead : words quoting word input = some read) :
    size read < (word.getD []).length + pending quoting + input.length := by
  induction input generalizing quoting word read with
  | nil => cases ends
  | cons char rest ih =>
      cases rest with
      | nil =>
          cases ends
          cases quoting with
          | unquoted => cases isRead
          | escaped =>
              cases isRead
              simp [size, pending]
          | single => cases isRead
          | double =>
              cases isRead
              rw [size_toList]
              simp [pending]
          | doubleEscaped => cases isRead
      | cons next later =>
          rw [List.getLast?_cons_cons] at ends
          generalize next :: later = input at isRead ends ih ⊢
          -- A step takes one character and adds at most one to the word or to what is pending.
          have steps : ∀ after grown, words after grown input = some read →
              (grown.getD []).length + pending after ≤ (word.getD []).length + pending quoting + 1 →
              size read < (word.getD []).length + pending quoting + (char :: input).length := by
            intro after grown isRead within
            have fewer := ih ends isRead
            rw [List.length_cons]
            omega
          cases quoting with
          | unquoted =>
              unfold words at isRead
              split at isRead
              · obtain ⟨others, isOthers, rfl⟩ := Option.map_eq_some_iff.mp isRead
                have fewer := ih ends isOthers
                have total : size (word.toList ++ others) = (word.getD []).length + size others := by
                  rw [← size_toList]
                  simp [size]
                simp only [Option.getD_none, List.length_nil, pending, List.length_cons] at fewer ⊢
                omega
              · split at isRead
                · exact steps _ _ isRead (by simp [pending])
                · split at isRead
                  · exact steps _ _ isRead (by simp [pending])
                  · split at isRead
                    · exact steps _ _ isRead (by simp [pending])
                    · split at isRead
                      · cases isRead
                      · exact steps _ _ isRead (by simp [pending])
          | escaped =>
              unfold words at isRead
              split at isRead
              · exact steps _ _ isRead (by simp only [pending]; omega)
              · split at isRead
                · cases isRead
                · exact steps _ _ isRead (by simp [pending])
          | single =>
              unfold words at isRead
              split at isRead
              · exact steps _ _ isRead (by simp [pending])
              · split at isRead
                · cases isRead
                · exact steps _ _ isRead (by simp [pending])
          | double =>
              unfold words at isRead
              split at isRead
              · exact steps _ _ isRead (by simp [pending])
              · split at isRead
                · exact steps _ _ isRead (by simp [pending])
                · split at isRead
                  · cases isRead
                  · split at isRead
                    · cases isRead
                    · exact steps _ _ isRead (by simp [pending])
          | doubleEscaped =>
              unfold words at isRead
              split at isRead
              · exact steps _ _ isRead (by simp only [pending]; omega)
              · split at isRead
                · cases isRead
                · split at isRead
                  · exact steps _ _ isRead (by simp [pending])
                  · exact steps _ _ isRead (by simp [pending])

/-- A backslash that quotes a character is missing from what is read. -/
theorem size_lt_of_escape {word chars : List Char} {read : List (List Char)}
    (escapes : (chars ++ [doubleQuote]).head?.any (· ∈ escapable) = true)
    (isRead : words .doubleEscaped (some word) (chars ++ [doubleQuote]) = some read) :
    size read < word.length + chars.length + 1 := by
  have ends : (chars ++ [doubleQuote]).getLast? = some doubleQuote := List.getLast?_concat
  have length : (chars ++ [doubleQuote]).length = chars.length + 1 := List.length_append
  generalize chars ++ [doubleQuote] = input at escapes isRead ends length
  cases input with
  | nil => cases ends
  | cons next later =>
      cases later with
      | nil =>
          cases ends
          cases isRead
      | cons other others =>
          rw [List.getLast?_cons_cons] at ends
          rw [List.length_cons] at length
          generalize other :: others = later at isRead ends length
          unfold words at isRead
          split at isRead
          · have fewer := size_lt ends isRead
            simp only [Option.getD_some, pending] at fewer
            omega
          · split at isRead
            · cases isRead
            · rw [if_pos (by simpa using escapes)] at isRead
              have fewer := size_lt ends isRead
              simp only [Option.getD_some, List.length_append, List.length_singleton, pending] at fewer
              omega

/-- A quoted text that does not stand for itself is not read as it is. -/
theorem staysLiteral_of_words {chars word : List Char} {read : List (List Char)}
    (isRead : words .double (some word) (chars ++ [doubleQuote]) = some read)
    (whole : word.length + chars.length ≤ size read) :
    staysLiteral (some doubleQuote) chars = true := by
  induction chars generalizing word with
  | nil => rfl
  | cons char rest ih =>
      rw [List.length_cons] at whole
      have head : rest.head?.or (some doubleQuote) = (rest ++ [doubleQuote]).head? := by
        cases rest with
        | nil => rfl
        | cons next later => rfl
      have wholeAfter : (word ++ [char]).length + rest.length ≤ size read := by
        rw [List.length_append, List.length_singleton]
        omega
      rw [staysLiteral, head, Bool.and_eq_true]
      by_cases isBackslash : char = backslash
      · subst isBackslash
        cases escapes : (rest ++ [doubleQuote]).head?.any (· ∈ escapable) with
        | true =>
            have fewer : size read < word.length + rest.length + 1 := by
              apply size_lt_of_escape escapes
              rw [← isRead]
              conv_rhs => rw [List.cons_append]; unfold words
              rw [if_neg (by decide), if_pos rfl]
            omega
        | false =>
            rw [List.cons_append, words_backslash word escapes] at isRead
            refine ⟨?_, ih isRead wholeAfter⟩
            unfold literalBefore
            rw [escapes]
            generalize Option.any startsExpansion _ = expands
            cases expands with
            | true => decide
            | false => decide
      · rw [List.cons_append] at isRead
        unfold words at isRead
        split at isRead
        · have fewer := size_lt List.getLast?_concat isRead
          simp only [Option.getD_some, pending, List.length_append, List.length_singleton] at fewer
          omega
        · rename_i notDouble
          split at isRead
          · cases isRead
          · rename_i notSpecial
            split at isRead
            · cases isRead
            · rename_i notExpansion
              refine ⟨?_, ih isRead wholeAfter⟩
              obtain ⟨notGrave, notNul⟩ := not_or.mp notSpecial
              simp only [literalBefore, Bool.and_eq_true, Bool.or_eq_true, bne_iff_ne, ne_eq,
                Bool.not_eq_true']
              refine ⟨notDouble, notGrave, notNul, Or.inl isBackslash, ?_⟩
              by_cases isDollar : char = '$'
              · exact Or.inr (Bool.eq_false_iff.mpr fun expands => notExpansion ⟨isDollar, expands⟩)
              · exact Or.inl isDollar

/-- A text between double quotes that end a command is its last word as it is, exactly when it
stands for itself. -/
theorem words_quoted_iff (chars : List Char) :
    words .double (some []) (chars ++ [doubleQuote]) = some [chars] ↔
      staysLiteral (some doubleQuote) chars = true := by
  constructor
  · intro isRead
    apply staysLiteral_of_words isRead
    simp [size]
  · intro literal
    have taken : words .double (some []) (chars ++ [doubleQuote]) =
        words .double (some ([] ++ chars)) [doubleQuote] := words_of_staysLiteral [] literal
    rw [taken, List.nil_append]
    rfl

/-! ## Words before the last one -/

def ordinary (char : Char) : Bool :=
  char ∉ blank && (char ∉ [doubleQuote, singleQuote, backslash] && char ∉ unquotedSpecial)

theorem words_ordinary_cons {char : Char} (isOrdinary : ordinary char = true)
    (word : Option (List Char)) (rest : List Char) :
    words .unquoted word (char :: rest) = words .unquoted (some (word.getD [] ++ [char])) rest := by
  simp only [ordinary, Bool.and_eq_true, decide_eq_true_eq, List.mem_cons, List.not_mem_nil,
    or_false, not_or] at isOrdinary
  obtain ⟨notBlank, ⟨notDouble, notSingle, notBackslash⟩, notSpecial⟩ := isOrdinary
  conv_lhs => unfold words
  rw [if_neg notBlank, if_neg notDouble, if_neg notSingle, if_neg notBackslash, if_neg notSpecial]

theorem words_ordinary {chars : List Char} (allOrdinary : ∀ char ∈ chars, ordinary char = true)
    (word rest : List Char) :
    words .unquoted (some word) (chars ++ rest) = words .unquoted (some (word ++ chars)) rest := by
  induction chars generalizing word with
  | nil => rw [List.nil_append, List.append_nil]
  | cons char later ih =>
      have here := allOrdinary char (List.mem_cons_self ..)
      have others := ih fun other member => allOrdinary other (List.mem_cons_of_mem _ member)
      rw [List.cons_append, words_ordinary_cons here, Option.getD_some, others, List.append_assoc,
        List.singleton_append]

theorem words_blank (word : Option (List Char)) (rest : List Char) :
    words .unquoted word (' ' :: rest) = (words .unquoted none rest).map (word.toList ++ ·) := by
  conv_lhs => unfold words
  rw [if_pos (by decide)]

/-- A word of ordinary characters is read as it is. -/
theorem words_plain {char : Char} {chars : List Char}
    (allOrdinary : ∀ other ∈ char :: chars, ordinary other = true) (rest : List Char) :
    words .unquoted none (char :: chars ++ ' ' :: rest) =
      (words .unquoted none rest).map ((char :: chars) :: ·) := by
  obtain ⟨here, others⟩ := List.forall_mem_cons.mp allOrdinary
  rw [List.cons_append, words_ordinary_cons here, words_ordinary others, words_blank]
  rfl

/-- A quoted text that stands for itself is read as it is. -/
theorem words_quoted {chars : List Char} (literal : staysLiteral (some doubleQuote) chars = true)
    (rest : List Char) :
    words .unquoted none (doubleQuote :: (chars ++ doubleQuote :: ' ' :: rest)) =
      (words .unquoted none rest).map (chars :: ·) := by
  have taken : words .double (some []) (chars ++ doubleQuote :: ' ' :: rest) =
      words .double (some ([] ++ chars)) (doubleQuote :: ' ' :: rest) := words_of_staysLiteral [] literal
  have opened : words .unquoted none (doubleQuote :: (chars ++ doubleQuote :: ' ' :: rest)) =
      words .double (some []) (chars ++ doubleQuote :: ' ' :: rest) := rfl
  have closed : words .double (some chars) (doubleQuote :: ' ' :: rest) =
      words .unquoted (some chars) (' ' :: rest) := rfl
  rw [opened, taken, List.nil_append, closed, words_blank]
  rfl

end ShellWords
