import Mathlib.Data.List.Basic

/-!
# Literals in a text of SQL

A text of SQL is code and string literals; a quotation mark in a literal is doubled.  A
text with a quoted name, a comment or a NUL is not read.  What is read determines the
text, so a literal can be read in one way only.
-/

set_option autoImplicit false

namespace SqlText

def quote : Char := '\x27'
def nul : Char := '\x00'

inductive Piece where
  | code (char : Char)
  | literal (value : List Char)
deriving DecidableEq

/-- Whether a character of the code starts a quoted name or a comment. -/
def startsOther (char : Char) (next : Option Char) : Bool :=
  char ∈ ['\x22', '\x60', '[', nul] || (char == '-' && next == some '-' ||
    char == '/' && next == some '*')

/-- The pieces of a text, from the code or from inside a literal; `closing` comes after a
quotation mark in a literal. -/
inductive Place where
  | code
  | literal (value : List Char)
  | closing (value : List Char)

def pieces : Place → List Char → Option (List Piece)
  | .code, [] => some []
  | .literal _, [] => none
  | .closing value, [] => some [.literal value]
  | .code, char :: rest =>
      if startsOther char rest.head? then none
      else if char = quote then pieces (.literal []) rest
      else (pieces .code rest).map (.code char :: ·)
  | .literal value, char :: rest =>
      if char = nul then none
      else if char = quote then pieces (.closing value) rest
      else pieces (.literal (value ++ [char])) rest
  | .closing value, char :: rest =>
      if char = quote then pieces (.literal (value ++ [quote])) rest
      else if startsOther char rest.head? then none
      else (pieces .code rest).map ([.literal value, .code char] ++ ·)

/-! ## Writing -/

def doubled (value : List Char) : List Char :=
  value.flatMap fun char => if char = quote then [quote, quote] else [char]

/-- A value as a literal. -/
def literal (value : List Char) : List Char := quote :: (doubled value ++ [quote])

def Piece.text : Piece → List Char
  | .code char => [char]
  | .literal value => SqlText.literal value

def write (read : List Piece) : List Char := read.flatMap Piece.text

/-- What comes before a place in a text. -/
def Place.before : Place → List Char
  | .code => []
  | .literal value => quote :: doubled value
  | .closing value => SqlText.literal value

theorem doubled_append (first second : List Char) :
    doubled (first ++ second) = doubled first ++ doubled second :=
  List.flatMap_append

theorem doubled_of_ne {char : Char} (differs : char ≠ quote) : doubled [char] = [char] := by
  simp [doubled, differs]

/-- What is read determines the text. -/
theorem write_of_pieces {place : Place} {input : List Char} {read : List Piece}
    (isRead : pieces place input = some read) : write read = place.before ++ input := by
  induction input generalizing place read with
  | nil =>
      cases place with
      | code =>
          cases isRead
          rfl
      | literal value => cases isRead
      | closing value =>
          cases isRead
          simp [write, Piece.text, Place.before]
  | cons char rest ih =>
      cases place with
      | code =>
          unfold pieces at isRead
          split at isRead
          · cases isRead
          · split at isRead
            · rename_i isQuote
              rw [ih isRead, isQuote]
              rfl
            · obtain ⟨others, isOthers, rfl⟩ := Option.map_eq_some_iff.mp isRead
              have written := ih isOthers
              unfold write at written ⊢
              rw [List.flatMap_cons, written]
              rfl
      | literal value =>
          unfold pieces at isRead
          split at isRead
          · cases isRead
          · split at isRead
            · rename_i isQuote
              rw [ih isRead, isQuote]
              simp [Place.before, literal]
            · rename_i notQuote
              rw [ih isRead]
              simp [Place.before, doubled_append, doubled_of_ne notQuote]
      | closing value =>
          unfold pieces at isRead
          split at isRead
          · rename_i isQuote
            rw [ih isRead, isQuote]
            simp [Place.before, literal, doubled]
          · split at isRead
            · cases isRead
            · obtain ⟨others, isOthers, rfl⟩ := Option.map_eq_some_iff.mp isRead
              have written := ih isOthers
              unfold write at written ⊢
              rw [List.flatMap_append, written]
              simp [Place.before, Piece.text]

/-! ## Reading what is written -/

/-- Whether a text is code, whatever comes after it. -/
def isCode (chars : List Char) : Bool :=
  chars.all fun char => char ∉ [quote, '\x22', '\x60', '[', nul, '-', '/']

theorem pieces_code {chars : List Char} (code : isCode chars = true) (rest : List Char) :
    pieces .code (chars ++ rest) = (pieces .code rest).map (chars.map .code ++ ·) := by
  induction chars with
  | nil => simp
  | cons char later ih =>
      simp only [isCode, List.all_cons, Bool.and_eq_true, decide_eq_true_eq, List.mem_cons,
        List.not_mem_nil, or_false, not_or] at code
      obtain ⟨⟨notQuote, notDouble, notGrave, notBracket, notNul, notDash, notSlash⟩, others⟩ := code
      have plain : startsOther char (later ++ rest).head? = false := by
        simp [startsOther, notDouble, notGrave, notBracket, notNul, notDash, notSlash]
      rw [List.cons_append]
      conv_lhs => unfold pieces
      rw [plain, if_neg Bool.false_ne_true, if_neg notQuote, ih (by simpa [isCode] using others),
        Option.map_map]
      rfl

theorem pieces_literal_value {value : List Char} (plain : nul ∉ value) (before rest : List Char) :
    pieces (.literal before) (doubled value ++ rest) = pieces (.literal (before ++ value)) rest := by
  induction value generalizing before with
  | nil => simp [doubled]
  | cons char later ih =>
      rw [List.mem_cons, not_or] at plain
      have others := ih plain.2
      by_cases isQuote : char = quote
      · subst isQuote
        have step : pieces (.literal before) (quote :: quote :: (doubled later ++ rest)) =
            pieces (.literal (before ++ [quote])) (doubled later ++ rest) := rfl
        have shape : doubled (quote :: later) = quote :: quote :: doubled later := rfl
        rw [shape, List.cons_append, List.cons_append, step, others, List.append_assoc,
          List.singleton_append]
      · have shape : doubled (char :: later) = char :: doubled later := by
          simp [doubled, isQuote]
        rw [shape, List.cons_append]
        conv_lhs => unfold pieces
        rw [if_neg (fun same => plain.1 same.symm), if_neg isQuote, others, List.append_assoc,
          List.singleton_append]

/-- A literal is read as its value. -/
theorem pieces_literal {value : List Char} (plain : nul ∉ value) {rest : List Char}
    (closed : rest.head? ≠ some quote) :
    pieces .code (literal value ++ rest) = (pieces .code rest).map (.literal value :: ·) := by
  have opened : pieces .code (literal value ++ rest) =
      pieces (.literal []) (doubled value ++ (quote :: rest)) := by
    rw [literal, List.cons_append, List.append_assoc]
    rfl
  have closing : pieces (.literal value) (quote :: rest) = pieces (.closing value) rest := rfl
  rw [opened, pieces_literal_value plain, List.nil_append, closing]
  cases rest with
  | nil => rfl
  | cons char later =>
      have notQuote : char ≠ quote := fun same => closed (congrArg some same)
      unfold pieces
      rw [if_neg notQuote]
      split
      · rfl
      · rw [Option.map_map]
        rfl

end SqlText
