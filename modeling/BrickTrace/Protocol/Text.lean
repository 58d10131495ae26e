import Mathlib.Data.List.DropRight
import Mathlib.Data.List.Infix
import BrickTrace.Protocol.Ids

/-!
# Texts taken apart

The operations on texts that the projections use: trimming, prefixes, the parts of
a path and the lines of a text.
-/

set_option autoImplicit false

namespace BrickTrace

def trimChars (chars : List Char) : List Char :=
  ((chars.dropWhile isWhiteSpace).reverse.dropWhile isWhiteSpace).reverse

def trim (text : String) : String := String.ofList (trimChars text.toList)

def trimStart (text : String) : String := String.ofList (text.toList.dropWhile isWhiteSpace)

def trimEnd (text : String) : String :=
  String.ofList (text.toList.reverse.dropWhile isWhiteSpace).reverse

/-- The text once every repetition of the character is taken off its end. -/
def trimEndOf (char : Char) (text : String) : String :=
  String.ofList (text.toList.reverse.dropWhile (· == char)).reverse

/-- The text once every repetition of the character is taken off its start. -/
def trimStartOf (char : Char) (text : String) : String :=
  String.ofList (text.toList.dropWhile (· == char))

def startsWith (text start : String) : Bool := start.toList.isPrefixOf text.toList

def endsWith (text ending : String) : Bool := ending.toList.isSuffixOf text.toList

/-- The text after a prefix it starts with. -/
def stripStart (text start : String) : Option String :=
  if startsWith text start then some (String.ofList (text.toList.drop start.length)) else none

/-- The text before an ending it has. -/
def stripEnd (text ending : String) : Option String :=
  if endsWith text ending then
    some (String.ofList (text.toList.take (text.length - ending.length)))
  else none

def containsText (text part : String) : Bool := decide (part.toList <:+: text.toList)

/-- The texts before and after the first such character. -/
def splitOnce (char : Char) (text : String) : Option (String × String) :=
  match text.toList.dropWhile (· != char) with
  | [] => none
  | _ :: after => some (String.ofList (text.toList.takeWhile (· != char)), String.ofList after)

/-- The texts before and after the last such character. -/
def rsplitOnce (char : Char) (text : String) : Option (String × String) :=
  match text.toList.reverse.dropWhile (· != char) with
  | [] => none
  | _ :: before =>
      some (String.ofList before.reverse,
        String.ofList (text.toList.reverse.takeWhile (· != char)).reverse)

/-- The words of a text, with what is read of the current word. -/
def splitWhitespace (current : List Char) : List Char → List (List Char)
  | [] => if current.isEmpty then [] else [current]
  | char :: rest =>
      if isWhiteSpace char then
        if current.isEmpty then splitWhitespace [] rest else current :: splitWhitespace [] rest
      else splitWhitespace (current ++ [char]) rest

/-- `text.parse::<u64>()`. -/
def parseU64 (text : String) : Option UInt64 :=
  (Numerals.parseUnsigned (2 ^ 64) text).map UInt64.ofNat

/-- The lines of a text, with what is read of the current line in reverse.  A carriage
return goes with the line feed after it; nothing after the last line feed is no line. -/
def readLines (current : List Char) : List Char → List String
  | [] => if current.isEmpty then [] else [String.ofList current.reverse]
  | '\n' :: rest =>
      String.ofList (if current.head? = some '\r' then current.tail else current).reverse ::
        readLines [] rest
  | char :: rest => readLines (char :: current) rest

def textLines (text : String) : List String := readLines [] text.toList

/-- The text once every repetition of `./` is taken off its start. -/
def trimDotSlashes : List Char → List Char
  | '.' :: '/' :: rest => trimDotSlashes rest
  | chars => chars

/-- What follows the last slash of a path. -/
def fileName (path : String) : String :=
  String.ofList (path.toList.reverse.takeWhile (· ≠ '/')).reverse

/-! ## Blanks at the ends -/

def trimEndChars (chars : List Char) : List Char := (chars.reverse.dropWhile isWhiteSpace).reverse

theorem trimEndChars_cons (char : Char) (rest : List Char) :
    trimEndChars (char :: rest) =
      if trimEndChars rest = [] then (if isWhiteSpace char then [] else [char])
      else char :: trimEndChars rest := by
  unfold trimEndChars
  rw [List.reverse_cons, List.dropWhile_append]
  cases kept : rest.reverse.dropWhile isWhiteSpace with
  | nil =>
      cases blank : isWhiteSpace char with
      | false => simp [blank]
      | true => simp [blank]
  | cons last before => simp

/-- Blanks may be taken off either end first. -/
theorem dropWhile_trimEndChars (chars : List Char) :
    (trimEndChars chars).dropWhile isWhiteSpace = trimEndChars (chars.dropWhile isWhiteSpace) := by
  induction chars with
  | nil => rfl
  | cons char rest ih =>
      cases blank : isWhiteSpace char with
      | true =>
          rw [List.dropWhile_cons_of_pos blank, ← ih, trimEndChars_cons, if_pos blank]
          split
          · rename_i empty
            rw [empty]
          · rw [List.dropWhile_cons_of_pos blank]
      | false =>
          have notBlank : ¬ isWhiteSpace char = true := by simp [blank]
          rw [List.dropWhile_cons_of_neg notBlank, trimEndChars_cons]
          rw [if_neg notBlank]
          split
          · exact List.dropWhile_cons_of_neg notBlank
          · exact List.dropWhile_cons_of_neg notBlank

theorem trimEndChars_idem (chars : List Char) : trimEndChars (trimEndChars chars) = trimEndChars chars := by
  unfold trimEndChars
  rw [List.reverse_reverse, List.dropWhile_idempotent]

theorem trimStart_trimEnd (text : String) : trimStart (trimEnd text) = trim text := by
  unfold trimStart trimEnd
  rw [String.toList_ofList]
  exact congrArg String.ofList (dropWhile_trimEndChars text.toList)

theorem trim_trimEnd (text : String) : trim (trimEnd text) = trim text := by
  have same : trimChars (trimEndChars text.toList) = trimChars text.toList := by
    change trimEndChars ((trimEndChars text.toList).dropWhile isWhiteSpace) = _
    rw [dropWhile_trimEndChars, trimEndChars_idem]
    rfl
  unfold trim trimEnd
  rw [String.toList_ofList]
  exact congrArg String.ofList same

theorem trim_trim (text : String) : trim (trim text) = trim text := by
  have same : trimChars (trimChars text.toList) = trimChars text.toList := by
    change trimEndChars ((trimEndChars (text.toList.dropWhile isWhiteSpace)).dropWhile isWhiteSpace) = _
    rw [dropWhile_trimEndChars, trimEndChars_idem, List.dropWhile_idempotent]
    rfl
  unfold trim
  rw [String.toList_ofList]
  exact congrArg String.ofList same

theorem trim_eq_self {text : String} (solid : ∀ char ∈ text.toList, isWhiteSpace char = false) :
    trim text = text := by
  have front : ∀ chars : List Char, (∀ char ∈ chars, isWhiteSpace char = false) →
      chars.dropWhile isWhiteSpace = chars := by
    intro chars solid
    cases chars with
    | nil => rfl
    | cons char rest =>
        have notBlank := solid char List.mem_cons_self
        exact List.dropWhile_cons_of_neg (by simp [notBlank])
  unfold trim trimChars
  rw [front _ solid, front _ fun char member => solid char (List.mem_reverse.mp member),
    List.reverse_reverse, String.ofList_toList]

theorem splitOnce_append {char : Char} {before : String} (free : char ∉ before.toList) (after : String) :
    splitOnce char (before ++ String.singleton char ++ after) = some (before, after) := by
  have kept : ∀ c ∈ before.toList, (c != char) = true := by
    intro c member
    exact bne_iff_ne.mpr fun same => free (same ▸ member)
  have chars : (before ++ String.singleton char ++ after).toList =
      before.toList ++ char :: after.toList := by simp
  unfold splitOnce
  rw [chars, List.dropWhile_append_of_pos kept, List.takeWhile_append_of_pos kept]
  simp

/-! ## Words -/

theorem splitWhitespace_blanks {blanks : List Char} (blank : ∀ char ∈ blanks, isWhiteSpace char = true)
    (current : List Char) :
    splitWhitespace current blanks = if current.isEmpty then [] else [current] := by
  induction blanks generalizing current with
  | nil => rfl
  | cons char rest ih =>
      have later := ih fun other member => blank other (List.mem_cons_of_mem _ member)
      rw [splitWhitespace, if_pos (blank char List.mem_cons_self), later]
      rfl

theorem splitWhitespace_append_blank {char : Char} (blank : isWhiteSpace char = true)
    (current front back : List Char) :
    splitWhitespace current (front ++ char :: back) =
      splitWhitespace current front ++ splitWhitespace [] back := by
  induction front generalizing current with
  | nil =>
      rw [List.nil_append, splitWhitespace, splitWhitespace, if_pos blank]
      split <;> rfl
  | cons first rest ih =>
      rw [List.cons_append, splitWhitespace, splitWhitespace]
      split
      · split
        · exact ih []
        · rw [ih []]
          rfl
      · exact ih (current ++ [first])

theorem splitWhitespace_append_blanks {blanks : List Char}
    (blank : ∀ char ∈ blanks, isWhiteSpace char = true) (current front : List Char) :
    splitWhitespace current (front ++ blanks) = splitWhitespace current front := by
  cases blanks with
  | nil => rw [List.append_nil]
  | cons char rest =>
      rw [splitWhitespace_append_blank (blank char List.mem_cons_self),
        splitWhitespace_blanks (fun other member => blank other (List.mem_cons_of_mem _ member))]
      exact List.append_nil _

theorem splitWhitespace_word {word : List Char} (solid : ∀ char ∈ word, isWhiteSpace char = false)
    (current : List Char) (nonempty : current ++ word ≠ []) :
    splitWhitespace current word = [current ++ word] := by
  induction word generalizing current with
  | nil =>
      rw [List.append_nil] at nonempty ⊢
      rw [splitWhitespace, if_neg (by simpa using nonempty)]
  | cons char rest ih =>
      obtain ⟨here, others⟩ := List.forall_mem_cons.mp solid
      rw [splitWhitespace, here, if_neg Bool.false_ne_true, ih others _ (by simp),
        List.append_assoc, List.singleton_append]

/-- What `trimEndChars` takes off is blank. -/
theorem trimEndChars_append_blanks (chars : List Char) :
    ∃ blanks, (∀ char ∈ blanks, isWhiteSpace char = true) ∧ chars = trimEndChars chars ++ blanks := by
  refine ⟨(chars.reverse.takeWhile isWhiteSpace).reverse, fun char member => ?_, ?_⟩
  · exact List.mem_takeWhile_imp (List.mem_reverse.mp member)
  · unfold trimEndChars
    rw [← List.reverse_append, List.takeWhile_append_dropWhile, List.reverse_reverse]

theorem splitWhitespace_trimEndChars (current chars : List Char) :
    splitWhitespace current (trimEndChars chars) = splitWhitespace current chars := by
  obtain ⟨blanks, blank, split⟩ := trimEndChars_append_blanks chars
  conv_rhs => rw [split, splitWhitespace_append_blanks blank]

theorem trimEndChars_append {front back : List Char} (solid : trimEndChars back ≠ []) :
    trimEndChars (front ++ back) = front ++ trimEndChars back := by
  unfold trimEndChars at solid ⊢
  rw [List.reverse_append, List.dropWhile_append]
  split
  · rename_i empty
    exact absurd (by rw [List.isEmpty_iff.mp empty]; rfl) solid
  · rw [List.reverse_append, List.reverse_reverse]

theorem trimEndChars_append_of_blanks {blanks : List Char}
    (blank : ∀ char ∈ blanks, isWhiteSpace char = true) (front : List Char) :
    trimEndChars (front ++ blanks) = trimEndChars front := by
  unfold trimEndChars
  rw [List.reverse_append,
    List.dropWhile_append_of_pos fun char member => blank char (List.mem_reverse.mp member)]

theorem trimEndChars_eq_nil {chars : List Char} (empty : trimEndChars chars = []) :
    ∀ char ∈ chars, isWhiteSpace char = true := by
  obtain ⟨blanks, blank, split⟩ := trimEndChars_append_blanks chars
  rw [empty, List.nil_append] at split
  exact split ▸ blank

/-- The end of a text without blanks at its end has none either. -/
theorem trimEndChars_of_append {front back : List Char}
    (trimmed : trimEndChars (front ++ back) = front ++ back) : trimEndChars back = back := by
  by_cases empty : trimEndChars back = []
  · rw [trimEndChars_append_of_blanks (trimEndChars_eq_nil empty)] at trimmed
    obtain ⟨blanks, _, split⟩ := trimEndChars_append_blanks front
    have lengths := congrArg List.length trimmed
    have parts := congrArg List.length split
    rw [List.length_append] at lengths parts
    have none : back.length = 0 := by omega
    rw [List.length_eq_zero_iff.mp none]
    rfl
  · rw [trimEndChars_append empty] at trimmed
    exact List.append_cancel_left trimmed

/-! ## Starts of texts -/

theorem startsWith_append (start rest : String) : startsWith (start ++ rest) start = true := by
  unfold startsWith
  rw [String.toList_append]
  exact List.isPrefixOf_iff_prefix.mpr (List.prefix_append _ _)

theorem stripStart_append (start rest : String) : stripStart (start ++ rest) start = some rest := by
  unfold stripStart
  rw [if_pos (startsWith_append start rest), String.toList_append, ← String.length_toList,
    List.drop_left, String.ofList_toList]

theorem stripStart_eq_none {text start : String} (other : startsWith text start = false) :
    stripStart text start = none := by
  unfold stripStart
  rw [other]
  rfl

/-! ## Numbers -/

theorem parseU64_repr (value : UInt64) : parseU64 value.toNat.repr = some value := by
  unfold parseU64
  rw [Numerals.parseUnsigned_repr value.toNat_lt, Option.map_some, UInt64.ofNat_toNat]

/-- The characters of a number. -/
theorem isDigit_of_mem_repr {value : UInt64} {char : Char} (member : char ∈ value.toNat.repr.toList) :
    char.isDigit = true := by
  rw [Nat.toList_repr] at member
  exact Nat.isDigit_of_mem_toDigits (by decide) (by decide) member

/-! ## Lines that end in a line feed -/

/-- A line without the carriage return at its end. -/
def lineContent (line : List Char) : List Char :=
  if line.getLast? = some '\r' then line.dropLast else line

theorem readLines_append_newline {line : List Char} (free : '\n' ∉ line) (current rest : List Char) :
    readLines current (line ++ '\n' :: rest) =
      String.ofList (lineContent (current.reverse ++ line)) :: readLines [] rest := by
  induction line generalizing current with
  | nil =>
      rw [List.nil_append, readLines, List.append_nil, lineContent, List.getLast?_reverse,
        List.dropLast_reverse]
      split <;> rfl
  | cons char others ih =>
      rw [List.mem_cons, not_or] at free
      rw [List.cons_append, readLines, ih free.2, List.reverse_cons, List.append_assoc]
      · rfl
      · exact fun same => free.1 same.symm

theorem textLines_join_append {lines : List String} (free : ∀ line ∈ lines, '\n' ∉ line.toList)
    (back : String) :
    textLines (String.join (lines.map fun line => line ++ "\n") ++ back) =
      lines.map (fun line => String.ofList (lineContent line.toList)) ++ textLines back := by
  induction lines with
  | nil =>
      rw [List.map_nil, String.join_nil, String.empty_append]
      rfl
  | cons line rest ih =>
      obtain ⟨here, others⟩ := List.forall_mem_cons.mp free
      have chars : (String.join ((line :: rest).map fun line => line ++ "\n") ++ back).toList =
          line.toList ++ '\n' :: (String.join (rest.map fun line => line ++ "\n") ++ back).toList := by
        rw [List.map_cons, String.join_cons]
        simp
      unfold textLines at ih ⊢
      rw [chars, readLines_append_newline here, ih others]
      rfl

theorem textLines_join {lines : List String} (free : ∀ line ∈ lines, '\n' ∉ line.toList) :
    textLines (String.join (lines.map fun line => line ++ "\n")) =
      lines.map fun line => String.ofList (lineContent line.toList) := by
  have whole := textLines_join_append free ""
  rw [String.append_empty] at whole
  exact whole.trans (List.append_nil _)

theorem lineContent_append {front : List Char} (keeps : front.getLast? ≠ some '\r')
    (back : List Char) :
    lineContent (front ++ back) = front ++ lineContent back := by
  unfold lineContent
  cases back with
  | nil => rw [List.append_nil, if_neg keeps, if_neg (by simp), List.append_nil]
  | cons char rest =>
      rw [List.getLast?_append_of_ne_nil _ (List.cons_ne_nil _ _),
        List.dropLast_append_of_ne_nil (List.cons_ne_nil _ _)]
      split <;> rfl

theorem trimChars_lineContent (line : List Char) : trimChars (lineContent line) = trimChars line := by
  unfold lineContent
  split
  · rename_i ends
    obtain ⟨front, rfl⟩ := List.getLast?_eq_some_iff.mp ends
    have short : trimEndChars (front ++ ['\r']) = trimEndChars front := by
      unfold trimEndChars
      rw [List.reverse_append, List.reverse_singleton, List.singleton_append,
        List.dropWhile_cons_of_pos (by decide)]
    have swap : ∀ chars, trimChars chars = (trimEndChars chars).dropWhile isWhiteSpace := fun chars =>
      (dropWhile_trimEndChars chars).symm
    rw [List.dropLast_concat, swap, swap, short]
  · rfl

theorem readLines_append_of_newline (current front back : List Char) :
    readLines current (front ++ '\n' :: back) =
      readLines current (front ++ ['\n']) ++ readLines [] back := by
  induction front generalizing current with
  | nil =>
      rw [List.nil_append, List.nil_append, readLines, readLines]
      rfl
  | cons char rest ih =>
      by_cases isNewline : char = '\n'
      · subst isNewline
        rw [List.cons_append, List.cons_append, readLines, readLines, ih, List.cons_append]
      · rw [List.cons_append, List.cons_append, readLines, readLines, ih]
        · exact isNewline
        · exact isNewline

/-- The lines of a text that goes on after a line feed. -/
theorem textLines_append (front back : String) :
    textLines (front ++ "\n" ++ back) = textLines (front ++ "\n") ++ textLines back := by
  have whole : (front ++ "\n" ++ back).toList = front.toList ++ '\n' :: back.toList := by simp
  have start : (front ++ "\n").toList = front.toList ++ ['\n'] := by simp
  unfold textLines
  rw [whole, start, readLines_append_of_newline]

end BrickTrace
