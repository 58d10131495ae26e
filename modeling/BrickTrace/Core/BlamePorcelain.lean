import BrickTrace.Lib.LastWrite
import BrickTrace.Lib.OrderedMap
import BrickTrace.Protocol.Text

/-!
# The answer of git blame

Git blame answers with a header for each line, lines that describe the commit, and the
line itself after a tab.  The reader knows a header by its shape alone and skips blanks
before the first word, so that a line of the file can be taken for a header.
-/

set_option autoImplicit false

namespace BrickTrace

open OrderedMap LastWrite

/-! ## Reading -/

def isAsciiHexdigit (char : Char) : Bool :=
  char.isDigit || ('a' ≤ char && char ≤ 'f') || ('A' ≤ char && char ≤ 'F')

/-- Forty hexadecimal digits. -/
def isSha (text : List Char) : Bool := text.length == 40 && text.all isAsciiHexdigit

/-- The final line and the commit of a line that has the shape of a header. -/
def readHeader (line : String) : Option (UInt64 × String) :=
  match splitWhitespace [] line.toList with
  | sha :: _ :: finalLine :: _ =>
      if isSha sha then
        (parseU64 (String.ofList finalLine)).map fun finalLine => (finalLine, String.ofList sha)
      else none
  | _ => none

def readPorcelainLine (map : Map UInt64 String) (line : String) : Map UInt64 String :=
  match readHeader line with
  | some (finalLine, sha) => map.insert finalLine sha
  | none => map

def parsePorcelain (text : String) : Map UInt64 String :=
  (textLines text).foldl readPorcelainLine ∅

/-! ## Writing -/

/-- A line of text, without what ends it. -/
structure TextLine where
  text : String
  oneLine : '\n' ∉ text.toList

/-- What git tells of a commit, each under a word of its own. -/
inductive PorcelainField where
  | author
  | authorMail
  | authorTime
  | authorTz
  | committer
  | committerMail
  | committerTime
  | committerTz
  | summary
  | previous
  | boundary
  | filename

def PorcelainField.word : PorcelainField → String
  | .author => "author"
  | .authorMail => "author-mail"
  | .authorTime => "author-time"
  | .authorTz => "author-tz"
  | .committer => "committer"
  | .committerMail => "committer-mail"
  | .committerTime => "committer-time"
  | .committerTz => "committer-tz"
  | .summary => "summary"
  | .previous => "previous"
  | .boundary => "boundary"
  | .filename => "filename"

/-- A line of the file with what git blames it on. -/
structure BlamedLine where
  sha : String
  shaShape : isSha sha.toList = true
  originalLine : UInt64
  finalLine : UInt64
  lineCount : Option UInt64
  fields : List (PorcelainField × Option TextLine)
  content : TextLine

namespace BlamedLine

def header (line : BlamedLine) : String :=
  line.sha ++ " " ++ line.originalLine.toNat.repr ++ " " ++ line.finalLine.toNat.repr ++
    (match line.lineCount with
    | some count => " " ++ count.toNat.repr
    | none => "")

def fieldText (field : PorcelainField × Option TextLine) : String :=
  field.1.word ++
    (match field.2 with
    | some value => " " ++ value.text
    | none => "")

def porcelain (line : BlamedLine) : List String :=
  line.header :: line.fields.map fieldText ++ ["\t" ++ line.content.text]

end BlamedLine

/-- `git blame --line-porcelain`. -/
def linePorcelain (lines : List BlamedLine) : String :=
  String.join ((lines.flatMap BlamedLine.porcelain).map fun line => line ++ "\n")

/-- Each final line with its commit. -/
def blamedCommits (lines : List BlamedLine) : Map UInt64 String :=
  insertAll ∅ (lines.map fun line => (line.finalLine, line.sha))

/-! ## What a line is taken for -/

theorem isWhiteSpace_of_isAsciiHexdigit {char : Char} (digit : isAsciiHexdigit char = true) :
    isWhiteSpace char = false := by
  have letters : 'a'.toNat = 97 ∧ 'f'.toNat = 102 ∧ 'A'.toNat = 65 ∧ 'F'.toNat = 70 := by decide
  unfold isAsciiHexdigit at digit
  simp only [Bool.or_eq_true, Bool.and_eq_true, decide_eq_true_eq, Char.le_def,
    UInt32.le_iff_toNat_le] at digit
  have code : ∀ least most : Nat, 65 ≤ least → most ≤ 102 → least ≤ char.toNat →
      char.toNat ≤ most → isWhiteSpace char = false := by
    intro least most _ _ _ _
    simp only [isWhiteSpace, Bool.or_eq_false_iff, Bool.and_eq_false_iff, beq_eq_false_iff_ne,
      decide_eq_false_iff_not]
    omega
  rcases digit with (decimal | lower) | upper
  · exact isWhiteSpace_of_isDigit decimal
  · exact code 97 102 (by decide) (by decide) lower.1 lower.2
  · exact code 65 70 (by decide) (by decide) upper.1 upper.2

theorem isWhiteSpace_of_isSha {text : List Char} (sha : isSha text = true) :
    ∀ char ∈ text, isWhiteSpace char = false := by
  unfold isSha at sha
  rw [Bool.and_eq_true] at sha
  exact fun char member => isWhiteSpace_of_isAsciiHexdigit (List.all_eq_true.mp sha.2 char member)

/-- A word with a blank behind it. -/
theorem splitWhitespace_word_blank {word : List Char}
    (solid : ∀ char ∈ word, isWhiteSpace char = false) (nonempty : word ≠ []) (rest : List Char) :
    splitWhitespace [] (word ++ ' ' :: rest) = word :: splitWhitespace [] rest := by
  rw [splitWhitespace_append_blank (by decide), splitWhitespace_word solid [] nonempty]
  rfl

theorem splitWhitespace_lineContent (chars : List Char) :
    splitWhitespace [] (lineContent chars) = splitWhitespace [] chars := by
  unfold lineContent
  split
  · rename_i ends
    obtain ⟨front, rfl⟩ := List.getLast?_eq_some_iff.mp ends
    have blank : ∀ char ∈ ['\r'], isWhiteSpace char = true :=
      List.forall_mem_singleton.mpr (by decide)
    rw [List.dropLast_concat, splitWhitespace_append_blanks blank]
  · rfl

/-- The carriage return at the end of a line is no part of a header. -/
theorem readHeader_lineContent (line : String) :
    readHeader (String.ofList (lineContent line.toList)) = readHeader line := by
  unfold readHeader
  rw [String.toList_ofList, splitWhitespace_lineContent]

/-- Nor is the tab before it. -/
theorem readHeader_tab (line : String) : readHeader ("\t" ++ line) = readHeader line := by
  have tab : splitWhitespace [] ("\t" ++ line).toList = splitWhitespace [] line.toList := by
    rw [String.toList_append]
    exact splitWhitespace_append_blank (by decide) [] [] line.toList
  unfold readHeader
  rw [tab]

theorem readHeader_eq_none {line : String} {word : List Char} {rest : List (List Char)}
    (words : splitWhitespace [] line.toList = word :: rest) (other : isSha word = false) :
    readHeader line = none := by
  unfold readHeader
  rw [words]
  split
  · rename_i same
    cases same
    rw [other]
    rfl
  · rfl

namespace BlamedLine

theorem readHeader_fieldText (field : PorcelainField × Option TextLine) :
    readHeader (fieldText field) = none := by
  have whole : field.1.word.toList.all (fun char => !isWhiteSpace char) = true := by
    cases field.1 <;> decide
  have solid : ∀ char ∈ field.1.word.toList, isWhiteSpace char = false := fun char member =>
    by simpa using List.all_eq_true.mp whole char member
  have nonempty : field.1.word.toList ≠ [] := by
    cases field.1 <;> decide
  have other : isSha field.1.word.toList = false := by
    cases field.1 <;> decide
  obtain ⟨name, value⟩ := field
  cases value with
  | none =>
      have chars : (fieldText (name, none)).toList = name.word.toList := by
        simp [fieldText]
      have words : splitWhitespace [] (fieldText (name, none)).toList = [name.word.toList] := by
        rw [chars]
        exact splitWhitespace_word solid [] nonempty
      exact readHeader_eq_none words other
  | some value =>
      have chars : (fieldText (name, some value)).toList =
          name.word.toList ++ ' ' :: value.text.toList := by
        simp [fieldText]
      have words : splitWhitespace [] (fieldText (name, some value)).toList =
          name.word.toList :: splitWhitespace [] value.text.toList := by
        rw [chars]
        exact splitWhitespace_word_blank solid nonempty _
      exact readHeader_eq_none words other

theorem readHeader_header (line : BlamedLine) :
    readHeader line.header = some (line.finalLine, line.sha) := by
  have number : ∀ value : UInt64, (∀ char ∈ value.toNat.repr.toList, isWhiteSpace char = false) ∧
      value.toNat.repr.toList ≠ [] := by
    intro value
    refine ⟨fun char member => isWhiteSpace_of_isDigit (isDigit_of_mem_repr member), ?_⟩
    rw [Nat.toList_repr]
    exact Nat.toDigits_ne_nil
  have solid := isWhiteSpace_of_isSha line.shaShape
  have nonempty : line.sha.toList ≠ [] := by
    intro none
    have shape := line.shaShape
    rw [none] at shape
    cases shape
  have words : ∃ rest, splitWhitespace [] line.header.toList =
      line.sha.toList :: line.originalLine.toNat.repr.toList ::
        line.finalLine.toNat.repr.toList :: rest := by
    cases count : line.lineCount with
    | none =>
        have chars : line.header.toList = line.sha.toList ++ ' ' ::
            (line.originalLine.toNat.repr.toList ++ ' ' :: line.finalLine.toNat.repr.toList) := by
          simp [header, count]
        rw [chars, splitWhitespace_word_blank solid nonempty,
          splitWhitespace_word_blank (number _).1 (number _).2,
          splitWhitespace_word (number _).1 [] (number _).2]
        exact ⟨[], rfl⟩
    | some held =>
        have chars : line.header.toList = line.sha.toList ++ ' ' ::
            (line.originalLine.toNat.repr.toList ++ ' ' ::
              (line.finalLine.toNat.repr.toList ++ ' ' :: held.toNat.repr.toList)) := by
          simp [header, count]
        rw [chars, splitWhitespace_word_blank solid nonempty,
          splitWhitespace_word_blank (number _).1 (number _).2,
          splitWhitespace_word_blank (number _).1 (number _).2]
        exact ⟨_, rfl⟩
  obtain ⟨rest, words⟩ := words
  unfold readHeader
  rw [words]
  dsimp only
  rw [if_pos line.shaShape, String.ofList_toList, String.ofList_toList, parseU64_repr]
  rfl

/-- None of the lines that git writes has a line feed in it. -/
theorem notMem_porcelain (line : BlamedLine) : ∀ text ∈ line.porcelain, '\n' ∉ text.toList := by
  have number : ∀ value : UInt64, '\n' ∉ Nat.toDigits 10 value.toNat := by
    intro value member
    rw [← Nat.toList_repr] at member
    exact absurd (isDigit_of_mem_repr member) (by decide)
  have sha : '\n' ∉ line.sha.toList := fun member =>
    absurd (isWhiteSpace_of_isSha line.shaShape _ member) (by decide)
  intro text member
  rcases List.mem_append.mp member with headed | isContent
  · rcases List.mem_cons.mp headed with rfl | isField
    · unfold header
      cases line.lineCount <;> simp [number, sha]
    · obtain ⟨⟨name, value⟩, -, rfl⟩ := List.mem_map.mp isField
      have word : '\n' ∉ name.word.toList := by
        cases name <;> decide
      cases value with
      | none => simp [fieldText, word]
      | some value => simp [fieldText, word, value.oneLine]
  · rw [List.mem_singleton.mp isContent]
    simp [line.content.oneLine]

/-- What the lines of one blamed line are taken for. -/
theorem filterMap_porcelain (line : BlamedLine) :
    line.porcelain.filterMap readHeader =
      (line.finalLine, line.sha) :: (readHeader line.content.text).toList := by
  have fields : (line.fields.map fieldText).filterMap readHeader = [] := by
    rw [List.filterMap_eq_nil_iff]
    intro text member
    obtain ⟨field, -, rfl⟩ := List.mem_map.mp member
    exact readHeader_fieldText field
  have content : ["\t" ++ line.content.text].filterMap readHeader =
      (readHeader line.content.text).toList := by
    rw [List.filterMap_cons, readHeader_tab]
    cases readHeader line.content.text <;> rfl
  unfold porcelain
  rw [List.filterMap_append, List.filterMap_cons_some line.readHeader_header, fields, content]
  rfl

end BlamedLine

/-! ## What the answer is read as -/

theorem foldl_readPorcelainLine (texts : List String) (map : Map UInt64 String) :
    texts.foldl readPorcelainLine map = insertAll map (texts.filterMap readHeader) := by
  induction texts generalizing map with
  | nil => rfl
  | cons text rest ih =>
      rw [List.foldl_cons, ih, List.filterMap_cons]
      unfold readPorcelainLine
      cases readHeader text <;> rfl

/-- The headers and what is taken for one, in the order of the answer. -/
theorem parsePorcelain_linePorcelain (lines : List BlamedLine) :
    parsePorcelain (linePorcelain lines) =
      lines.foldl (fun map line => insertAll map
        ((line.finalLine, line.sha) :: (readHeader line.content.text).toList)) ∅ := by
  have free : ∀ text ∈ lines.flatMap BlamedLine.porcelain, '\n' ∉ text.toList := by
    intro text member
    obtain ⟨line, -, isText⟩ := List.mem_flatMap.mp member
    exact line.notMem_porcelain text isText
  have stripped : readHeader ∘ (fun text : String => String.ofList (lineContent text.toList)) =
      readHeader := funext readHeader_lineContent
  unfold parsePorcelain linePorcelain
  rw [textLines_join free, foldl_readPorcelainLine, List.filterMap_map, stripped,
    List.filterMap_flatMap]
  simp only [BlamedLine.filterMap_porcelain]
  exact List.foldl_flatMap ..

/-- The commit that a blamed line gives a number, by its header. -/
def headerWrite (number : UInt64) (line : BlamedLine) : Option String :=
  if line.finalLine = number then some line.sha else none

/-- The commit that a blamed line gives a number, by its content first. -/
def porcelainWrite (number : UInt64) (line : BlamedLine) : Option String :=
  ((readHeader line.content.text).bind fun read =>
    if read.1 = number then some read.2 else none).or (headerWrite number line)

theorem getElem?_parsePorcelain (lines : List BlamedLine) (number : UInt64) :
    (parsePorcelain (linePorcelain lines))[number]? = lastWrite (porcelainWrite number) lines := by
  have writing : ∀ (map : Map UInt64 String) (line : BlamedLine),
      (insertAll map ((line.finalLine, line.sha) :: (readHeader line.content.text).toList))[number]? =
        (porcelainWrite number line).or map[number]? := by
    intro map line
    have headed : (map.insert line.finalLine line.sha)[number]? =
        (headerWrite number line).or map[number]? := by
      rw [getElem?_insert_eq]
      unfold headerWrite
      split <;> rfl
    unfold porcelainWrite
    rw [Option.or_assoc, ← headed]
    cases readHeader line.content.text with
    | none => rfl
    | some read =>
        refine (getElem?_insert_eq _ read.1 number read.2).trans ?_
        rw [Option.bind_some]
        split <;> rfl
  rw [parsePorcelain_linePorcelain]
  refine (view_foldl (fun map : Map UInt64 String => map[number]?) writing lines ∅).trans ?_
  simp

theorem getElem?_blamedCommits (lines : List BlamedLine) (number : UInt64) :
    (blamedCommits lines)[number]? = lastWrite (headerWrite number) lines := by
  have writing : ∀ (map : Map UInt64 String) (line : BlamedLine),
      (map.insert line.finalLine line.sha)[number]? =
        (headerWrite number line).or map[number]? := by
    intro map line
    rw [getElem?_insert_eq]
    unfold headerWrite
    split <;> rfl
  unfold blamedCommits insertAll
  rw [List.foldl_map]
  refine (view_foldl (fun map : Map UInt64 String => map[number]?) writing lines ∅).trans ?_
  simp

/-! ## Contents that are taken for headers -/

/-- The line is the numbered one, or its content is taken for the header of that one. -/
def SpeaksOf (number : UInt64) (line : BlamedLine) : Prop :=
  line.finalLine = number ∨ ∃ sha, readHeader line.content.text = some (number, sha)

/-- Where the last line that speaks of a number does so in its content, the commit it names
is the one of that number. -/
def ContentsHarmless (lines : List BlamedLine) : Prop :=
  ∀ number line sha, IsLast (SpeaksOf number) lines line →
    readHeader line.content.text = some (number, sha) → (blamedCommits lines)[number]? = some sha

theorem porcelainWrite_of_content {number : UInt64} {line : BlamedLine} {sha : String}
    (taken : readHeader line.content.text = some (number, sha)) :
    porcelainWrite number line = some sha := by
  unfold porcelainWrite
  rw [taken, Option.bind_some, if_pos rfl]
  rfl

theorem porcelainWrite_of_other {number : UInt64} {line : BlamedLine}
    (other : ∀ sha, readHeader line.content.text ≠ some (number, sha)) :
    porcelainWrite number line = headerWrite number line := by
  unfold porcelainWrite
  cases taken : readHeader line.content.text with
  | none => rfl
  | some read =>
      have differs : read.1 ≠ number := fun same => other read.2 (by rw [taken, ← same])
      rw [Option.bind_some, if_neg differs]
      rfl

theorem isSome_headerWrite_iff (number : UInt64) (line : BlamedLine) :
    (headerWrite number line).isSome = true ↔ line.finalLine = number := by
  unfold headerWrite
  split
  · rename_i same
    exact ⟨fun _ => same, fun _ => rfl⟩
  · rename_i differs
    exact ⟨fun none => (nomatch none), fun same => absurd same differs⟩

theorem isSome_porcelainWrite_iff (number : UInt64) (line : BlamedLine) :
    (porcelainWrite number line).isSome = true ↔ SpeaksOf number line := by
  by_cases taken : ∃ sha, readHeader line.content.text = some (number, sha)
  · obtain ⟨sha, isTaken⟩ := taken
    rw [porcelainWrite_of_content isTaken]
    exact ⟨fun _ => Or.inr ⟨sha, isTaken⟩, fun _ => rfl⟩
  · rw [porcelainWrite_of_other fun sha isTaken => taken ⟨sha, isTaken⟩, isSome_headerWrite_iff]
    exact ⟨Or.inl, fun speaks => speaks.resolve_right taken⟩

theorem lastWrite_porcelainWrite_iff {lines : List BlamedLine} {number : UInt64} {sha : String} :
    lastWrite (porcelainWrite number) lines = some sha ↔
      ∃ line, IsLast (SpeaksOf number) lines line ∧ porcelainWrite number line = some sha := by
  rw [lastWrite_eq_some_iff]
  simp only [isLast_congr (isSome_porcelainWrite_iff number)]

/-- The answer is read as it was given exactly when no content misleads its reader. -/
theorem parsePorcelain_eq_iff (lines : List BlamedLine) :
    parsePorcelain (linePorcelain lines) = blamedCommits lines ↔ ContentsHarmless lines := by
  constructor
  · intro same number line sha last taken
    rw [← same, getElem?_parsePorcelain]
    exact lastWrite_porcelainWrite_iff.mpr ⟨line, last, porcelainWrite_of_content taken⟩
  · intro harmless
    apply Std.ExtTreeMap.ext_getElem?
    intro number
    cases read : (parsePorcelain (linePorcelain lines))[number]? with
    | none =>
        rw [getElem?_parsePorcelain, lastWrite_eq_none_iff] at read
        rw [getElem?_blamedCommits]
        refine (lastWrite_eq_none_iff.mpr fun line member => ?_).symm
        exact (Option.or_eq_none_iff.mp (read line member)).2
    | some sha =>
        rw [getElem?_parsePorcelain] at read
        obtain ⟨line, last, wrote⟩ := lastWrite_porcelainWrite_iff.mp read
        by_cases taken : ∃ named, readHeader line.content.text = some (number, named)
        · obtain ⟨named, isTaken⟩ := taken
          rw [harmless number line named last isTaken, ← wrote, porcelainWrite_of_content isTaken]
        · rw [porcelainWrite_of_other fun named isTaken => taken ⟨named, isTaken⟩] at wrote
          rw [getElem?_blamedCommits]
          obtain ⟨before, after, split, -, silent⟩ := last
          have quiet : ∀ later ∈ after, ¬ (headerWrite number later).isSome = true :=
            fun later member isHeader =>
              silent later member (Or.inl ((isSome_headerWrite_iff number later).mp isHeader))
          have written : (headerWrite number line).isSome = true := by rw [wrote]; rfl
          exact (lastWrite_eq_some_iff.mpr ⟨line, ⟨before, after, split, written, quiet⟩, wrote⟩).symm

/-! ## A file that lists commits -/

def shaOf (digit : Char) : String := String.ofList (List.replicate 40 digit)

/-- One line of a file, in which a commit, a word and the number seven stand. -/
def listedCommit : BlamedLine where
  sha := shaOf 'a'
  shaShape := by decide
  originalLine := 1
  finalLine := 1
  lineCount := some 1
  fields := [(.summary, some ⟨"List commits", by decide⟩), (.filename, some ⟨"log.txt", by decide⟩)]
  content := ⟨shaOf 'b' ++ " x 7", by decide⟩

theorem listedCommit_taken_for_header :
    parsePorcelain (linePorcelain [listedCommit]) ≠ blamedCommits [listedCommit] := by
  intro same
  have taken : readHeader listedCommit.content.text = some (7, shaOf 'b') := by decide +kernel
  have read : (parsePorcelain (linePorcelain [listedCommit]))[(7 : UInt64)]? = some (shaOf 'b') := by
    rw [getElem?_parsePorcelain, lastWrite_cons, porcelainWrite_of_content taken]
    rfl
  have assigned : (blamedCommits [listedCommit])[(7 : UInt64)]? = none := by
    rw [getElem?_blamedCommits]
    decide
  rw [same, assigned] at read
  cases read

end BrickTrace
