import BrickTrace.Lib.FiledItems
import BrickTrace.Lib.OrderedMap
import BrickTrace.Core.DiffSummaryHash

/-!
# The hunks of a unified diff

The reader of a unified diff takes a line that begins with `+++ ` for the name of a file and a
line that begins with `@@ ` for a hunk of it.  It does not count the lines of a hunk, so an
added line whose text begins with `++ ` names a file also, for the hunks that follow it.
-/

set_option autoImplicit false

namespace BrickTrace

open OrderedMap (Map upsert)

/-! ## Reading -/

/-- `None` stands for `/dev/null`, which marks a side that a file is not on. -/
def stripDiffPathPrefix (raw : String) : Option String :=
  if raw = "/dev/null" then none
  else some (((stripStart raw "a/").or (stripStart raw "b/")).getD raw)

/-- The texts before and after the first occurrence of a part. -/
def splitAtPart (part : List Char) : List Char → Option (List Char × List Char)
  | [] => if part.isEmpty then some ([], []) else none
  | char :: rest =>
      if part.isPrefixOf (char :: rest) then some ([], (char :: rest).drop part.length)
      else (splitAtPart part rest).map fun halves => (char :: halves.1, halves.2)

/-- A start with a count, which is 1 when it is left out. -/
def parseRangePair (raw : String) : Option (UInt64 × UInt64) :=
  match splitOnce ',' raw with
  | none => (parseU64 raw).map fun start => (start, 1)
  | some (start, count) => do return (← parseU64 start, ← parseU64 count)

def parseHunkHeader (line : String) : Option DiffHunk := do
  let after ← stripStart line "@@ "
  let (ranges, trailer) ← splitAtPart " @@".toList after.toList
  let header := trim (String.ofList trailer)
  match (splitWhitespace [] ranges).map String.ofList with
  | old :: new :: _ => do
      let (oldStart, oldLines) ← parseRangePair (← stripStart old "-")
      let (newStart, newLines) ← parseRangePair (← stripStart new "+")
      return { oldStart, oldLines, newStart, newLines, header := if header = "" then none else some header }
  | _ => none

structure HunkReader where
  currentPath : Option String
  byPath : Map String (List DiffHunk)

def readHunkLine (reader : HunkReader) (rawLine : String) : HunkReader :=
  let line := trimStart rawLine
  match stripStart line "+++ " with
  | some rest => { reader with currentPath := stripDiffPathPrefix (trim rest) }
  | none =>
      if startsWith line "@@ " then
        match reader.currentPath, parseHunkHeader line with
        | some path, some hunk =>
            { reader with byPath := upsert reader.byPath path [] (· ++ [hunk]) }
        | _, _ => reader
      else reader

def parseUnifiedHunks (text : String) : Map String (List DiffHunk) :=
  ((textLines text).foldl readHunkLine ⟨none, ∅⟩).byPath

/-! ## What git prints without context -/

/-- A text that fits on a line. -/
structure LineText where
  text : String
  lineFree : '\n' ∉ text.toList

/-- A line before the names of a file, such as `diff --git` or `index`: it starts with a letter. -/
structure HeaderLine where
  line : LineText
  letter : ∃ first rest, line.text.toList = first :: rest ∧ first.isAlpha = true

inductive BodyLine where
  | removed (line : LineText)
  | added (line : LineText)
  | noNewline

def BodyLine.text : BodyLine → String
  | .removed line => "-" ++ line.text
  | .added line => "+" ++ line.text
  | .noNewline => "\\ No newline at end of file"

structure ZeroContextHunk where
  ranges : (UInt64 × UInt64) × (UInt64 × UInt64)
  heading : LineText
  body : List BodyLine

def rangeText (range : UInt64 × UInt64) : String :=
  range.1.toNat.repr ++ if range.2 = 1 then "" else "," ++ range.2.toNat.repr

namespace ZeroContextHunk

def headerText (hunk : ZeroContextHunk) : String :=
  "@@ " ++ ("-" ++ rangeText hunk.ranges.1 ++ " +" ++ rangeText hunk.ranges.2 ++ " @@" ++
    if hunk.heading.text = "" then "" else " " ++ hunk.heading.text)

def lines (hunk : ZeroContextHunk) : List String := hunk.headerText :: hunk.body.map BodyLine.text

end ZeroContextHunk

/-- The change of one file.  A file without an old path is created, one without a new path is
deleted, and a file without hunks shows only its headers. -/
structure FileDiff where
  headers : List HeaderLine
  oldPath : Option LineText
  newPath : Option LineText
  hunks : List ZeroContextHunk
  distinct : (hunks.map ZeroContextHunk.ranges).Nodup
  deletes : newPath = none → ∀ hunk ∈ hunks, ∀ line, BodyLine.added line ∉ hunk.body

/-- A tab marks the end of a path with a blank in it. -/
def sideText (side : String) : Option LineText → String
  | none => "/dev/null"
  | some path => side ++ path.text ++ if ' ' ∈ path.text.toList then "\t" else ""

namespace FileDiff

def lines (file : FileDiff) : List String :=
  file.headers.map (fun header => header.line.text) ++
    if file.hunks = [] then []
    else ("--- " ++ sideText "a/" file.oldPath) :: ("+++ " ++ sideText "b/" file.newPath) ::
      file.hunks.flatMap ZeroContextHunk.lines

end FileDiff

/-- The files of a diff, each path once. -/
structure UnifiedDiff where
  files : List FileDiff
  distinct : (files.filterMap fun file => file.newPath.map LineText.text).Nodup

def UnifiedDiff.text (diff : UnifiedDiff) : String :=
  String.join ((diff.files.flatMap FileDiff.lines).map fun line => line ++ "\n")

/-! ## Hunks of their files -/

/-- The hunks of every file on the new side are found under its path, and nothing else is. -/
structure HunksFiled (diff : UnifiedDiff) (byPath : Map String (List DiffHunk)) : Prop where
  own : ∀ file ∈ diff.files, ∀ path, file.newPath = some path →
    (byPath[path.text]?.getD []).map DiffHunk.ranges = file.hunks.map ZeroContextHunk.ranges
  noOther : ∀ path, (∀ file ∈ diff.files, file.newPath.map LineText.text ≠ some path) →
    byPath[path]? = none

/-- The path that an added line names, if it looks like the name of a file. -/
def namedPath : BodyLine → Option (Option String)
  | .added line =>
      (stripStart (String.ofList (lineContent line.text.toList)) "++ ").map fun rest =>
        stripDiffPathPrefix (trim rest)
  | _ => none

def pathAfter (path : Option String) (line : BodyLine) : Option String := (namedPath line).getD path

/-- Every hunk with the path in force where its header stands. -/
def pathsInForce (path : Option String) :
    List ZeroContextHunk → List (Option String × ZeroContextHunk)
  | [] => []
  | hunk :: rest => (path, hunk) :: pathsInForce (hunk.body.foldl pathAfter path) rest

/-- The name of the file is read without the blanks at its end. -/
def FileDiff.HunksNamed (file : FileDiff) (path : LineText) : Prop :=
  ∀ labelled ∈ pathsInForce (some (trimEnd path.text)) file.hunks, labelled.1 = some path.text

/-! ## Reading one line -/

/-- A line as it comes out of the text. -/
def content (line : String) : String := String.ofList (lineContent line.toList)

/-- A character that is not blank stands at the start of a line. -/
theorem content_append {front : String} {first : Char} {others : List Char}
    (start : front.toList = first :: others) (solid : isWhiteSpace first = false)
    (keeps : front.toList.getLast? ≠ some '\r') (back : String) :
    trimStart (content (front ++ back)) = front ++ content back := by
  have chars : lineContent (front ++ back).toList = front.toList ++ lineContent back.toList := by
    rw [String.toList_append, lineContent_append keeps]
  unfold trimStart content
  rw [chars, String.toList_ofList, start, List.cons_append,
    List.dropWhile_cons_of_neg (by rw [solid]; exact Bool.false_ne_true), ← List.cons_append, ← start,
    String.ofList_append, String.ofList_toList]

theorem startsWith_eq_false {text start : String} {first other : Char} {rest others : List Char}
    (textStart : text.toList = first :: rest) (starts : start.toList = other :: others)
    (differs : first ≠ other) : startsWith text start = false := by
  unfold startsWith
  rw [textStart, starts, List.isPrefixOf, beq_false_of_ne differs.symm, Bool.false_and]

/-- A line that starts with another character tells nothing. -/
theorem readHunkLine_quiet {line : String} {first : Char} {rest : List Char}
    (start : line.toList = first :: rest) (solid : isWhiteSpace first = false)
    (notPlus : first ≠ '+') (notAt : first ≠ '@') (reader : HunkReader) :
    readHunkLine reader (content line) = reader := by
  have front : line = String.singleton first ++ String.ofList rest := by
    apply String.toList_injective
    rw [start]
    simp
  have notReturn : first ≠ '\r' := by
    rintro rfl
    cases solid
  have shape : trimStart (content line) = String.singleton first ++ content (String.ofList rest) := by
    rw [front]
    exact content_append (String.toList_singleton first) solid (by simpa using notReturn) _
  have chars : (String.singleton first ++ content (String.ofList rest)).toList =
      first :: (content (String.ofList rest)).toList := by simp
  unfold readHunkLine
  rw [shape]
  dsimp only
  rw [stripStart_eq_none (startsWith_eq_false chars rfl notPlus)]
  dsimp only
  rw [startsWith_eq_false chars rfl notAt]
  rfl

theorem trim_content (text : String) : trim (content text) = trim text := by
  unfold trim content
  rw [String.toList_ofList, trimChars_lineContent]

theorem readHunkLine_name (reader : HunkReader) (name : String) :
    readHunkLine reader (content ("+++ " ++ name)) =
      { reader with currentPath := stripDiffPathPrefix (trim name) } := by
  have shape : trimStart (content ("+++ " ++ name)) = "+++ " ++ content name :=
    content_append rfl (by decide) (by decide) name
  unfold readHunkLine
  rw [shape]
  dsimp only
  rw [stripStart_append]
  dsimp only
  rw [trim_content]

theorem readHunkLine_added (reader : HunkReader) (line : LineText) :
    readHunkLine reader (content (BodyLine.added line).text) =
      { reader with currentPath := pathAfter reader.currentPath (.added line) } := by
  have shape : trimStart (content ("+" ++ line.text)) = "+" ++ content line.text :=
    content_append rfl (by decide) (by decide) line.text
  have chars : ("+" ++ content line.text).toList = '+' :: (content line.text).toList := by simp
  have named : stripStart ("+" ++ content line.text) "+++ " = stripStart (content line.text) "++ " := by
    unfold stripStart startsWith
    rw [chars]
    rfl
  unfold readHunkLine pathAfter namedPath BodyLine.text
  rw [shape]
  dsimp only
  rw [named]
  change (match stripStart (content line.text) "++ " with | some rest => _ | none => _) =
    { reader with currentPath := ((stripStart (content line.text) "++ ").map _).getD reader.currentPath }
  cases stripStart (content line.text) "++ " with
  | some rest => rfl
  | none =>
      dsimp only
      rw [startsWith_eq_false chars rfl (by decide)]
      rfl

theorem readHunkLine_body (reader : HunkReader) (line : BodyLine) :
    readHunkLine reader (content line.text) =
      { reader with currentPath := pathAfter reader.currentPath line } := by
  cases line with
  | added line => exact readHunkLine_added reader line
  | removed line =>
      have start : (BodyLine.removed line).text.toList = '-' :: line.text.toList :=
        String.toList_append
      exact readHunkLine_quiet start (by decide) (by decide) (by decide) reader
  | noNewline => exact readHunkLine_quiet rfl (by decide) (by decide) (by decide) reader

/-! ## Reading the header of a hunk -/

theorem splitAtPart_append {part front : List Char} {second : Char} {others : List Char} {first : Char}
    (shape : part = first :: second :: others) (differs : first ≠ second) (free : second ∉ front)
    (back : List Char) : splitAtPart part (front ++ (part ++ back)) = some (front, back) := by
  induction front with
  | nil =>
      have starts : part.isPrefixOf (part ++ back) = true :=
        List.isPrefixOf_iff_prefix.mpr (List.prefix_append _ _)
      rw [List.nil_append]
      have unfolded : splitAtPart part (part ++ back) = some ([], (part ++ back).drop part.length) := by
        rw [shape, List.cons_append] at starts ⊢
        rw [splitAtPart, if_pos starts]
      rw [unfolded, List.drop_left]
  | cons char rest ih =>
      rw [List.mem_cons, not_or] at free
      have notHere : part.isPrefixOf (char :: (rest ++ (part ++ back))) = false := by
        rw [shape, List.isPrefixOf]
        cases rest with
        | nil =>
            rw [List.nil_append, List.cons_append, List.isPrefixOf, beq_false_of_ne differs.symm,
              Bool.false_and, Bool.and_false]
        | cons next later =>
            rw [List.mem_cons, not_or] at free
            rw [List.cons_append, List.isPrefixOf, beq_false_of_ne free.2.1, Bool.false_and,
              Bool.and_false]
      rw [List.cons_append, splitAtPart, notHere, ih free.2]
      rfl

theorem mem_rangeText {range : UInt64 × UInt64} {char : Char} (member : char ∈ (rangeText range).toList) :
    char = ',' ∨ char.isDigit = true := by
  unfold rangeText at member
  rw [String.toList_append] at member
  rcases List.mem_append.mp member with start | count
  · exact Or.inr (isDigit_of_mem_repr start)
  · split at count
    · cases count
    · rw [String.toList_append] at count
      rcases List.mem_append.mp count with comma | digits
      · exact Or.inl (List.mem_singleton.mp comma)
      · exact Or.inr (isDigit_of_mem_repr digits)

theorem parseRangePair_rangeText (range : UInt64 × UInt64) :
    parseRangePair (rangeText range) = some range := by
  obtain ⟨start, count⟩ := range
  have noComma : ',' ∉ start.toNat.repr.toList := fun member =>
    absurd (isDigit_of_mem_repr member) (by decide)
  unfold rangeText parseRangePair
  dsimp only
  by_cases single : count = 1
  · have whole : splitOnce ',' start.toNat.repr = none := by
      have others : ∀ char ∈ start.toNat.repr.toList, (char != ',') = true := by
        intro char member
        refine bne_iff_ne.mpr fun isComma => noComma ?_
        rwa [isComma] at member
      unfold splitOnce
      rw [List.dropWhile_eq_nil_iff.mpr others]
    rw [if_pos single, String.append_empty, whole]
    dsimp only
    rw [parseU64_repr, single]
    rfl
  · have halves : splitOnce ',' (start.toNat.repr ++ ("," ++ count.toNat.repr)) =
        some (start.toNat.repr, count.toNat.repr) := by
      rw [← String.append_assoc]
      exact splitOnce_append noComma _
    rw [if_neg single, halves]
    dsimp only
    rw [parseU64_repr, parseU64_repr]
    rfl

theorem isWhiteSpace_of_mem_rangeText {range : UInt64 × UInt64} {char : Char}
    (member : char ∈ (rangeText range).toList) : isWhiteSpace char = false := by
  rcases mem_rangeText member with rfl | digit
  · decide
  · exact isWhiteSpace_of_isDigit digit

namespace ZeroContextHunk

/-- The hunk as it is read. -/
def parsed (hunk : ZeroContextHunk) : DiffHunk where
  oldStart := hunk.ranges.1.1
  oldLines := hunk.ranges.1.2
  newStart := hunk.ranges.2.1
  newLines := hunk.ranges.2.2
  header :=
    let heading := trim (content (if hunk.heading.text = "" then "" else " " ++ hunk.heading.text))
    if heading = "" then none else some heading

end ZeroContextHunk

/-- The two ranges of a header, and no more words. -/
theorem splitWhitespace_ranges (ranges : (UInt64 × UInt64) × (UInt64 × UInt64)) :
    (splitWhitespace [] ("-" ++ rangeText ranges.1 ++ " +" ++ rangeText ranges.2).toList).map
        String.ofList = ["-" ++ rangeText ranges.1, "+" ++ rangeText ranges.2] := by
  have shape : ("-" ++ rangeText ranges.1 ++ " +" ++ rangeText ranges.2).toList =
      ("-" ++ rangeText ranges.1).toList ++ ' ' :: ("+" ++ rangeText ranges.2).toList := by
    simp
  have minus : ∀ char ∈ "-".toList, isWhiteSpace char = false := by
    intro char member
    rw [List.mem_singleton.mp member]
    decide
  have plus : ∀ char ∈ "+".toList, isWhiteSpace char = false := by
    intro char member
    rw [List.mem_singleton.mp member]
    decide
  have solid : ∀ sign : String, (∀ char ∈ sign.toList, isWhiteSpace char = false) →
      ∀ range, ∀ char ∈ (sign ++ rangeText range).toList, isWhiteSpace char = false := by
    intro sign solidSign range char member
    rw [String.toList_append] at member
    rcases List.mem_append.mp member with inSign | inRange
    · exact solidSign char inSign
    · exact isWhiteSpace_of_mem_rangeText inRange
  rw [shape, splitWhitespace_append_blank (by decide),
    splitWhitespace_word (solid "-" minus ranges.1) [] (by simp),
    splitWhitespace_word (solid "+" plus ranges.2) [] (by simp)]
  simp

theorem parseHunkHeader_headerText (hunk : ZeroContextHunk) :
    parseHunkHeader (content hunk.headerText) = some hunk.parsed := by
  have notAt : '@' ∉ ("-" ++ rangeText hunk.ranges.1 ++ " +" ++ rangeText hunk.ranges.2).toList := by
    have apart : ∀ range, '@' ∉ (rangeText range).toList := fun range member =>
      (mem_rangeText member).elim (fun same => absurd same (by decide))
        fun digit => absurd digit (by decide)
    simp [apart]
  generalize heading : (if hunk.heading.text = "" then "" else " " ++ hunk.heading.text) = trailer
  have front : hunk.headerText = "@@ " ++ ("-" ++ rangeText hunk.ranges.1 ++ " +" ++
      rangeText hunk.ranges.2 ++ " @@") ++ trailer := by
    unfold ZeroContextHunk.headerText
    rw [heading]
    simp only [String.append_assoc]
  have keeps : ("@@ " ++ ("-" ++ rangeText hunk.ranges.1 ++ " +" ++
      rangeText hunk.ranges.2 ++ " @@")).toList.getLast? ≠ some '\r' := by
    rw [← String.append_assoc, String.toList_append, List.getLast?_append_of_ne_nil _ (by decide)]
    decide
  have line : content hunk.headerText = "@@ " ++ (("-" ++ rangeText hunk.ranges.1 ++ " +" ++
      rangeText hunk.ranges.2) ++ (" @@" ++ content trailer)) := by
    unfold content
    rw [front, String.toList_append, lineContent_append keeps, String.ofList_append,
      String.ofList_toList]
    simp only [String.append_assoc]
  have halves : splitAtPart " @@".toList (("-" ++ rangeText hunk.ranges.1 ++ " +" ++
      rangeText hunk.ranges.2) ++ (" @@" ++ content trailer)).toList =
        some (("-" ++ rangeText hunk.ranges.1 ++ " +" ++ rangeText hunk.ranges.2).toList,
          (content trailer).toList) := by
    rw [String.toList_append, show (" @@" ++ content trailer).toList =
      " @@".toList ++ (content trailer).toList from String.toList_append]
    exact splitAtPart_append rfl (by decide) notAt _
  unfold parseHunkHeader
  rw [line, stripStart_append, Option.bind_eq_bind, Option.bind_some, halves, Option.bind_eq_bind,
    Option.bind_some]
  dsimp only
  rw [splitWhitespace_ranges]
  dsimp only
  rw [stripStart_append, stripStart_append, Option.bind_some, parseRangePair_rangeText,
    Option.bind_eq_bind, Option.bind_some, Option.bind_some, parseRangePair_rangeText]
  unfold ZeroContextHunk.parsed
  rw [heading, String.ofList_toList]
  rfl

theorem readHunkLine_header (reader : HunkReader) (hunk : ZeroContextHunk) :
    readHunkLine reader (content hunk.headerText) =
      match reader.currentPath with
      | some path => { reader with byPath := upsert reader.byPath path [] (· ++ [hunk.parsed]) }
      | none => reader := by
  obtain ⟨rest, front⟩ : ∃ rest, hunk.headerText = "@@ " ++ rest := ⟨_, rfl⟩
  have keeps : "@@ ".toList.getLast? ≠ some '\r' := by decide
  have line : content hunk.headerText = "@@ " ++ content rest := by
    unfold content
    rw [front, String.toList_append, lineContent_append keeps, String.ofList_append,
      String.ofList_toList]
  have trimmed : trimStart (content hunk.headerText) = content hunk.headerText := by
    rw [front, content_append rfl (by decide) keeps rest, ← line, front]
  have chars : (content hunk.headerText).toList = '@' :: ("@ ".toList ++ (content rest).toList) := by
    rw [line, String.toList_append]
    rfl
  have isHunk : startsWith (content hunk.headerText) "@@ " = true := by
    rw [line]
    exact startsWith_append _ _
  unfold readHunkLine
  rw [trimmed]
  dsimp only
  rw [stripStart_eq_none (startsWith_eq_false chars rfl (by decide))]
  dsimp only
  rw [if_pos isHunk, parseHunkHeader_headerText]
  cases reader.currentPath <;> rfl

/-! ## Reading the files -/

/-- The hunks of a path found so far, and those that follow. -/
def fileUnder (byPath : Map String (List DiffHunk)) (pairs : List (String × ZeroContextHunk)) :
    Map String (List DiffHunk) :=
  pairs.foldl (fun byPath pair => upsert byPath pair.1 [] (· ++ [pair.2.parsed])) byPath

/-- The hunks that are filed, with their paths. -/
def filedPairs (labelled : List (Option String × ZeroContextHunk)) : List (String × ZeroContextHunk) :=
  labelled.filterMap fun item => item.1.map fun path => (path, item.2)

theorem foldl_body (reader : HunkReader) (body : List BodyLine) :
    (body.map fun line => content line.text).foldl readHunkLine reader =
      { reader with currentPath := body.foldl pathAfter reader.currentPath } := by
  induction body generalizing reader with
  | nil => rfl
  | cons line rest ih =>
      rw [List.map_cons, List.foldl_cons, readHunkLine_body, ih]
      rfl

theorem foldl_hunks (hunks : List ZeroContextHunk) (reader : HunkReader) :
    ∃ path, ((hunks.flatMap ZeroContextHunk.lines).map content).foldl readHunkLine reader =
      ⟨path, fileUnder reader.byPath (filedPairs (pathsInForce reader.currentPath hunks))⟩ := by
  induction hunks generalizing reader with
  | nil => exact ⟨reader.currentPath, rfl⟩
  | cons hunk rest ih =>
      rw [List.flatMap_cons, List.map_append, List.foldl_append]
      have own : (hunk.lines.map content).foldl readHunkLine reader =
          ⟨hunk.body.foldl pathAfter reader.currentPath,
            fileUnder reader.byPath (filedPairs [(reader.currentPath, hunk)])⟩ := by
        unfold ZeroContextHunk.lines
        rw [List.map_cons, List.foldl_cons, readHunkLine_header, List.map_map]
        obtain ⟨currentPath, byPath⟩ := reader
        cases currentPath with
        | none => exact foldl_body _ _
        | some path => exact foldl_body _ _
      rw [own]
      obtain ⟨path, later⟩ := ih ⟨hunk.body.foldl pathAfter reader.currentPath,
        fileUnder reader.byPath (filedPairs [(reader.currentPath, hunk)])⟩
      refine ⟨path, later.trans ?_⟩
      have pairs : filedPairs (pathsInForce reader.currentPath (hunk :: rest)) =
          filedPairs [(reader.currentPath, hunk)] ++
            filedPairs (pathsInForce (hunk.body.foldl pathAfter reader.currentPath) rest) := by
        unfold filedPairs
        rw [pathsInForce, ← List.filterMap_append]
        rfl
      rw [pairs]
      unfold fileUnder
      rw [List.foldl_append]

theorem isWhiteSpace_of_isAlpha {char : Char} (letter : char.isAlpha = true) :
    isWhiteSpace char = false := by
  have bounds : (65 ≤ char.toNat ∧ char.toNat ≤ 90) ∨ (97 ≤ char.toNat ∧ char.toNat ≤ 122) := by
    unfold Char.isAlpha Char.isUpper Char.isLower at letter
    simp only [Bool.or_eq_true, Bool.and_eq_true, decide_eq_true_eq, UInt32.le_iff_toNat_le,
      ge_iff_le] at letter
    exact letter
  simp only [isWhiteSpace, Bool.or_eq_false_iff, Bool.and_eq_false_iff, beq_eq_false_iff_ne,
    decide_eq_false_iff_not]
  omega

theorem foldl_headers (headers : List HeaderLine) (reader : HunkReader) :
    ((headers.map fun header => header.line.text).map content).foldl readHunkLine reader = reader := by
  induction headers with
  | nil => rfl
  | cons header rest ih =>
      obtain ⟨first, others, start, letter⟩ := header.letter
      have plain : ∀ char : Char, char.isAlpha = false → first ≠ char := by
        rintro char notLetter rfl
        rw [letter] at notLetter
        cases notLetter
      rw [List.map_cons, List.map_cons, List.foldl_cons,
        readHunkLine_quiet start (isWhiteSpace_of_isAlpha letter) (plain '+' (by decide))
          (plain '@' (by decide)), ih]

/-! ## The names of files -/

theorem trim_side (path : LineText) :
    trim (sideText "b/" (some path)) = "b/" ++ trimEnd path.text := by
  have tail : ∀ chars, trimEndChars ('b' :: '/' :: chars) = 'b' :: '/' :: trimEndChars chars := by
    intro chars
    have slash : trimEndChars ('/' :: chars) = '/' :: trimEndChars chars := by
      rw [trimEndChars_cons]
      split
      · rename_i empty
        rw [empty]
        rfl
      · rfl
    rw [trimEndChars_cons, slash, if_neg (List.cons_ne_nil _ _)]
  have mark : ∀ char ∈ (if ' ' ∈ path.text.toList then "\t" else "").toList, isWhiteSpace char = true := by
    intro char member
    split at member
    · rw [List.mem_singleton.mp member]
      decide
    · exact absurd member List.not_mem_nil
  have chars : (sideText "b/" (some path)).toList =
      'b' :: '/' :: (path.text.toList ++ (if ' ' ∈ path.text.toList then "\t" else "").toList) := by
    unfold sideText
    rw [String.toList_append, String.toList_append]
    rfl
  have trimmed : trimChars (sideText "b/" (some path)).toList =
      'b' :: '/' :: trimEndChars path.text.toList := by
    rw [chars]
    change trimEndChars (List.dropWhile isWhiteSpace ('b' :: '/' :: _)) = _
    rw [List.dropWhile_cons_of_neg (by decide), tail, trimEndChars_append_of_blanks mark]
  unfold trim
  rw [trimmed]
  apply String.toList_injective
  have ending : (trimEnd path.text).toList = trimEndChars path.text.toList := String.toList_ofList
  rw [String.toList_ofList, String.toList_append, ending]
  rfl

theorem stripDiffPathPrefix_side (path : LineText) :
    stripDiffPathPrefix (trim (sideText "b/" (some path))) = some (trimEnd path.text) := by
  have chars : ("b/" ++ trimEnd path.text).toList = 'b' :: ('/' :: (trimEnd path.text).toList) := by
    rw [String.toList_append]
    rfl
  have notNull : "b/" ++ trimEnd path.text ≠ "/dev/null" := by
    intro same
    have first := congrArg String.toList same
    rw [chars] at first
    exact absurd (List.cons.inj first).1 (by decide)
  unfold stripDiffPathPrefix
  rw [trim_side, if_neg notNull,
    stripStart_eq_none (startsWith_eq_false chars rfl (by decide)), Option.none_or, stripStart_append]
  rfl

theorem stripDiffPathPrefix_null : stripDiffPathPrefix (trim (sideText "b/" none)) = none := by
  decide

/-- A path without blanks at its end. -/
def Trimmed (path : Option String) : Prop := ∀ text, path = some text → trimEnd text = text

theorem trimmed_stripDiffPathPrefix (raw : String) : Trimmed (stripDiffPathPrefix (trim raw)) := by
  have whole : trimEndChars (trim raw).toList = (trim raw).toList := by
    unfold trim
    rw [String.toList_ofList]
    exact trimEndChars_idem _
  have stripped : ∀ start rest, stripStart (trim raw) start = some rest → trimEnd rest = rest := by
    intro start rest found
    unfold stripStart at found
    split at found
    · cases found
      rw [← List.take_append_drop start.length (trim raw).toList] at whole
      have tail := trimEndChars_of_append whole
      unfold trimEnd
      rw [String.toList_ofList]
      exact congrArg String.ofList tail
    · cases found
  intro text named
  unfold stripDiffPathPrefix at named
  split at named
  · cases named
  · cases named
    cases ofOld : stripStart (trim raw) "a/" with
    | some rest => exact stripped _ rest ofOld
    | none =>
        cases ofNew : stripStart (trim raw) "b/" with
        | some rest => exact stripped _ rest ofNew
        | none =>
            change String.ofList (trimEndChars (trim raw).toList) = trim raw
            rw [whole, String.ofList_toList]

theorem trimmed_trimEnd (text : String) : Trimmed (some (trimEnd text)) := by
  intro other same
  cases same
  have twice := trimEndChars_idem text.toList
  unfold trimEnd
  rw [String.toList_ofList]
  exact congrArg String.ofList twice

theorem trimmed_pathAfter {path : Option String} (trimmed : Trimmed path) (line : BodyLine) :
    Trimmed (pathAfter path line) := by
  unfold pathAfter namedPath
  cases line with
  | added line =>
      dsimp only
      cases stripStart (String.ofList (lineContent line.text.toList)) "++ " with
      | none => exact trimmed
      | some rest => exact trimmed_stripDiffPathPrefix rest
  | removed line => exact trimmed
  | noNewline => exact trimmed

theorem trimmed_pathsInForce {path : Option String} (trimmed : Trimmed path)
    (hunks : List ZeroContextHunk) : ∀ labelled ∈ pathsInForce path hunks, Trimmed labelled.1 := by
  induction hunks generalizing path with
  | nil => exact fun labelled member => nomatch member
  | cons hunk rest ih =>
      have later : Trimmed (hunk.body.foldl pathAfter path) := by
        induction hunk.body generalizing path with
        | nil => exact trimmed
        | cons line lines ih => exact ih (trimmed_pathAfter trimmed line)
      exact List.forall_mem_cons.mpr ⟨trimmed, ih later⟩

theorem pathsInForce_hunks (path : Option String) (hunks : List ZeroContextHunk) :
    (pathsInForce path hunks).map Prod.snd = hunks := by
  induction hunks generalizing path with
  | nil => rfl
  | cons hunk rest ih => exact congrArg (hunk :: ·) (ih _)

/-- The hunks of a deleted file are under no path. -/
theorem filedPairs_deleted {hunks : List ZeroContextHunk}
    (deletes : ∀ hunk ∈ hunks, ∀ line, BodyLine.added line ∉ hunk.body) :
    filedPairs (pathsInForce none hunks) = [] := by
  induction hunks with
  | nil => rfl
  | cons hunk rest ih =>
      obtain ⟨here, others⟩ := List.forall_mem_cons.mp deletes
      have stays : hunk.body.foldl pathAfter none = none := by
        generalize hunk.body = body at here
        induction body with
        | nil => rfl
        | cons line lines ih =>
            have same : pathAfter none line = none := by
              cases line with
              | added line => exact absurd List.mem_cons_self (here line)
              | removed line => rfl
              | noNewline => rfl
            rw [List.foldl_cons, same]
            exact ih fun other member => here other (List.mem_cons_of_mem _ member)
      rw [pathsInForce, stays]
      exact ih others

/-! ## Reading a diff -/

/-- The hunks of a file on the new side, with the path in force at each. -/
def FileDiff.group (file : FileDiff) :
    Option (FiledItems.Group String ZeroContextHunk) :=
  file.newPath.map fun path => ⟨path.text, pathsInForce (some (trimEnd path.text)) file.hunks⟩

def UnifiedDiff.groups (diff : UnifiedDiff) : List (FiledItems.Group String ZeroContextHunk) :=
  diff.files.filterMap FileDiff.group

def FileDiff.pairs (file : FileDiff) : List (String × ZeroContextHunk) :=
  FiledItems.filed file.group.toList

theorem foldl_file (file : FileDiff) (reader : HunkReader) :
    ((file.lines.map content).foldl readHunkLine reader).byPath =
      fileUnder reader.byPath file.pairs := by
  unfold FileDiff.lines FileDiff.pairs FileDiff.group
  rw [List.map_append, List.foldl_append, foldl_headers]
  by_cases none : file.hunks = []
  · rw [if_pos none, none]
    cases file.newPath <;> rfl
  · have oldLine : ("--- " ++ sideText "a/" file.oldPath).toList =
        '-' :: ("-- ".toList ++ (sideText "a/" file.oldPath).toList) := by
      rw [String.toList_append]
      rfl
    rw [if_neg none, List.map_cons, List.map_cons, List.foldl_cons, List.foldl_cons,
      readHunkLine_quiet oldLine (by decide) (by decide) (by decide), readHunkLine_name]
    obtain ⟨path, read⟩ := foldl_hunks file.hunks
      { reader with currentPath := stripDiffPathPrefix (trim (sideText "b/" file.newPath)) }
    rw [read]
    dsimp only
    cases newPath : file.newPath with
    | none =>
        rw [stripDiffPathPrefix_null, filedPairs_deleted (file.deletes newPath)]
        rfl
    | some name =>
        rw [stripDiffPathPrefix_side, Option.map_some, Option.toList_some]
        unfold FiledItems.filed
        rw [List.flatMap_singleton]
        rfl

theorem foldl_files (files : List FileDiff) (reader : HunkReader) :
    (((files.flatMap FileDiff.lines).map content).foldl readHunkLine reader).byPath =
      fileUnder reader.byPath (files.flatMap FileDiff.pairs) := by
  induction files generalizing reader with
  | nil => rfl
  | cons file rest ih =>
      rw [List.flatMap_cons, List.map_append, List.foldl_append, ih, foldl_file, List.flatMap_cons]
      unfold fileUnder
      rw [List.foldl_append]

theorem filed_groups (diff : UnifiedDiff) :
    FiledItems.filed diff.groups = diff.files.flatMap FileDiff.pairs := by
  unfold UnifiedDiff.groups FileDiff.pairs
  induction diff.files with
  | nil => rfl
  | cons file rest ih =>
      rw [List.flatMap_cons, ← ih, List.filterMap_cons]
      cases file.group with
      | none => rfl
      | some group =>
          dsimp only
          rw [FiledItems.filed_cons, Option.toList_some]
          unfold FiledItems.filed
          rw [List.flatMap_singleton]

theorem newline_notMem_sideText {side : String} (free : '\n' ∉ side.toList) (path : Option LineText) :
    '\n' ∉ (sideText side path).toList := by
  cases path with
  | none =>
      change '\n' ∉ "/dev/null".toList
      decide
  | some path =>
      unfold sideText
      rw [String.toList_append, String.toList_append, List.mem_append, List.mem_append, not_or, not_or]
      refine ⟨⟨free, path.lineFree⟩, ?_⟩
      split <;> decide

theorem ZeroContextHunk.newline_notMem_headerText (hunk : ZeroContextHunk) :
    '\n' ∉ hunk.headerText.toList := by
  have numbers : ∀ range, '\n' ∉ (rangeText range).toList := fun range member =>
    (mem_rangeText member).elim (fun same => absurd same (by decide))
      fun digit => absurd digit (by decide)
  have heading : '\n' ∉ (if hunk.heading.text = "" then "" else " " ++ hunk.heading.text).toList := by
    split
    · decide
    · rw [String.toList_append, List.mem_append, not_or]
      exact ⟨by decide, hunk.heading.lineFree⟩
  unfold headerText
  simp only [String.toList_append, List.mem_append, not_or]
  exact ⟨by decide, ⟨⟨⟨⟨by decide, numbers _⟩, by decide⟩, numbers _⟩, by decide⟩, heading⟩

theorem FileDiff.newline_notMem_lines (file : FileDiff) : ∀ line ∈ file.lines, '\n' ∉ line.toList := by
  intro line member
  unfold lines at member
  rcases List.mem_append.mp member with early | later
  · obtain ⟨header, _, rfl⟩ := List.mem_map.mp early
    exact header.line.lineFree
  · split at later
    · cases later
    · rcases List.mem_cons.mp later with rfl | later
      · rw [String.toList_append, List.mem_append, not_or]
        exact ⟨by decide, newline_notMem_sideText (by decide) _⟩
      · rcases List.mem_cons.mp later with rfl | later
        · rw [String.toList_append, List.mem_append, not_or]
          exact ⟨by decide, newline_notMem_sideText (by decide) _⟩
        · obtain ⟨hunk, _, ofHunk⟩ := List.mem_flatMap.mp later
          rcases List.mem_cons.mp ofHunk with rfl | body
          · exact hunk.newline_notMem_headerText
          · obtain ⟨bodyLine, _, rfl⟩ := List.mem_map.mp body
            cases bodyLine with
            | removed line =>
                unfold BodyLine.text
                rw [String.toList_append, List.mem_append, not_or]
                exact ⟨by decide, line.lineFree⟩
            | added line =>
                unfold BodyLine.text
                rw [String.toList_append, List.mem_append, not_or]
                exact ⟨by decide, line.lineFree⟩
            | noNewline => decide

/-- The hunks of a diff are filed under the paths in force. -/
theorem parseUnifiedHunks_text (diff : UnifiedDiff) :
    parseUnifiedHunks diff.text = fileUnder ∅ (FiledItems.filed diff.groups) := by
  have free : ∀ line ∈ diff.files.flatMap FileDiff.lines, '\n' ∉ line.toList := by
    intro line member
    obtain ⟨file, _, ofFile⟩ := List.mem_flatMap.mp member
    exact file.newline_notMem_lines line ofFile
  unfold parseUnifiedHunks UnifiedDiff.text
  rw [textLines_join free, filed_groups]
  exact foldl_files diff.files ⟨none, ∅⟩

theorem getElem?_fileUnder (pairs : List (String × ZeroContextHunk))
    (byPath : Map String (List DiffHunk)) (path : String) :
    (fileUnder byPath pairs)[path]? =
      if FiledItems.under path pairs = [] then byPath[path]?
      else some (byPath[path]?.getD [] ++ (FiledItems.under path pairs).map ZeroContextHunk.parsed) := by
  induction pairs generalizing byPath with
  | nil => rfl
  | cons pair rest ih =>
      have step : fileUnder byPath (pair :: rest) =
          fileUnder (upsert byPath pair.1 [] (· ++ [pair.2.parsed])) rest := rfl
      have split : FiledItems.under path (pair :: rest) =
          FiledItems.under path [pair] ++ FiledItems.under path rest :=
        FiledItems.under_append path [pair] rest
      rw [step, ih, OrderedMap.getElem?_upsert, split]
      by_cases here : pair.1 = path
      · have own : FiledItems.under path [pair] = [pair.2] := by
          unfold FiledItems.under
          rw [List.filter_cons_of_pos (by simpa using here)]
          rfl
        have full : [pair.2] ++ FiledItems.under path rest ≠ [] := List.cons_ne_nil _ _
        rw [if_pos here, own, if_neg full, here]
        split
        · rename_i noMore
          rw [noMore]
          rfl
        · simp
      · have other : FiledItems.under path [pair] = [] := by
          unfold FiledItems.under
          rw [List.filter_cons_of_neg (by simpa using here)]
          rfl
        rw [if_neg here, other, List.nil_append]

/-! ## Hunks that are found under their paths -/

theorem map_own_groups (diff : UnifiedDiff) :
    diff.groups.map FiledItems.Group.own =
      diff.files.filterMap fun file => file.newPath.map LineText.text := by
  unfold UnifiedDiff.groups
  rw [List.map_filterMap]
  congr 1
  funext file
  unfold FileDiff.group
  rw [Option.map_map]
  rfl

theorem mem_groups {diff : UnifiedDiff} {group : FiledItems.Group String ZeroContextHunk} :
    group ∈ diff.groups ↔ ∃ file ∈ diff.files, ∃ path, file.newPath = some path ∧
      group = ⟨path.text, pathsInForce (some (trimEnd path.text)) file.hunks⟩ := by
  unfold UnifiedDiff.groups FileDiff.group
  simp only [List.mem_filterMap, Option.map_eq_some_iff]
  constructor
  · rintro ⟨file, isFile, path, named, rfl⟩
    exact ⟨file, isFile, path, named, rfl⟩
  · rintro ⟨file, isFile, path, named, rfl⟩
    exact ⟨file, isFile, path, named, rfl⟩

/-- The ranges that belong to a path, as the files tell them. -/
theorem hunksFiled_iff (diff : UnifiedDiff) :
    HunksFiled diff (parseUnifiedHunks diff.text) ↔
      ∀ path, FiledItems.under path
          (FiledItems.filed (diff.groups.map (.map ZeroContextHunk.ranges))) =
        FiledItems.under path
          (FiledItems.belonging (diff.groups.map (.map ZeroContextHunk.ranges))) := by
  have distinct : (diff.groups.map FiledItems.Group.own).Nodup := map_own_groups diff ▸ diff.distinct
  have found : ∀ path, ((parseUnifiedHunks diff.text)[path]?.getD []).map DiffHunk.ranges =
      (FiledItems.under path (FiledItems.filed diff.groups)).map ZeroContextHunk.ranges := by
    intro path
    rw [parseUnifiedHunks_text, getElem?_fileUnder]
    split
    · rename_i none
      rw [none]
      rfl
    · rw [Option.getD_some, List.map_append, List.map_map]
      rfl
  have missing : ∀ path, (parseUnifiedHunks diff.text)[path]? = none ↔
      (FiledItems.under path (FiledItems.filed diff.groups)).map ZeroContextHunk.ranges = [] := by
    intro path
    rw [parseUnifiedHunks_text, getElem?_fileUnder, List.map_eq_nil_iff]
    split
    · rename_i none
      exact iff_of_true rfl none
    · rename_i some
      exact iff_of_false (Option.some_ne_none _) some
  have ofFile : ∀ file ∈ diff.files, ∀ path, file.newPath = some path →
      (FiledItems.under path.text (FiledItems.belonging diff.groups)).map ZeroContextHunk.ranges =
        file.hunks.map ZeroContextHunk.ranges := by
    intro file isFile path named
    have listed := mem_groups.mpr ⟨file, isFile, path, named, rfl⟩
    rw [FiledItems.under_belonging distinct listed, pathsInForce_hunks]
  have ofNone : ∀ path, (∀ file ∈ diff.files, file.newPath.map LineText.text ≠ some path) →
      FiledItems.under path (FiledItems.belonging diff.groups) = [] := by
    intro path absent
    refine FiledItems.under_belonging_eq_nil fun group member same => ?_
    obtain ⟨file, isFile, name, named, rfl⟩ := mem_groups.mp member
    exact absent file isFile (by rw [named, ← same]; rfl)
  simp only [FiledItems.filed_map, FiledItems.belonging_map, FiledItems.under_map]
  constructor
  · intro fit path
    by_cases known : ∃ file ∈ diff.files, file.newPath.map LineText.text = some path
    · obtain ⟨file, isFile, named⟩ := known
      obtain ⟨name, newPath, rfl⟩ := Option.map_eq_some_iff.mp named
      rw [← found, fit.own file isFile name newPath, ofFile file isFile name newPath]
    · have absent : ∀ file ∈ diff.files, file.newPath.map LineText.text ≠ some path :=
        fun file isFile same => known ⟨file, isFile, same⟩
      rw [(missing path).mp (fit.noOther path absent), ofNone path absent]
      rfl
  · intro same
    refine ⟨fun file isFile path named => ?_, fun path absent => ?_⟩
    · rw [found, same, ofFile file isFile path named]
    · rw [missing, same, ofNone path absent]
      rfl

/-- The hunks of every file are found under its path exactly if each has that path in force. -/
theorem parseUnifiedHunks_fits_iff (diff : UnifiedDiff) :
    HunksFiled diff (parseUnifiedHunks diff.text) ↔
      ∀ file ∈ diff.files, ∀ path, file.newPath = some path → file.HunksNamed path := by
  rw [hunksFiled_iff, FiledItems.under_eq_iff]
  · constructor
    · intro right file isFile path named labelled member
      have listed := mem_groups.mpr ⟨file, isFile, path, named, rfl⟩
      exact right _ (List.mem_map_of_mem listed) _ (List.mem_map_of_mem member)
    · intro right mapped isMapped item isItem
      obtain ⟨group, isGroup, rfl⟩ := List.mem_map.mp isMapped
      obtain ⟨file, isFile, path, named, rfl⟩ := mem_groups.mp isGroup
      obtain ⟨labelled, member, rfl⟩ := List.mem_map.mp isItem
      exact right file isFile path named labelled member
  · rw [List.map_map]
    exact map_own_groups diff ▸ diff.distinct
  · intro mapped isMapped
    obtain ⟨group, isGroup, rfl⟩ := List.mem_map.mp isMapped
    obtain ⟨file, _, path, _, rfl⟩ := mem_groups.mp isGroup
    have ranges : (pathsInForce (some (trimEnd path.text)) file.hunks).map
        (fun labelled => labelled.2.ranges) = file.hunks.map ZeroContextHunk.ranges := by
      conv_rhs => rw [← pathsInForce_hunks (some (trimEnd path.text)) file.hunks, List.map_map]
      rfl
    unfold FiledItems.Group.map
    rw [List.map_map]
    exact ranges ▸ file.distinct
  · -- a path that an item carries has no blanks at its end, so its own file is read under it
    intro mapped isMapped item isItem otherMapped isOther carried first isFirst
    obtain ⟨group, isGroup, rfl⟩ := List.mem_map.mp isMapped
    obtain ⟨file, _, path, _, rfl⟩ := mem_groups.mp isGroup
    obtain ⟨other, isOtherGroup, rfl⟩ := List.mem_map.mp isOther
    obtain ⟨otherFile, _, otherPath, _, rfl⟩ := mem_groups.mp isOtherGroup
    obtain ⟨labelled, member, rfl⟩ := List.mem_map.mp isItem
    have trimmed := trimmed_pathsInForce (trimmed_trimEnd path.text) file.hunks labelled member
      otherPath.text carried
    unfold FiledItems.Group.map at isFirst
    cases hunks : otherFile.hunks with
    | nil =>
        rw [hunks] at isFirst
        cases isFirst
    | cons hunk rest =>
        rw [hunks] at isFirst
        cases isFirst
        exact congrArg some trimmed

/-! ## An added line that names another file -/

def noText : LineText := ⟨"", by decide⟩

def notesPath : LineText := ⟨"notes.md", by decide⟩

def changedLine (number : UInt64) (old new : LineText) : ZeroContextHunk :=
  ⟨((number, 1), (number, 1)), noText, [.removed old, .added new]⟩

/-- The first hunk adds a line of a patch, such as a text about patches has. -/
def notesDiff : UnifiedDiff where
  files := [{
    headers := [⟨⟨"diff --git a/notes.md b/notes.md", by decide⟩, ⟨_, _, rfl, by decide⟩⟩]
    oldPath := some notesPath
    newPath := some notesPath
    hunks := [changedLine 1 noText ⟨"++ b/other.md", by decide⟩,
      changedLine 9 noText ⟨"new", by decide⟩]
    distinct := by decide
    deletes := fun none => nomatch none }]
  distinct := by decide

theorem second_hunk_elsewhere : ¬ HunksFiled notesDiff (parseUnifiedHunks notesDiff.text) := by
  intro fit
  have own := fit.own _ List.mem_cons_self notesPath rfl
  rw [parseUnifiedHunks_text, getElem?_fileUnder] at own
  have lengths := congrArg List.length own
  exact absurd lengths (by decide +kernel)

end BrickTrace
