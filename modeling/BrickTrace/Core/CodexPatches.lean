import Mathlib.Data.Finset.Max
import BrickTrace.Core.ShellEdits
import BrickTrace.Core.UnifiedHunks

/-!
# The impact of a Codex patch

Two readers take the files out of a patch.  One reads the patch of a tool call, counts its added
and removed lines and understands diffs of git too; the other reads a patch in a shell command.
Both go by how a line begins.
-/

set_option autoImplicit false

namespace BrickTrace

open OrderedMap (KeySet)

/-! ## Reading a patch -/

structure PatchImpact where
  touchedFiles : KeySet String
  linesAdded : UInt64
  linesRemoved : UInt64

def PatchImpact.empty : PatchImpact := ⟨∅, 0, 0⟩

/-- `count.saturating_add(1)`. -/
def saturatingSucc (count : UInt64) : UInt64 := if count.toNat + 1 < 2 ^ 64 then count + 1 else count

def normalizeDiffPath (path : String) : Option String :=
  let trimmed := trimStartOf '\x22' (trimEndOf '\x22' (trim path))
  if trimmed = "/dev/null" then none
  else
    let normalized := ((stripStart trimmed "a/").or (stripStart trimmed "b/")).getD trimmed
    if normalized = "" then none else some normalized

def codexPatchHeaderPath (line : String) : Option String :=
  (stripStart line "*** ").bind fun rest =>
    patchMarkers.findSome? fun marker => ((stripStart rest marker).map trim).filter (· ≠ "")

def PatchImpact.touch (impact : PatchImpact) (path : String) : PatchImpact :=
  match normalizeDiffPath path with
  | some normalized => { impact with touchedFiles := impact.touchedFiles.insert normalized }
  | none => impact

def readPatchLine (impact : PatchImpact) (line : String) : PatchImpact :=
  if startsWith line "*** Begin Patch" || startsWith line "*** End Patch" then impact
  else
    match codexPatchHeaderPath line with
    | some path => impact.touch path
    | none =>
        if startsWith line "*** " then impact
        else
          match stripStart line "diff --git " with
          | some paths => ((whitespaceWords paths).take 2).foldl PatchImpact.touch impact
          | none =>
              match stripStart line "+++ " with
              | some path => impact.touch path
              | none =>
                  if startsWith line "+" && !startsWith line "+++" then
                    { impact with linesAdded := saturatingSucc impact.linesAdded }
                  else if startsWith line "-" && !startsWith line "---" then
                    { impact with linesRemoved := saturatingSucc impact.linesRemoved }
                  else impact

def parsePatchImpact (patch : String) (impact : PatchImpact) : PatchImpact :=
  (textLines patch).foldl readPatchLine impact

/-! ## Patches -/

/-- A path of a patch: not empty, relative and without blanks at its ends. -/
structure PatchPath extends LineText where
  nonempty : text ≠ ""
  trimmed : trim text = text
  relative : startsWith text "/" = false

inductive PatchMarker where
  | addFile
  | updateFile
  | deleteFile
  | moveTo
deriving DecidableEq

def PatchMarker.text : PatchMarker → String
  | .addFile => "Add File:"
  | .updateFile => "Update File:"
  | .deleteFile => "Delete File:"
  | .moveTo => "Move to:"

inductive PatchLine where
  | header (marker : PatchMarker) (path : PatchPath)
  | hunk (heading : LineText)
  | context (line : LineText)
  | added (line : LineText)
  | removed (line : LineText)
  | endOfFile

inductive PatchOp where
  | add (path : PatchPath) (lines : List LineText)
  | update (path : PatchPath) (moveTo : Option PatchPath) (body : List PatchLine)
      (isBody : ∀ marker other, PatchLine.header marker other ∉ body)
  | delete (path : PatchPath)

namespace PatchLine

def text : PatchLine → String
  | .header marker path => "*** " ++ (marker.text ++ (" " ++ path.text))
  | .hunk heading => "@@" ++ heading.text
  | .context line => " " ++ line.text
  | .added line => "+" ++ line.text
  | .removed line => "-" ++ line.text
  | .endOfFile => "*** End of File"

def headerPath : PatchLine → Option String
  | .header _ path => some path.text
  | _ => none

def addedText : PatchLine → Option String
  | .added line => some line.text
  | _ => none

def removedText : PatchLine → Option String
  | .removed line => some line.text
  | _ => none

end PatchLine

def PatchOp.lines : PatchOp → List PatchLine
  | .add path lines => .header .addFile path :: lines.map .added
  | .update path moveTo body _ =>
      .header .updateFile path :: (moveTo.map (PatchLine.header .moveTo)).toList ++ body
  | .delete path => [.header .deleteFile path]

structure CodexPatch where
  ops : List PatchOp
  endsInNewline : Bool

namespace CodexPatch

def lines (patch : CodexPatch) : List PatchLine := patch.ops.flatMap PatchOp.lines

def headerPaths (patch : CodexPatch) : List String := patch.lines.filterMap PatchLine.headerPath

def ending (patch : CodexPatch) : String := if patch.endsInNewline then "\n" else ""

def opsText (patch : CodexPatch) : String :=
  String.join (patch.lines.map fun line => line.text ++ "\n")

def text (patch : CodexPatch) : String :=
  "*** Begin Patch" ++ "\n" ++ (patch.opsText ++ ("*** End Patch" ++ patch.ending))

end CodexPatch

/-- The files that the reader of shell commands takes from one line of a patch. -/
def patchLineTargets (line : String) : List String :=
  patchMarkers.filterMap fun marker =>
    ((stripStart (trimStart line) ("*** " ++ marker)).map fun path => trimQuotes (trim path)).filter
      (· != "")

/-- A command with a patch in it, and no line of a patch elsewhere. -/
structure EmbeddedPatch where
  patch : CodexPatch
  front : String
  back : String
  frontQuiet : ∀ line ∈ textLines (front ++ "*** Begin Patch" ++ "\n"), patchLineTargets line = []
  backQuiet : ∀ line ∈ textLines ("*** End Patch" ++ patch.ending ++ back), patchLineTargets line = []

def EmbeddedPatch.command (embedded : EmbeddedPatch) : String :=
  embedded.front ++ embedded.patch.text ++ embedded.back

/-! ## Patches that are read right -/

/-- Both readers find the paths of the headers, and the added and removed lines are counted. -/
structure PatchReadRight (patch : CodexPatch) (impact : PatchImpact) (targets : List String) : Prop where
  touched : ∀ file, file ∈ impact.touchedFiles ↔ file ∈ patch.headerPaths
  added : impact.linesAdded.toNat = (patch.lines.filterMap PatchLine.addedText).length
  removed : impact.linesRemoved.toNat = (patch.lines.filterMap PatchLine.removedText).length
  targets : ∀ file, file ∈ targets ↔ file ∈ patch.headerPaths

/-- A path that neither reader shortens. -/
def KeptPath (path : String) : Prop :=
  trimQuotes path = path ∧ startsWith path "a/" = false ∧ startsWith path "b/" = false

/-- What a patch has to look like to be read right. -/
structure PatchPlain (patch : CodexPatch) : Prop where
  paths : ∀ path ∈ patch.headerPaths, KeptPath path
  added : ∀ text ∈ patch.lines.filterMap PatchLine.addedText, startsWith text "++" = false
  removed : ∀ text ∈ patch.lines.filterMap PatchLine.removedText, startsWith text "--" = false
  addedFits : (patch.lines.filterMap PatchLine.addedText).length < 2 ^ 64
  removedFits : (patch.lines.filterMap PatchLine.removedText).length < 2 ^ 64
  contexts : ∀ line, PatchLine.context line ∈ patch.lines →
    ∀ file ∈ patchLineTargets (content (PatchLine.context line).text), file ∈ patch.headerPaths

/-! ## Starts of lines -/

theorem startsWith_text_append (front back start : String) :
    startsWith (front ++ back) start = start.toList.isPrefixOf (front.toList ++ back.toList) := by
  unfold startsWith
  rw [String.toList_append]

/-- A carriage return at the end of a line does not matter to its start. -/
theorem startsWith_content {start : String} (keeps : start.toList.getLast? ≠ some '\r') (text : String) :
    startsWith (content text) start = startsWith text start := by
  rw [Bool.eq_iff_iff]
  unfold startsWith content
  rw [String.toList_ofList, List.isPrefixOf_iff_prefix, List.isPrefixOf_iff_prefix]
  constructor
  · intro begins
    refine begins.trans ?_
    unfold lineContent
    split
    · exact List.dropLast_prefix _
    · exact List.prefix_refl _
  · rintro ⟨rest, shape⟩
    rw [← shape, lineContent_append keeps]
    exact List.prefix_append _ _

theorem keeps_of_trimmed {text : String} (trimmed : trim text = text) :
    text.toList.getLast? ≠ some '\r' := by
  intro ends
  obtain ⟨front, shape⟩ := List.getLast?_eq_some_iff.mp ends
  have chars : trimChars text.toList = text.toList := by
    have same := congrArg String.toList trimmed
    unfold trim at same
    rwa [String.toList_ofList] at same
  have whole : trimEndChars text.toList = text.toList := by
    rw [← chars]
    exact trimEndChars_idem _
  rw [shape, trimEndChars_append_of_blanks fun char member => by
    rw [List.mem_singleton.mp member]
    decide] at whole
  obtain ⟨blanks, _, split⟩ := trimEndChars_append_blanks front
  have lengths := congrArg List.length whole
  have parts := congrArg List.length split
  simp only [List.length_append, List.length_singleton] at lengths parts
  omega

theorem content_header (marker : PatchMarker) (path : PatchPath) :
    content (PatchLine.header marker path).text = (PatchLine.header marker path).text := by
  have ends : (PatchLine.header marker path).text.toList.getLast? ≠ some '\r' := by
    have full : path.text.toList ≠ [] := fun empty =>
      path.nonempty (String.toList_injective (by rw [empty]; rfl))
    unfold PatchLine.text
    dsimp only
    rw [← String.append_assoc, ← String.append_assoc, String.toList_append,
      List.getLast?_append_of_ne_nil _ full]
    exact keeps_of_trimmed path.trimmed
  unfold content lineContent
  rw [if_neg ends, String.ofList_toList]

theorem trim_blank_append (text : String) : trim (" " ++ text) = trim text := by
  have chars : (" " ++ text).toList = ' ' :: text.toList := by simp
  unfold trim trimChars
  rw [chars, List.dropWhile_cons_of_pos (by decide)]

/-! ## Headers -/

def patchMarkerList : List PatchMarker := [.addFile, .updateFile, .deleteFile, .moveTo]

theorem patchMarkers_eq : patchMarkers = patchMarkerList.map PatchMarker.text := rfl

theorem startsWith_marker {marker other : PatchMarker} (differs : other ≠ marker) (rest : String) :
    startsWith (marker.text ++ rest) other.text = false := by
  rw [startsWith_text_append]
  cases marker <;> cases other <;> first | rfl | exact absurd rfl differs

theorem stripStart_marker (marker other : PatchMarker) (rest : String) :
    stripStart (marker.text ++ rest) other.text = if other = marker then some rest else none := by
  split
  · rename_i same
    rw [same, stripStart_append]
  · rename_i differs
    exact stripStart_eq_none (startsWith_marker differs rest)

theorem codexPatchHeaderPath_header (marker : PatchMarker) (path : PatchPath) :
    codexPatchHeaderPath (PatchLine.header marker path).text = some path.text := by
  have own : trim (" " ++ path.text) = path.text := by rw [trim_blank_append, path.trimmed]
  have each : (fun other : PatchMarker =>
      ((stripStart (marker.text ++ (" " ++ path.text)) other.text).map trim).filter (· ≠ "")) =
        fun other => if other = marker then some path.text else none := by
    funext other
    rw [stripStart_marker]
    split
    · rw [Option.map_some, own, Option.filter_some, if_pos (decide_eq_true path.nonempty)]
    · rfl
  unfold codexPatchHeaderPath PatchLine.text
  rw [stripStart_append, Option.bind_some, patchMarkers_eq, List.findSome?_map]
  change patchMarkerList.findSome? (fun other : PatchMarker =>
    ((stripStart (marker.text ++ (" " ++ path.text)) other.text).map trim).filter (· ≠ "")) = _
  rw [each]
  cases marker <;> rfl

theorem readPatchLine_header (impact : PatchImpact) (marker : PatchMarker) (path : PatchPath) :
    readPatchLine impact (content (PatchLine.header marker path).text) = impact.touch path.text := by
  have notEnvelope : (startsWith (PatchLine.header marker path).text "*** Begin Patch" ||
      startsWith (PatchLine.header marker path).text "*** End Patch") = false := by
    unfold PatchLine.text
    rw [startsWith_text_append, startsWith_text_append, String.toList_append]
    cases marker <;> rfl
  rw [content_header]
  unfold readPatchLine
  rw [notEnvelope, if_neg Bool.false_ne_true, codexPatchHeaderPath_header]

/-! ## Lines of the body -/

/-- A line that starts with another character has none of the headers. -/
theorem readPatchLine_of_start {line : String} {first : Char} {rest : List Char}
    (start : line.toList = first :: rest) (notStar : first ≠ '*') (notLetter : first ≠ 'd')
    (impact : PatchImpact) :
    readPatchLine impact line =
      match stripStart line "+++ " with
      | some path => impact.touch path
      | none =>
          if startsWith line "+" && !startsWith line "+++" then
            { impact with linesAdded := saturatingSucc impact.linesAdded }
          else if startsWith line "-" && !startsWith line "---" then
            { impact with linesRemoved := saturatingSucc impact.linesRemoved }
          else impact := by
  have noStar : ∀ {text : String} {others : List Char}, text.toList = '*' :: others →
      startsWith line text = false := fun isStar => startsWith_eq_false start isStar notStar
  have noHeader : codexPatchHeaderPath line = none := by
    unfold codexPatchHeaderPath
    rw [stripStart_eq_none (noStar rfl)]
    rfl
  unfold readPatchLine
  rw [noStar (rfl : "*** Begin Patch".toList = _), noStar (rfl : "*** End Patch".toList = _),
    Bool.or_false, if_neg Bool.false_ne_true, noHeader]
  dsimp only
  rw [noStar (rfl : "*** ".toList = _), if_neg Bool.false_ne_true,
    stripStart_eq_none (startsWith_eq_false start (rfl : "diff --git ".toList = _) notLetter)]

/-- A line that starts with neither sign tells nothing either. -/
theorem readPatchLine_quiet {line : String} {first : Char} {rest : List Char}
    (start : line.toList = first :: rest) (notStar : first ≠ '*') (notLetter : first ≠ 'd')
    (notPlus : first ≠ '+') (notMinus : first ≠ '-') (impact : PatchImpact) :
    readPatchLine impact line = impact := by
  rw [readPatchLine_of_start start notStar notLetter,
    stripStart_eq_none (startsWith_eq_false start (rfl : "+++ ".toList = _) notPlus)]
  dsimp only
  rw [startsWith_eq_false start (rfl : "+".toList = _) notPlus,
    startsWith_eq_false start (rfl : "-".toList = _) notMinus]
  rfl

theorem content_cons {front : String} {first : Char} (isFirst : front.toList = [first])
    (notReturn : first ≠ '\r') (back : String) :
    content (front ++ back) = front ++ content back ∧
      (content (front ++ back)).toList = first :: (content back).toList := by
  have keeps : front.toList.getLast? ≠ some '\r' := by
    rw [isFirst]
    simpa using notReturn
  have shape : content (front ++ back) = front ++ content back := by
    unfold content
    rw [String.toList_append, lineContent_append keeps, String.ofList_append, String.ofList_toList]
  refine ⟨shape, ?_⟩
  rw [shape, String.toList_append, isFirst]
  rfl

theorem readPatchLine_added (impact : PatchImpact) (line : LineText) :
    readPatchLine impact (content (PatchLine.added line).text) =
      match stripStart (content line.text) "++ " with
      | some path => impact.touch path
      | none =>
          if startsWith line.text "++" then impact
          else { impact with linesAdded := saturatingSucc impact.linesAdded } := by
  obtain ⟨shape, chars⟩ := @content_cons "+" '+' rfl (by decide) line.text
  have named : stripStart ("+" ++ content line.text) "+++ " = stripStart (content line.text) "++ " := by
    unfold stripStart startsWith
    rw [← shape, chars]
    rfl
  have plus : startsWith ("+" ++ content line.text) "+" = true := startsWith_append _ _
  have plusses : startsWith ("+" ++ content line.text) "+++" = startsWith line.text "++" := by
    rw [← startsWith_content (by decide) line.text]
    unfold startsWith
    rw [← shape, chars]
    rfl
  have minus : startsWith ("+" ++ content line.text) "-" = false :=
    startsWith_eq_false (shape ▸ chars) rfl (by decide)
  change readPatchLine impact (content ("+" ++ line.text)) = _
  rw [readPatchLine_of_start chars (by decide) (by decide), shape, named, plus, plusses, minus]
  cases stripStart (content line.text) "++ " with
  | some path => rfl
  | none => cases startsWith line.text "++" <;> rfl

theorem readPatchLine_removed (impact : PatchImpact) (line : LineText) :
    readPatchLine impact (content (PatchLine.removed line).text) =
      if startsWith line.text "--" then impact
      else { impact with linesRemoved := saturatingSucc impact.linesRemoved } := by
  obtain ⟨shape, chars⟩ := @content_cons "-" '-' rfl (by decide) line.text
  have noName : stripStart ("-" ++ content line.text) "+++ " = none :=
    stripStart_eq_none (startsWith_eq_false (shape ▸ chars) rfl (by decide))
  have plus : startsWith ("-" ++ content line.text) "+" = false :=
    startsWith_eq_false (shape ▸ chars) rfl (by decide)
  have minus : startsWith ("-" ++ content line.text) "-" = true := startsWith_append _ _
  have minusses : startsWith ("-" ++ content line.text) "---" = startsWith line.text "--" := by
    rw [← startsWith_content (by decide) line.text]
    unfold startsWith
    rw [← shape, chars]
    rfl
  change readPatchLine impact (content ("-" ++ line.text)) = _
  rw [readPatchLine_of_start chars (by decide) (by decide), shape, noName, plus, minus, minusses]
  cases startsWith line.text "--" <;> rfl

/-! ## What a line adds to the impact -/

namespace PatchLine

/-- The file that the line is taken to touch. -/
def inserted : PatchLine → Option String
  | .header _ path => normalizeDiffPath path.text
  | .added line => (stripStart (content line.text) "++ ").bind normalizeDiffPath
  | _ => none

def countsAdded (line : PatchLine) : Bool := line.addedText.any fun text => !startsWith text "++"

def countsRemoved (line : PatchLine) : Bool := line.removedText.any fun text => !startsWith text "--"

end PatchLine

def countLimit : Nat := 2 ^ 64 - 1

theorem toNat_saturatingSucc (count : UInt64) :
    (saturatingSucc count).toNat = min (count.toNat + 1) countLimit := by
  have below := count.toNat_lt
  unfold saturatingSucc countLimit
  split
  · rename_i fits
    rw [UInt64.toNat_add]
    change (count.toNat + 1) % 2 ^ 64 = _
    omega
  · omega

/-- One impact is another one with a file and counts added. -/
structure Adds (before after : PatchImpact) (files : String → Prop) (added removed : Nat) : Prop where
  touched : ∀ file, file ∈ after.touchedFiles ↔ file ∈ before.touchedFiles ∨ files file
  linesAdded : after.linesAdded.toNat = min (before.linesAdded.toNat + added) countLimit
  linesRemoved : after.linesRemoved.toNat = min (before.linesRemoved.toNat + removed) countLimit

theorem toNat_eq_min (count : UInt64) : count.toNat = min (count.toNat + 0) countLimit := by
  have below := count.toNat_lt
  unfold countLimit
  omega

theorem adds_touch (impact : PatchImpact) (path : String) :
    Adds impact (impact.touch path) (fun file => normalizeDiffPath path = some file) 0 0 := by
  unfold PatchImpact.touch
  cases normalizeDiffPath path with
  | none => exact ⟨fun file => by simp, toNat_eq_min _, toNat_eq_min _⟩
  | some normalized =>
      refine ⟨fun file => ?_, toNat_eq_min _, toNat_eq_min _⟩
      rw [Std.ExtTreeSet.mem_insert, Std.compare_eq_iff_eq, Option.some.injEq]
      exact or_comm

theorem adds_none (impact : PatchImpact) : Adds impact impact (fun file => none = some file) 0 0 := by
  refine ⟨fun file => ?_, toNat_eq_min _, toNat_eq_min _⟩
  simp

theorem readPatchLine_context (impact : PatchImpact) (line : LineText) :
    readPatchLine impact (content (PatchLine.context line).text) = impact := by
  obtain ⟨_, chars⟩ := @content_cons " " ' ' rfl (by decide) line.text
  exact readPatchLine_quiet chars (by decide) (by decide) (by decide) (by decide) impact

theorem readPatchLine_hunk (impact : PatchImpact) (heading : LineText) :
    readPatchLine impact (content (PatchLine.hunk heading).text) = impact := by
  have shape : (PatchLine.hunk heading).text = "@" ++ ("@" ++ heading.text) := by
    rw [← String.append_assoc]
    rfl
  obtain ⟨_, chars⟩ := @content_cons "@" '@' rfl (by decide) ("@" ++ heading.text)
  rw [shape]
  exact readPatchLine_quiet chars (by decide) (by decide) (by decide) (by decide) impact

/-- An added line that names a file begins with two plus signs. -/
theorem startsWith_of_named {text path : String}
    (named : stripStart (content text) "++ " = some path) : startsWith text "++" = true := by
  have begins : startsWith (content text) "++ " = true := by
    by_contra other
    rw [stripStart_eq_none (Bool.not_eq_true _ ▸ other)] at named
    cases named
  rw [startsWith_content (by decide)] at begins
  unfold startsWith at begins ⊢
  rw [List.isPrefixOf_iff_prefix] at begins ⊢
  have shorter : "++".toList <+: "++ ".toList := ⟨[' '], rfl⟩
  exact shorter.trans begins

theorem adds_added (impact : PatchImpact) (line : LineText) :
    Adds impact (readPatchLine impact (content (PatchLine.added line).text))
      (fun file => (stripStart (content line.text) "++ ").bind normalizeDiffPath = some file)
      (if startsWith line.text "++" then 0 else 1) 0 := by
  rw [readPatchLine_added]
  cases named : stripStart (content line.text) "++ " with
  | some path =>
      rw [Option.bind_some, startsWith_of_named named]
      exact adds_touch impact path
  | none =>
      rw [Option.bind_none]
      cases startsWith line.text "++" with
      | true => exact adds_none impact
      | false => exact ⟨(adds_none impact).touched, toNat_saturatingSucc _, toNat_eq_min _⟩

theorem adds_removed (impact : PatchImpact) (line : LineText) :
    Adds impact (readPatchLine impact (content (PatchLine.removed line).text))
      (fun file => none = some file) 0 (if startsWith line.text "--" then 0 else 1) := by
  rw [readPatchLine_removed]
  cases startsWith line.text "--" with
  | true => exact adds_none impact
  | false => exact ⟨(adds_none impact).touched, toNat_eq_min _, toNat_saturatingSucc _⟩

/-- What a line adds. -/
theorem adds_readPatchLine (impact : PatchImpact) (line : PatchLine) :
    Adds impact (readPatchLine impact (content line.text)) (fun file => line.inserted = some file)
      line.countsAdded.toNat line.countsRemoved.toNat := by
  cases line with
  | header marker path =>
      rw [readPatchLine_header]
      exact adds_touch impact path.text
  | hunk heading =>
      rw [readPatchLine_hunk]
      exact adds_none impact
  | context line =>
      rw [readPatchLine_context]
      exact adds_none impact
  | added line =>
      have adds := adds_added impact line
      unfold PatchLine.countsAdded PatchLine.addedText
      rw [Option.any_some]
      cases marked : startsWith line.text "++" with
      | true =>
          rw [marked] at adds
          exact adds
      | false =>
          rw [marked] at adds
          exact adds
  | removed line =>
      have adds := adds_removed impact line
      unfold PatchLine.countsRemoved PatchLine.removedText
      rw [Option.any_some]
      cases marked : startsWith line.text "--" with
      | true =>
          rw [marked] at adds
          exact adds
      | false =>
          rw [marked] at adds
          exact adds
  | endOfFile => exact adds_none impact

theorem adds_trans {first second third : PatchImpact} {files others : String → Prop}
    {added removed addedAlso removedAlso : Nat} (one : Adds first second files added removed)
    (other : Adds second third others addedAlso removedAlso) :
    Adds first third (fun file => files file ∨ others file) (added + addedAlso)
      (removed + removedAlso) := by
  refine ⟨fun file => ?_, ?_, ?_⟩
  · rw [other.touched, one.touched, or_assoc]
  · rw [other.linesAdded, one.linesAdded]
    omega
  · rw [other.linesRemoved, one.linesRemoved]
    omega

theorem adds_lines (lines : List PatchLine) (impact : PatchImpact) :
    Adds impact ((lines.map fun line => content line.text).foldl readPatchLine impact)
      (fun file => ∃ line ∈ lines, line.inserted = some file)
      (lines.countP PatchLine.countsAdded) (lines.countP PatchLine.countsRemoved) := by
  induction lines generalizing impact with
  | nil => exact ⟨fun file => by simp, toNat_eq_min _, toNat_eq_min _⟩
  | cons line rest ih =>
      have whole := adds_trans (adds_readPatchLine impact line)
        (ih (readPatchLine impact (content line.text)))
      have counts : ∀ counted : PatchLine → Bool,
          (counted line).toNat + rest.countP counted = (line :: rest).countP counted := by
        intro counted
        rw [List.countP_cons, Nat.add_comm]
        cases counted line <;> rfl
      rw [counts, counts] at whole
      refine ⟨fun file => ?_, whole.linesAdded, whole.linesRemoved⟩
      rw [List.map_cons, List.foldl_cons, whole.touched, List.exists_mem_cons_iff]

/-! ## Reading the whole patch -/

theorem PatchLine.newline_notMem_text (line : PatchLine) : '\n' ∉ line.text.toList := by
  cases line with
  | header marker path =>
      unfold PatchLine.text
      simp only [String.toList_append, List.mem_append, not_or]
      exact ⟨by decide, by cases marker <;> decide, by decide, path.lineFree⟩
  | endOfFile =>
      unfold PatchLine.text
      decide
  | hunk line | context line | added line | removed line =>
      unfold PatchLine.text
      simp only [String.toList_append, List.mem_append, not_or]
      exact ⟨by decide, line.lineFree⟩

theorem textLines_ops (patch : CodexPatch) (back : String) :
    textLines (patch.opsText ++ back) =
      (patch.lines.map fun line => content line.text) ++ textLines back := by
  have free : ∀ text ∈ patch.lines.map PatchLine.text, '\n' ∉ text.toList := by
    intro text member
    obtain ⟨line, _, rfl⟩ := List.mem_map.mp member
    exact line.newline_notMem_text
  have joined : patch.opsText =
      String.join ((patch.lines.map PatchLine.text).map fun text => text ++ "\n") := by
    unfold CodexPatch.opsText
    rw [List.map_map]
    rfl
  rw [joined, textLines_join_append free, List.map_map]
  rfl

theorem textLines_text (patch : CodexPatch) :
    textLines patch.text = "*** Begin Patch" ::
      ((patch.lines.map fun line => content line.text) ++ ["*** End Patch"]) := by
  have ending : textLines ("*** End Patch" ++ patch.ending) = ["*** End Patch"] := by
    unfold CodexPatch.ending
    cases patch.endsInNewline <;> rfl
  unfold CodexPatch.text
  rw [textLines_append, textLines_ops, ending]
  rfl

theorem adds_parsePatchImpact (patch : CodexPatch) (impact : PatchImpact) :
    Adds impact (parsePatchImpact patch.text impact)
      (fun file => ∃ line ∈ patch.lines, line.inserted = some file)
      (patch.lines.countP PatchLine.countsAdded) (patch.lines.countP PatchLine.countsRemoved) := by
  unfold parsePatchImpact
  rw [textLines_text, List.foldl_cons, List.foldl_append]
  exact adds_lines patch.lines impact

/-! ## The reader of shell commands -/

/-- Quotes at both ends. -/
theorem trimQuotes_trimQuotes (text : String) : trimQuotes (trimQuotes text) = trimQuotes text := by
  let isQuote : Char → Bool := fun char => char == '\x22' || char == '\x27'
  have ends : ∀ chars : List Char, chars.dropWhile isQuote = chars →
      ((chars.reverse.dropWhile isQuote).reverse).dropWhile isQuote =
        (chars.reverse.dropWhile isQuote).reverse := by
    intro chars start
    cases kept : (chars.reverse.dropWhile isQuote).reverse with
    | nil => rfl
    | cons first rest =>
        have begins : first :: rest <+: chars := by
          rw [← kept, ← List.reverse_suffix, List.reverse_reverse]
          exact List.dropWhile_suffix isQuote
        obtain ⟨back, shape⟩ := begins
        rw [← shape, List.cons_append] at start
        refine List.dropWhile_cons_of_neg fun quote => ?_
        rw [List.dropWhile_cons_of_pos quote] at start
        have shorter := congrArg List.length start
        have suffix := (List.dropWhile_suffix isQuote (l := rest ++ back)).length_le
        rw [List.length_cons] at shorter
        omega
  have same := ends (text.toList.dropWhile isQuote) (List.dropWhile_idempotent ..)
  unfold trimQuotes
  dsimp only
  rw [String.toList_ofList, same, List.reverse_reverse, List.dropWhile_idempotent]

theorem trimQuotes_of_target {line file : String} (found : file ∈ patchLineTargets line) :
    trimQuotes file = file := by
  obtain ⟨marker, _, target⟩ := List.mem_filterMap.mp found
  obtain ⟨path, _, rfl⟩ := Option.map_eq_some_iff.mp (Option.filter_eq_some_iff.mp target).1
  exact trimQuotes_trimQuotes (trim path)

theorem trimStart_of_solid {text : String} {first : Char} {rest : List Char}
    (start : text.toList = first :: rest) (solid : isWhiteSpace first = false) :
    trimStart text = text := by
  unfold trimStart
  rw [start, List.dropWhile_cons_of_neg (by rw [solid]; exact Bool.false_ne_true), ← start,
    String.ofList_toList]

theorem patchLineTargets_quiet {line : String} {first : Char} {rest : List Char}
    (start : line.toList = first :: rest) (solid : isWhiteSpace first = false)
    (notStar : first ≠ '*') : patchLineTargets line = [] := by
  unfold patchLineTargets
  rw [trimStart_of_solid start solid, List.filterMap_eq_nil_iff]
  intro marker _
  have marked : ("*** " ++ marker).toList = '*' :: ("** ".toList ++ marker.toList) := by
    rw [String.toList_append]
    rfl
  rw [stripStart_eq_none (startsWith_eq_false start marked notStar)]
  rfl

theorem stripStart_header (marker other : PatchMarker) (rest : String) :
    stripStart ("*** " ++ (marker.text ++ rest)) ("*** " ++ other.text) =
      if other = marker then some rest else none := by
  split
  · rename_i same
    rw [same, ← String.append_assoc, stripStart_append]
  · rename_i differs
    refine stripStart_eq_none ?_
    rw [startsWith_text_append, String.toList_append, String.toList_append]
    cases marker <;> cases other <;> first | rfl | exact absurd rfl differs

theorem patchLineTargets_header (marker : PatchMarker) (path : PatchPath) :
    patchLineTargets (content (PatchLine.header marker path).text) =
      ([trimQuotes path.text].filter (· != "")) := by
  have start : (PatchLine.header marker path).text.toList =
      '*' :: ("** ".toList ++ (marker.text ++ (" " ++ path.text)).toList) := by
    unfold PatchLine.text
    dsimp only
    rw [String.toList_append]
    rfl
  have each : (fun other : PatchMarker =>
      ((stripStart (PatchLine.header marker path).text ("*** " ++ other.text)).map
        fun path => trimQuotes (trim path)).filter (· != "")) =
      fun other => if other = marker then
        (some (trimQuotes path.text)).filter (· != "") else none := by
    funext other
    unfold PatchLine.text
    dsimp only
    rw [stripStart_header]
    split
    · rw [Option.map_some, trim_blank_append, path.trimmed]
    · rfl
  rw [content_header]
  unfold patchLineTargets
  rw [trimStart_of_solid start (by decide), patchMarkers_eq, List.filterMap_map]
  change patchMarkerList.filterMap (fun other : PatchMarker =>
    ((stripStart (PatchLine.header marker path).text ("*** " ++ other.text)).map
      fun path => trimQuotes (trim path)).filter (· != "")) = _
  rw [each, List.filter_cons, Option.filter_some]
  cases trimQuotes path.text != "" <;> cases marker <;> rfl

/-- The files that the reader of shell commands takes from the lines of a patch. -/
theorem mem_applyPatchTargets (command file : String) :
    file ∈ applyPatchTargets command ↔ ∃ line ∈ textLines command, file ∈ patchLineTargets line := by
  unfold applyPatchTargets
  rw [mem_sortedTexts, List.mem_flatMap]
  rfl

theorem mem_shellEditTargets (embedded : EmbeddedPatch) (file : String) :
    file ∈ shellEditTargets embedded.command ↔
      ∃ line ∈ embedded.patch.lines, file ∈ patchLineTargets (content line.text) := by
  have hasPatch : containsText embedded.command "*** Begin Patch" = true := by
    unfold containsText EmbeddedPatch.command CodexPatch.text
    refine decide_eq_true ⟨embedded.front.toList, ("\n" ++ (embedded.patch.opsText ++
      ("*** End Patch" ++ embedded.patch.ending)) ++ embedded.back).toList, ?_⟩
    simp only [String.toList_append, List.append_assoc]
  have shape : embedded.command = embedded.front ++ "*** Begin Patch" ++ "\n" ++
      (embedded.patch.opsText ++ ("*** End Patch" ++ embedded.patch.ending ++ embedded.back)) := by
    unfold EmbeddedPatch.command CodexPatch.text
    simp only [String.append_assoc]
  unfold shellEditTargets
  rw [if_pos hasPatch, mem_applyPatchTargets, shape, textLines_append, textLines_ops]
  constructor
  · rintro ⟨text, member, target⟩
    rcases List.mem_append.mp member with early | later
    · rw [embedded.frontQuiet text early] at target
      cases target
    · rcases List.mem_append.mp later with ofPatch | late
      · obtain ⟨line, isLine, rfl⟩ := List.mem_map.mp ofPatch
        exact ⟨line, isLine, target⟩
      · rw [embedded.backQuiet text late] at target
        cases target
  · rintro ⟨line, member, target⟩
    exact ⟨_, List.mem_append_right _ (List.mem_append_left _ (List.mem_map_of_mem member)), target⟩

/-! ## Paths that are kept -/

/-- What makes a text smaller whenever it changes it, and still finds all texts of a list, changes
none of them. -/
theorem kept_of_found {shorten : String → Option String} {texts : List String}
    (shorter : ∀ text short, shorten text = some short → short = text ∨ short.length < text.length)
    (found : ∀ text ∈ texts, ∃ other ∈ texts, shorten other = some text) :
    ∀ text ∈ texts, shorten text = some text := by
  by_contra changed
  push Not at changed
  obtain ⟨text, member, differs⟩ := changed
  have nonempty : (texts.filter fun text => shorten text ≠ some text).toFinset.Nonempty :=
    ⟨text, by simpa using ⟨member, differs⟩⟩
  obtain ⟨longest, isLongest, longer⟩ := Finset.exists_max_image _ String.length nonempty
  rw [List.mem_toFinset, List.mem_filter, decide_eq_true_eq] at isLongest
  obtain ⟨other, isOther, becomes⟩ := found longest isLongest.1
  rcases shorter other longest becomes with rfl | less
  · exact isLongest.2 becomes
  · have otherChanged : shorten other ≠ some other := by
      rw [becomes]
      intro same
      rw [Option.some.inj same] at less
      exact Nat.lt_irrefl _ less
    have bound := longer other (by simpa using ⟨isOther, otherChanged⟩)
    omega

theorem stripStart_sublist {text start rest : String} (found : stripStart text start = some rest) :
    rest.toList.Sublist text.toList ∧ (start ≠ "" → rest.length < text.length) := by
  unfold stripStart at found
  split at found
  · rename_i begins
    cases found
    obtain ⟨back, shape⟩ := List.isPrefixOf_iff_prefix.mp begins
    rw [String.toList_ofList]
    refine ⟨List.drop_sublist _ _, fun nonempty => ?_⟩
    have total : text.length = start.length + back.length := by
      rw [← String.length_toList, ← shape, List.length_append, String.length_toList]
    have positive : 0 < start.length := by
      rw [← String.length_toList, List.length_pos_iff]
      exact fun empty => nonempty (String.toList_injective (by rw [empty]; rfl))
    rw [← String.length_toList, String.toList_ofList, List.length_drop, String.length_toList]
    omega
  · cases found

theorem trimBoth_sublist (keep : Char → Bool) (chars : List Char) :
    ((chars.dropWhile keep).reverse.dropWhile keep).reverse.Sublist chars := by
  rw [← List.reverse_sublist, List.reverse_reverse]
  exact (List.dropWhile_sublist _).trans (List.reverse_sublist.mpr (List.dropWhile_sublist _))

theorem trim_sublist (text : String) : (trim text).toList.Sublist text.toList := by
  unfold trim trimChars
  rw [String.toList_ofList]
  exact trimBoth_sublist isWhiteSpace text.toList

theorem trimOf_sublist (char : Char) (text : String) :
    (trimStartOf char (trimEndOf char text)).toList.Sublist text.toList := by
  unfold trimStartOf trimEndOf
  rw [String.toList_ofList, String.toList_ofList]
  refine (List.dropWhile_sublist _).trans ?_
  rw [← List.reverse_sublist, List.reverse_reverse]
  exact List.dropWhile_sublist _

theorem normalizeDiffPath_sublist {path short : String}
    (found : normalizeDiffPath path = some short) : short.toList.Sublist path.toList := by
  have quoteless := (trimOf_sublist '\x22' (trim path)).trans (trim_sublist path)
  unfold normalizeDiffPath at found
  dsimp only at found
  generalize trimStartOf '\x22' (trimEndOf '\x22' (trim path)) = trimmed at found quoteless
  have stripped : (((stripStart trimmed "a/").or (stripStart trimmed "b/")).getD trimmed).toList.Sublist
      trimmed.toList := by
    cases old : stripStart trimmed "a/" with
    | some rest => exact (stripStart_sublist old).1
    | none =>
        cases new : stripStart trimmed "b/" with
        | some rest => exact (stripStart_sublist new).1
        | none => exact List.Sublist.refl _
  generalize ((stripStart trimmed "a/").or (stripStart trimmed "b/")).getD trimmed = normalized
    at found stripped
  by_cases null : trimmed = "/dev/null"
  · rw [if_pos null] at found
    cases found
  · rw [if_neg null] at found
    by_cases empty : normalized = ""
    · rw [if_pos empty] at found
      cases found
    · rw [if_neg empty] at found
      cases found
      exact stripped.trans quoteless

theorem normalizeDiffPath_shorter (path short : String) (found : normalizeDiffPath path = some short) :
    short = path ∨ short.length < path.length := by
  have sublist := normalizeDiffPath_sublist found
  rcases Nat.lt_or_ge short.length path.length with less | same
  · exact Or.inr less
  · left
    apply String.toList_injective
    exact sublist.eq_of_length_le (by rwa [String.length_toList, String.length_toList])

/-- Quotes of one kind are kept with the quotes of both. -/
theorem trimOf_of_trimQuotes {text : String} (kept : trimQuotes text = text) :
    trimStartOf '\x22' (trimEndOf '\x22' text) = text := by
  let isQuote : Char → Bool := fun char => char == '\x22' || char == '\x27'
  have stays : ∀ chars : List Char, chars.dropWhile isQuote = chars →
      chars.dropWhile (· == '\x22') = chars := by
    intro chars whole
    cases chars with
    | nil => rfl
    | cons first rest =>
        refine List.dropWhile_cons_of_neg fun isDouble => ?_
        have quote : isQuote first = true := by
          change (first == '\x22' || first == '\x27') = true
          rw [isDouble]
          rfl
        rw [List.dropWhile_cons_of_pos quote] at whole
        have lengths := congrArg List.length whole
        have suffix := (List.dropWhile_suffix isQuote (l := rest)).length_le
        rw [List.length_cons] at lengths
        omega
  have chars : ((text.toList.dropWhile isQuote).reverse.dropWhile isQuote).reverse = text.toList := by
    have same := congrArg String.toList kept
    unfold trimQuotes at same
    dsimp only at same
    rwa [String.toList_ofList] at same
  have inner := (trimBoth_sublist isQuote text.toList).length_le
  have front : text.toList.dropWhile isQuote = text.toList := by
    refine (List.dropWhile_suffix isQuote).eq_of_length_le ?_
    have outer : ((text.toList.dropWhile isQuote).reverse.dropWhile isQuote).reverse.length ≤
        (text.toList.dropWhile isQuote).length := by
      rw [List.length_reverse]
      exact (List.dropWhile_sublist _).length_le.trans (List.length_reverse ..).le
    rwa [chars] at outer
  have back : text.toList.reverse.dropWhile isQuote = text.toList.reverse := by
    rw [front] at chars
    have reversed := congrArg List.reverse chars
    rwa [List.reverse_reverse] at reversed
  unfold trimStartOf trimEndOf
  rw [String.toList_ofList, stays _ back, List.reverse_reverse, stays _ front, String.ofList_toList]

/-- Without quotes at its ends a path is kept exactly if it is not below `a` or `b`. -/
theorem normalizeDiffPath_kept_iff (path : PatchPath) (kept : trimQuotes path.text = path.text) :
    normalizeDiffPath path.text = some path.text ↔
      startsWith path.text "a/" = false ∧ startsWith path.text "b/" = false := by
  have notNull : path.text ≠ "/dev/null" := by
    intro same
    have absolute := path.relative
    rw [same] at absolute
    cases absolute
  have quoteless : trimStartOf '\x22' (trimEndOf '\x22' (trim path.text)) = path.text := by
    rw [path.trimmed, trimOf_of_trimQuotes kept]
  unfold normalizeDiffPath
  dsimp only
  rw [quoteless, if_neg notNull]
  have begins : ∀ start : String, start ≠ "" → stripStart path.text start ≠ some path.text :=
    fun start nonempty whole => Nat.lt_irrefl _ ((stripStart_sublist whole).2 nonempty)
  have marked : ∀ start : String, stripStart path.text start = none → startsWith path.text start = false := by
    intro start none
    unfold stripStart at none
    by_contra begins
    rw [if_pos (Bool.not_eq_false _ ▸ begins)] at none
    cases none
  constructor
  · intro same
    have unchanged :
        ((stripStart path.text "a/").or (stripStart path.text "b/")).getD path.text = path.text := by
      by_cases empty :
          ((stripStart path.text "a/").or (stripStart path.text "b/")).getD path.text = ""
      · rw [if_pos empty] at same
        exact absurd same (Option.some_ne_none _).symm
      · rw [if_neg empty] at same
        exact Option.some.inj same
    cases old : stripStart path.text "a/" with
    | some rest =>
        rw [old, Option.some_or, Option.getD_some] at unchanged
        exact absurd (unchanged ▸ old) (begins "a/" (by decide))
    | none =>
        cases new : stripStart path.text "b/" with
        | some rest =>
            rw [old, Option.none_or, new, Option.getD_some] at unchanged
            exact absurd (unchanged ▸ new) (begins "b/" (by decide))
        | none => exact ⟨marked "a/" old, marked "b/" new⟩
  · rintro ⟨notOld, notNew⟩
    rw [stripStart_eq_none notOld, stripStart_eq_none notNew]
    exact if_neg path.nonempty

/-! ## Patches that are read right -/

theorem countP_addedText (lines : List PatchLine) :
    lines.countP PatchLine.countsAdded =
      (lines.filterMap PatchLine.addedText).countP fun text => !startsWith text "++" := by
  rw [List.countP_filterMap]
  refine List.countP_congr fun line _ => ?_
  unfold PatchLine.countsAdded
  cases line.addedText <;> simp

theorem countP_removedText (lines : List PatchLine) :
    lines.countP PatchLine.countsRemoved =
      (lines.filterMap PatchLine.removedText).countP fun text => !startsWith text "--" := by
  rw [List.countP_filterMap]
  refine List.countP_congr fun line _ => ?_
  unfold PatchLine.countsRemoved
  cases line.removedText <;> simp

/-- A saturating count is right exactly if all lines count and there are not too many. -/
theorem counted_iff (texts : List String) (marked : String → Bool) :
    min (0 + texts.countP fun text => !marked text) countLimit = texts.length ↔
      (∀ text ∈ texts, marked text = false) ∧ texts.length < 2 ^ 64 := by
  have most := List.countP_le_length (p := fun text => !marked text) (l := texts)
  have all : (texts.countP fun text => !marked text) = texts.length ↔
      ∀ text ∈ texts, marked text = false := by
    rw [List.countP_eq_length]
    simp
  rw [← all]
  unfold countLimit
  omega

theorem mem_headerPaths {patch : CodexPatch} {file : String} :
    file ∈ patch.headerPaths ↔
      ∃ marker path, PatchLine.header marker path ∈ patch.lines ∧ path.text = file := by
  unfold CodexPatch.headerPaths
  rw [List.mem_filterMap]
  constructor
  · rintro ⟨line, member, isHeader⟩
    cases line with
    | header marker path => exact ⟨marker, path, member, Option.some.inj isHeader⟩
    | hunk | context | added | removed | endOfFile => cases isHeader
  · rintro ⟨marker, path, member, rfl⟩
    exact ⟨_, member, rfl⟩

/-- Without added lines that look like names, only headers touch files. -/
theorem inserted_iff {patch : CodexPatch}
    (unnamed : ∀ text ∈ patch.lines.filterMap PatchLine.addedText, startsWith text "++" = false)
    (file : String) :
    (∃ line ∈ patch.lines, line.inserted = some file) ↔
      ∃ path ∈ patch.headerPaths, normalizeDiffPath path = some file := by
  constructor
  · rintro ⟨line, member, inserts⟩
    cases line with
    | header marker path => exact ⟨path.text, mem_headerPaths.mpr ⟨marker, path, member, rfl⟩, inserts⟩
    | added line =>
        obtain ⟨path, named, _⟩ := Option.bind_eq_some_iff.mp inserts
        have plain := unnamed line.text (List.mem_filterMap.mpr ⟨_, member, rfl⟩)
        rw [startsWith_of_named named] at plain
        cases plain
    | hunk | context | removed | endOfFile => cases inserts
  · rintro ⟨path, isHeader, normal⟩
    obtain ⟨marker, header, member, rfl⟩ := mem_headerPaths.mp isHeader
    exact ⟨_, member, normal⟩

/-- The files that a body line tells the reader of shell commands. -/
theorem patchLineTargets_body {line : PatchLine} {file : String}
    (found : file ∈ patchLineTargets (content line.text)) :
    (∃ marker path, line = .header marker path ∧ file = trimQuotes path.text) ∨
      ∃ text, line = .context text := by
  cases line with
  | header marker path =>
      rw [patchLineTargets_header] at found
      exact Or.inl ⟨marker, path, rfl, List.mem_singleton.mp (List.mem_of_mem_filter found)⟩
  | context text => exact Or.inr ⟨text, rfl⟩
  | hunk heading =>
      have shape : (PatchLine.hunk heading).text = "@" ++ ("@" ++ heading.text) := by
        rw [← String.append_assoc]
        rfl
      obtain ⟨_, chars⟩ := @content_cons "@" '@' rfl (by decide) ("@" ++ heading.text)
      rw [shape, patchLineTargets_quiet chars (by decide) (by decide)] at found
      cases found
  | added text =>
      obtain ⟨_, chars⟩ := @content_cons "+" '+' rfl (by decide) text.text
      have none : patchLineTargets (content (PatchLine.added text).text) = [] :=
        patchLineTargets_quiet chars (by decide) (by decide)
      rw [none] at found
      cases found
  | removed text =>
      obtain ⟨_, chars⟩ := @content_cons "-" '-' rfl (by decide) text.text
      have none : patchLineTargets (content (PatchLine.removed text).text) = [] :=
        patchLineTargets_quiet chars (by decide) (by decide)
      rw [none] at found
      cases found
  | endOfFile =>
      have none : patchLineTargets (content PatchLine.endOfFile.text) = [] := by decide +kernel
      rw [none] at found
      cases found

/-- The reader of shell commands finds the headers exactly if quotes at the ends of their paths
and contexts that look like headers do not mislead it. -/
theorem targets_iff (embedded : EmbeddedPatch) :
    (∀ file, file ∈ shellEditTargets embedded.command ↔ file ∈ embedded.patch.headerPaths) ↔
      (∀ path ∈ embedded.patch.headerPaths, trimQuotes path = path) ∧
        ∀ line, PatchLine.context line ∈ embedded.patch.lines →
          ∀ file ∈ patchLineTargets (content (PatchLine.context line).text),
            file ∈ embedded.patch.headerPaths := by
  simp only [mem_shellEditTargets]
  constructor
  · intro same
    refine ⟨fun path isHeader => ?_, fun line member file target => ?_⟩
    · obtain ⟨line, _, target⟩ := (same path).mpr isHeader
      exact trimQuotes_of_target target
    · exact (same file).mp ⟨_, member, target⟩
  · rintro ⟨kept, contexts⟩ file
    constructor
    · rintro ⟨line, member, target⟩
      rcases patchLineTargets_body target with ⟨marker, path, rfl, rfl⟩ | ⟨text, rfl⟩
      · have isHeader := mem_headerPaths.mpr ⟨marker, path, member, rfl⟩
        rwa [kept path.text isHeader]
      · exact contexts text member file target
    · intro isHeader
      obtain ⟨marker, path, member, rfl⟩ := mem_headerPaths.mp isHeader
      refine ⟨_, member, ?_⟩
      rw [patchLineTargets_header, kept path.text isHeader]
      simpa using path.nonempty

/-- A patch is read right by both readers exactly if it is plain. -/
theorem patch_read_right_iff (embedded : EmbeddedPatch) :
    PatchReadRight embedded.patch (parsePatchImpact embedded.patch.text .empty)
        (shellEditTargets embedded.command) ↔
      PatchPlain embedded.patch := by
  have adds := adds_parsePatchImpact embedded.patch .empty
  have touched : ∀ file, file ∈ (parsePatchImpact embedded.patch.text .empty).touchedFiles ↔
      ∃ line ∈ embedded.patch.lines, line.inserted = some file := by
    intro file
    rw [adds.touched]
    exact or_iff_right Std.ExtTreeSet.not_mem_empty
  have added := counted_iff (embedded.patch.lines.filterMap PatchLine.addedText)
    (startsWith · "++")
  have removed := counted_iff (embedded.patch.lines.filterMap PatchLine.removedText)
    (startsWith · "--")
  rw [← countP_addedText] at added
  rw [← countP_removedText] at removed
  constructor
  · intro right
    obtain ⟨plainAdded, addedFits⟩ := added.mp (adds.linesAdded.symm.trans right.added)
    obtain ⟨plainRemoved, removedFits⟩ := removed.mp (adds.linesRemoved.symm.trans right.removed)
    obtain ⟨quoteless, contexts⟩ := (targets_iff embedded).mp right.targets
    have found : ∀ path ∈ embedded.patch.headerPaths,
        ∃ other ∈ embedded.patch.headerPaths, normalizeDiffPath other = some path := fun path isHeader =>
      (inserted_iff plainAdded path).mp ((touched path).mp ((right.touched path).mpr isHeader))
    have normal := kept_of_found normalizeDiffPath_shorter found
    refine ⟨fun path isHeader => ?_, plainAdded, plainRemoved, addedFits, removedFits, contexts⟩
    obtain ⟨marker, header, _, rfl⟩ := mem_headerPaths.mp isHeader
    exact ⟨quoteless _ isHeader,
      (normalizeDiffPath_kept_iff header (quoteless _ isHeader)).mp (normal _ isHeader)⟩
  · intro plain
    refine ⟨fun file => ?_, ?_, ?_, ?_⟩
    · have normal : ∀ path ∈ embedded.patch.headerPaths, normalizeDiffPath path = some path := by
        intro path isHeader
        obtain ⟨marker, header, _, rfl⟩ := mem_headerPaths.mp isHeader
        exact (normalizeDiffPath_kept_iff header (plain.paths _ isHeader).1).mpr
          (plain.paths _ isHeader).2
      rw [touched, inserted_iff plain.added]
      constructor
      · rintro ⟨path, isHeader, becomes⟩
        rw [normal path isHeader] at becomes
        exact Option.some.inj becomes ▸ isHeader
      · exact fun isHeader => ⟨file, isHeader, normal file isHeader⟩
    · exact adds.linesAdded.trans (added.mpr ⟨plain.added, plain.addedFits⟩)
    · exact adds.linesRemoved.trans (removed.mpr ⟨plain.removed, plain.removedFits⟩)
    · exact (targets_iff embedded).mpr ⟨fun path isHeader => (plain.paths path isHeader).1, plain.contexts⟩

/-! ## A path below a directory that is named a -/

def pathBelowA : PatchPath where
  text := "a/lib.rs"
  lineFree := by decide
  nonempty := by decide
  trimmed := by decide
  relative := by decide

def deletionBelowA : EmbeddedPatch where
  patch := ⟨[.delete pathBelowA], true⟩
  front := "apply_patch <<'EOF'\n"
  back := "EOF\n"
  frontQuiet := by decide +kernel
  backQuiet := by decide +kernel

theorem directory_lost : ¬ PatchReadRight deletionBelowA.patch
    (parsePatchImpact deletionBelowA.patch.text .empty)
    (shellEditTargets deletionBelowA.command) := by
  intro right
  have touched := (right.touched "lib.rs").mp ?_
  · exact absurd touched (by decide)
  · rw [(adds_parsePatchImpact deletionBelowA.patch .empty).touched]
    exact Or.inr ⟨.header .deleteFile pathBelowA, List.mem_cons_self, by decide +kernel⟩

end BrickTrace
