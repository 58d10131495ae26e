import BrickTrace.Lib.StableSort
import BrickTrace.Core.FileAnchors
import BrickTrace.Cli.ExplainFinish

/-!
# What an agent is told before it reads a file

Before an agent reads a file, a hook tells it why the file looks as it does, from the newest
captured diff of the file.  The hook has a predicate of its own on paths, which takes a name
for another one that it merely ends with.
-/

set_option autoImplicit false

namespace BrickTrace

/-! ## The hook -/

/-- The file that a call of a tool is about. -/
def parseHookFilePath (hookInput : Json) : Option String :=
  (hookInput.get "tool_input").bind fun toolInput =>
    ["file_path", "path", "notebook_path"].findSome? fun name =>
      ((toolInput.get name).bind Json.decodeString).bind unlessEmpty

def truncate (value : String) (maxChars : Nat) : String :=
  if maxChars < value.length then String.ofList (value.toList.take maxChars) ++ "…" else value

def hookRel (filePath : String) : String := String.ofList (trimDotSlashes filePath.toList)

/-- Whether one of two texts ends with the other. -/
def endsTogether (path rel : String) : Bool := path = rel || endsWith path rel || endsWith rel path

def diffTouchesPath (event : TraceEvent) (rel : String) : Bool :=
  (changedPaths event).any fun paths => paths.any fun path => path.any (endsTogether · rel)

/-- The captured diffs that the hook takes for those of the file, the newest first. -/
def hookMatches (events : List TraceEvent) (filePath : String) : List TraceEvent :=
  ((events.filter (·.eventType = .diffCaptured)).filter
    (diffTouchesPath · (hookRel filePath))).mergeSort occurredLater

section Context
variable (rfc3339 : DateTime → String) (events : List TraceEvent)

/-- What is told of the first of the diffs. -/
def explainHookContext (rel : String) (diffs : List TraceEvent) : Option String :=
  match diffs with
  | [] => none
  | newest :: _ =>
      let anchor := resolveDirectAnchor events newest.eventId.text
      let whys := (explainFromEvents rfc3339 events anchor defaultExplainDepth).steps.filterMap
        CausalStep.note
      if whys.isEmpty then none
      else
        some ("Brick causal memory — WHY this file looks the way it does (prefer this over " ++
          "re-deriving from the code or git log):\n" ++
          String.join ((whys.take 4).map fun why => "- " ++ truncate why 200 ++ "\n") ++
          "Run \x60brick explain " ++ rel ++ ":<line>\x60 for the full causal chain on a specific line.")

def buildExplainHookContext (filePath : String) : Option String :=
  explainHookContext rfc3339 events (hookRel filePath) (hookMatches events filePath)

end Context

/-! ## The diffs of a file -/

/-- The events that a file anchor is resolved to. -/
def fileAnchorEvents (events : List TraceEvent) (path : String) : List TraceEvent :=
  (events.filter (fileEventTouches · (anchorRel path))).mergeSort occurredLater

theorem resolvedEvents_resolveFileAnchor (events : List TraceEvent) (path : String) :
    (resolveFileAnchor events path).resolvedEvents =
      (fileAnchorEvents events path).map (·.eventId.text) := rfl

/-- The hook considers the captured diffs that the anchor is resolved to. -/
def HookAgrees (events : List TraceEvent) (filePath : String) : Prop :=
  hookMatches events filePath =
    (fileAnchorEvents events filePath).filter (·.eventType = .diffCaptured)

/-- The paths that a captured diff changed. -/
def recordedPaths (event : TraceEvent) : List String := ((changedPaths event).getD []).filterMap id

/-- One text ends in the other, within a name. -/
def endsBare (full suffix : String) : Bool :=
  (stripEnd full suffix).any fun head => head ≠ "" && !endsWith head "/"

def endsWithinName (path rel : String) : Bool := endsBare path rel || endsBare rel path

/-- Whether a path belongs to the file for the anchor. -/
def belongs (filePath path : String) : Bool := endsAlike (recordedRel path) (anchorRel filePath)

/-- A diff on which an ending within a name, blanks and a leading `./` make no difference. -/
structure HookReadsAlike (filePath : String) (paths : List String) : Prop where
  name : ∀ path ∈ paths, endsWithinName path (hookRel filePath) = true →
    ∃ other ∈ paths, belongs filePath other = true
  written : ∀ path ∈ paths, endsAlike path (hookRel filePath) = true →
    ∃ other ∈ paths, belongs filePath other = true
  trimmed : ∀ path ∈ paths, belongs filePath path = true → ∃ other ∈ paths,
    endsAlike other (hookRel filePath) = true ∨ endsWithinName other (hookRel filePath) = true

theorem endsWith_iff_suffix_or_bare {full suffix : String} :
    endsWith full suffix = true ↔
      pathSuffixMatches full suffix = true ∨ endsBare full suffix = true := by
  constructor
  · intro isEnding
    obtain ⟨head, rfl⟩ := endsWith_iff.mp isEnding
    unfold pathSuffixMatches endsBare
    rw [stripEnd_append]
    by_cases isEmpty : head = ""
    · rw [isEmpty, String.empty_append]
      simp
    · cases atSlash : endsWith head "/" with
      | true => simp [atSlash]
      | false => simp [atSlash, isEmpty]
  · rintro (alike | bare)
    · rcases pathSuffixMatches_iff.mp alike with rfl | atSlash
      · exact endsWith_iff.mpr ⟨"", (String.empty_append).symm⟩
      · obtain ⟨head, rfl⟩ := endsWith_iff.mp atSlash
        exact endsWith_iff.mpr ⟨head ++ "/", (String.append_assoc ..).symm⟩
    · obtain ⟨head, stripped, _⟩ := (Option.any_eq_true _ _).mp bare
      exact endsWith_iff.mpr ⟨head, eq_append_of_stripEnd stripped⟩

theorem endsTogether_iff {path rel : String} :
    endsTogether path rel = true ↔ endsAlike path rel = true ∨ endsWithinName path rel = true := by
  unfold endsTogether endsAlike endsWithinName
  simp only [Bool.or_eq_true, decide_eq_true_eq, endsWith_iff_suffix_or_bare]
  constructor
  · rintro ((rfl | left) | right)
    · exact .inl (.inl (pathSuffixMatches_iff.mpr (.inl rfl)))
    · exact left.elim (fun alike => .inl (.inl alike)) fun bare => .inr (.inl bare)
    · exact right.elim (fun alike => .inl (.inr alike)) fun bare => .inr (.inr bare)
  · rintro ((left | right) | left | right)
    · exact .inl (.inr (.inl left))
    · exact .inr (.inl right)
    · exact .inl (.inr (.inr left))
    · exact .inr (.inr right)

section Events
variable {events : List TraceEvent} {event : TraceEvent} {filePath : String}

theorem any_changedPaths (test : String → Bool) :
    ((changedPaths event).any fun paths => paths.any fun path => path.any test) =
      (recordedPaths event).any test := by
  unfold recordedPaths
  cases changedPaths event with
  | none => rfl
  | some paths =>
      rw [Option.any_some, Option.getD_some, List.any_filterMap]
      rfl

theorem diffTouchesPath_iff : diffTouchesPath event (hookRel filePath) = true ↔
    ∃ path ∈ recordedPaths event,
      endsAlike path (hookRel filePath) = true ∨ endsWithinName path (hookRel filePath) = true := by
  unfold diffTouchesPath
  rw [any_changedPaths, List.any_eq_true]
  simp only [endsTogether_iff]

theorem diffEventTouches_iff : diffEventTouches event (anchorRel filePath) = true ↔
    ∃ path ∈ recordedPaths event, belongs filePath path = true := by
  unfold diffEventTouches
  rw [any_changedPaths, List.any_eq_true]
  simp only [pathMatchesRel_anchorRel, belongs]

/-- The two predicates agree on a diff exactly when it reads alike. -/
theorem diffTouches_eq_iff :
    diffTouchesPath event (hookRel filePath) = diffEventTouches event (anchorRel filePath) ↔
      HookReadsAlike filePath (recordedPaths event) := by
  rw [Bool.eq_iff_iff, diffTouchesPath_iff, diffEventTouches_iff]
  constructor
  · intro agree
    exact ⟨fun path member bare => agree.mp ⟨path, member, .inr bare⟩,
      fun path member alike => agree.mp ⟨path, member, .inl alike⟩,
      fun path member isOf => agree.mpr ⟨path, member, isOf⟩⟩
  · intro alike
    constructor
    · rintro ⟨path, member, written | bare⟩
      · exact alike.written path member written
      · exact alike.name path member bare
    · rintro ⟨path, member, isOf⟩
      exact alike.trimmed path member isOf

theorem occurredLater_trans (first second third : TraceEvent)
    (left : occurredLater first second = true) (right : occurredLater second third = true) :
    occurredLater first third = true :=
  StableSort.larger_trans (fun event : TraceEvent => event.occurredAt.nanoseconds) first second third
    left right

theorem occurredLater_total (left right : TraceEvent) :
    (occurredLater left right || occurredLater right left) = true :=
  StableSort.larger_total (fun event : TraceEvent => event.occurredAt.nanoseconds) left right

/-- The captured diffs of an anchor, taken before they are sorted. -/
theorem diffs_of_fileAnchorEvents :
    (fileAnchorEvents events filePath).filter (·.eventType = .diffCaptured) =
      ((events.filter (·.eventType = .diffCaptured)).filter
        (diffEventTouches · (anchorRel filePath))).mergeSort occurredLater := by
  unfold fileAnchorEvents
  rw [StableSort.filter_mergeSort occurredLater_trans occurredLater_total, List.filter_filter,
    List.filter_filter]
  congr 1
  apply List.filter_congr
  intro event _
  unfold fileEventTouches
  cases event.eventType with
  | diffCaptured => simp
  | _ => simp

end Events

/-! ## A name that ends with another one -/

def oauthDiff : TraceEvent :=
  { authDiff with
    payload := .object [("file_changes", .array [.object [("path", .string "src/oauth.rs")]])] }

end BrickTrace
