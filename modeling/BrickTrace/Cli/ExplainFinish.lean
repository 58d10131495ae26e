import BrickTrace.Core.ExplainTimeline
import BrickTrace.Cli.ExplainDrivers

/-!
# Finishing an explanation

Both drivers hand their chain to one function that fills in the transcripts, takes the
time of a session from the index and adds a rationale.  The chain is sorted, numbered and
freed of repeated sessions before that; what the last steps do to it is judged here.
-/

set_option autoImplicit false

namespace BrickTrace

open Json

/-! ## The last steps -/

/-- What a transcript tells of a turn: its closing note, and the entities that it names as a
cause, each with the relation. -/
structure InferredRationale where
  note : Option String
  causeRefs : List (String × String)

/-- What the last steps read besides the chain: the sessions that the configured sources list,
each with its source and its place; how a session is read; and what its transcript tells. -/
structure Transcripts where
  index : String → Option (String × String)
  readSessionCommand : String → String → String
  inferSessionRationale : String → String → String → String → Option InferredRationale

namespace Transcripts
variable (transcripts : Transcripts)

/-- A pointer without a place is given the source and the place that the sources list. -/
def locate (pointer : TranscriptPointer) : TranscriptPointer :=
  match pointer.sessionId with
  | none => pointer
  | some sessionId =>
      let listed := if pointer.sessionRef.isNone then transcripts.index sessionId else none
      let located :=
        match listed with
        | some (source, sessionRef) =>
            { pointer with source := some source, sessionRef := some sessionRef }
        | none => pointer
      match located.source with
      | some source =>
          { located with readSession := some (transcripts.readSessionCommand source sessionId) }
      | none => located

def enrichStep (step : CausalStep) : CausalStep :=
  { step with transcript := step.transcript.map transcripts.locate }

def enrichTranscripts (steps : List CausalStep) : List CausalStep :=
  steps.map transcripts.enrichStep

/-- The relation is set only when the transcript names an entity that the events have. -/
def observeRationale (events : List TraceEvent) (step : CausalStep) : CausalStep :=
  match step.note, step.transcript with
  | none, some ⟨some source, some sessionRef, some sessionId, _⟩ =>
      match transcripts.inferSessionRationale source sessionId sessionRef step.occurredAt with
      | none => step
      | some inferred =>
          match inferred.note with
          | none => step
          | some message =>
              let named := (inferred.causeRefs.find? fun cause =>
                (resolveDirectAnchor events cause.2).resolvedEvents ≠ []).map Prod.fst
              { step with
                note := some message
                confidence := "observed"
                relation := step.relation.or named }
  | _, _ => step

end Transcripts

/-- The time that the index has for the session of a step. -/
def refinedTime (rows : List IndexedRow) (step : CausalStep) : String :=
  match step.transcript.bind (·.source), step.transcript.bind (·.sessionId) with
  | some source, some sessionId =>
      ((rows.find? fun row => row.sourceId == some source &&
        row.externalSessionId == some sessionId).bind (·.occurredAt)).getD step.occurredAt
  | _, _ => step.occurredAt

def refineStep (rows : List IndexedRow) (step : CausalStep) : CausalStep :=
  { step with occurredAt := refinedTime rows step }

def refineSourceSessionTimes (rows : List IndexedRow) (steps : List CausalStep) : List CausalStep :=
  steps.map (refineStep rows)

section Finish
variable (rfc3339 : DateTime → String) (hashText : String → String) (toText : Json → String)
  (here : Checkout) (transcripts : Transcripts)

/-- The sessions of the anchored file, as many as a chain of events may have. -/
def refiningRows (root : String) (anchoredPath : Option String) : List IndexedRow :=
  match here.metadataDb, anchoredPath with
  | some db, some path =>
      querySourceFileSessionBlame rfc3339 toText db.metadata
        { filePath := path
          sourceId := none
          repoPath := some root
          limit := maxExplainDepth + 1 }
  | _, _ => []

/-- The chain as the answer shows it. -/
def finalizeExplainChain (root : String) (chain : CausalChain) (anchoredPath : Option String) :
    CausalChain :=
  let enriched := transcripts.enrichTranscripts chain.steps
  let refined := refineSourceSessionTimes (refiningRows rfc3339 toText here root anchoredPath) enriched
  { chain with steps := refined.map (transcripts.observeRationale (here.events root)) }

/-- The answer of the command for an anchor that is resolved. -/
def commandAnswer (reading : CliAnchor) (depth : Nat) : CausalChain :=
  let chain := explainFromEvents rfc3339 (here.events here.root) reading.anchor depth
  finalizeExplainChain rfc3339 toText here transcripts here.root
    (mergeForCommand rfc3339 toText here chain here.root reading depth).1 reading.anchoredPath

/-- The answer of the server for an anchor that is resolved in a repository. -/
def serverAnswer (root : String) (reading : McpAnchor) (depth : Nat) : CausalChain :=
  let chain :=
    explainFromEvents rfc3339 (here.events root) reading.anchor (min depth maxExplainDepth)
  finalizeExplainChain rfc3339 toText here transcripts root
    (mergeForServer rfc3339 hashText toText here chain root reading depth).1 reading.anchoredPath

/-! ## The contract -/

/-- The source session that a step shows, of an event or of the index. -/
def CausalStep.timelineSession (step : CausalStep) : Option (String × String) :=
  if step.eventType = "source.session_observed" ∨ step.eventType = "source.session" then
    match step.transcript.bind (·.source), step.sessionId with
    | some source, some external => some (source, external)
    | _, _ => none
  else none

/-- What an answer is to be. -/
structure TimelineContract (depth : Nat) (steps : List CausalStep) : Prop where
  newestFirst : steps.Pairwise fun left right => right.occurredAt ≤ left.occurredAt
  depths : steps.map CausalStep.depth = List.range steps.length
  few : steps.length ≤ min depth 8 + 1
  once : (steps.filterMap CausalStep.timelineSession).Nodup

/-- The path and the text of the selected lines, for the anchor of a line. -/
def CliAnchor.selection (reading : CliAnchor) : Option (String × String) :=
  match reading.isFileLine, reading.anchoredPath, reading.selectedText with
  | true, some path, some text => some (path, text)
  | _, _, _ => none

def fileRows (root : String) (anchoredPath : Option String) (depth : Nat) : List IndexedRow :=
  match anchoredPath with
  | none => []
  | some path => fileSessionRows rfc3339 toText here root path depth

/-- The rows that the command merges: of the selection, or of the file. -/
def rowsForCommand (root : String) (reading : CliAnchor) (depth : Nat) : List IndexedRow :=
  let matched :=
    match reading.selection with
    | some (path, text) => textMatchRows rfc3339 here root path text depth
    | none => []
  if matched = [] then fileRows rfc3339 toText here root reading.anchoredPath depth else matched

/-- The rows that the server merges: of the line, or else those of the command. -/
def rowsForServer (root : String) (reading : McpAnchor) (depth : Nat) : List IndexedRow :=
  let provenance :=
    match reading.selection with
    | some (path, text) =>
        lineProvenanceRows rfc3339 hashText here root path text reading.lineNumber depth
    | none => []
  if provenance = [] then rowsForCommand rfc3339 toText here root reading.toCliAnchor depth
  else provenance

/-- The steps of the events, then those of the sessions that are new. -/
def candidates (chain : List CausalStep) (rows : List IndexedRow) : List CausalStep :=
  chain ++ (stepsOfRows rows).filter fun step => !alreadyLinked chain step

/-- The time that the answer shows for a step. -/
def finalTime (refining : List IndexedRow) (step : CausalStep) : String :=
  refinedTime refining (transcripts.enrichStep step)

/-- What the events and the index have to be like for the answer to be as it is to be: few enough
steps, an order of the times that taking them from the index leaves, and no two sessions that the
sources list under one source. -/
structure StaysInContract (depth : Nat) (chain : List CausalStep) (rows refining : List IndexedRow) :
    Prop where
  few : (candidates chain rows).length ≤ min depth 8 + 1
  laterStaysLater : rows ≠ [] → ∀ left ∈ candidates chain rows, ∀ right ∈ candidates chain rows,
    right.occurredAt < left.occurredAt →
      finalTime transcripts refining right ≤ finalTime transcripts refining left
  listedStayListed : (candidates chain rows).Pairwise fun left right =>
    (rows ≠ [] → left.occurredAt = right.occurredAt) →
      finalTime transcripts refining right ≤ finalTime transcripts refining left
  apart : (candidates chain rows).Pairwise fun left right =>
    ∀ session, (transcripts.enrichStep left).timelineSession = some session →
      (transcripts.enrichStep right).timelineSession ≠ some session

/-! ## One merge at most -/

section Merges
variable {rfc3339 hashText toText here transcripts}
variable {chain : CausalChain} {root : String} {depth : Nat}

/-- The steps of a chain with the sessions of the rows merged in, if there are any. -/
def mergedWith (steps : List CausalStep) (rows : List IndexedRow) : List CausalStep :=
  if rows = [] then steps else mergeSourceStepsInto steps (stepsOfRows rows)

theorem mergedWith_of_ne_nil {steps : List CausalStep} {rows : List IndexedRow} (found : rows ≠ []) :
    mergedWith steps rows = mergeSourceStepsInto steps (stepsOfRows rows) := if_neg found

theorem steps_mergeIndexSessions (anchoredPath : Option String) (isFileLine : Bool) :
    (mergeIndexSessionsIntoChain rfc3339 toText here chain root anchoredPath isFileLine depth).1.steps =
      mergedWith chain.steps (fileRows rfc3339 toText here root anchoredPath depth) := by
  unfold mergeIndexSessionsIntoChain fileRows
  cases anchoredPath with
  | none => rfl
  | some path =>
      dsimp only
      rw [stepsOfRows_isEmpty]
      by_cases nothing : fileSessionRows rfc3339 toText here root path depth = []
      · rw [nothing]
        rfl
      · rw [mergedWith_of_ne_nil nothing, List.isEmpty_eq_false_iff.mpr nothing]
        rfl

section Selection
variable {reading : McpAnchor}

/-- A selection is that of a line, in a file, with its text. -/
theorem selection_eq_some {path text : String} (selected : reading.selection = some (path, text)) :
    reading.isFileLine = true ∧ reading.anchoredPath = some path ∧
      reading.selectedText = some text := by
  unfold CliAnchor.selection at selected
  split at selected
  · rename_i isLine isPath isText
    cases selected
    exact ⟨isLine, isPath, isText⟩
  · cases selected

theorem selection_eq_none (unselected : reading.selection = none) :
    reading.isFileLine = false ∨ reading.anchoredPath = none ∨ reading.selectedText = none := by
  unfold CliAnchor.selection at unselected
  split at unselected
  · cases unselected
  · rename_i noSelection
    cases isLine : reading.isFileLine with
    | false => exact .inl rfl
    | true =>
        cases isPath : reading.anchoredPath with
        | none => exact .inr (.inl rfl)
        | some path =>
            cases isText : reading.selectedText with
            | none => exact .inr (.inr rfl)
            | some text => exact absurd isText (noSelection path text isLine isPath)

theorem mergeForCommand_of_unselected (unselected : reading.selection = none) :
    mergeForCommand rfc3339 toText here chain root reading.toCliAnchor depth =
      mergeIndexSessionsIntoChain rfc3339 toText here chain root reading.anchoredPath
        reading.isFileLine depth := by
  unfold mergeForCommand
  rcases selection_eq_none unselected with noLine | noPath | noText
  · rw [noLine]
    rfl
  · rw [noPath]
    cases reading.isFileLine <;> rfl
  · rw [noText]
    cases reading.isFileLine with
    | false => rfl
    | true => cases reading.anchoredPath <;> rfl

theorem steps_mergeForCommand :
    (mergeForCommand rfc3339 toText here chain root reading.toCliAnchor depth).1.steps =
      mergedWith chain.steps (rowsForCommand rfc3339 toText here root reading.toCliAnchor depth) := by
  unfold rowsForCommand
  cases selected : reading.selection with
  | none =>
      rw [mergeForCommand_of_unselected selected]
      exact steps_mergeIndexSessions _ _
  | some selection =>
      obtain ⟨isLine, isPath, isText⟩ := selection_eq_some selected
      rw [mergeForCommand_selection isLine isPath isText]
      dsimp only
      by_cases matched : textMatchRows rfc3339 here root selection.1 selection.2 depth = []
      · rw [mergeIndexTextMatches_of_nil matched, if_pos matched, isPath]
        dsimp only
        rw [if_neg Bool.false_ne_true]
        exact steps_mergeIndexSessions _ _
      · rw [mergeIndexTextMatches_of_ne_nil matched, if_neg matched, mergedWith_of_ne_nil matched]
        rfl

theorem steps_mergeForServer :
    (mergeForServer rfc3339 hashText toText here chain root reading depth).1.steps =
      mergedWith chain.steps (rowsForServer rfc3339 hashText toText here root reading depth) := by
  unfold rowsForServer
  cases selected : reading.selection with
  | none =>
      have asCommand : mergeForServer rfc3339 hashText toText here chain root reading depth =
          mergeForCommand rfc3339 toText here chain root reading.toCliAnchor depth := by
        rcases selection_eq_none selected with noLine | noPath | noText
        · exact mergeForServer_of_not_line noLine
        · exact mergeForServer_of_no_selection (.inl noPath)
        · exact mergeForServer_of_no_selection (.inr noText)
      rw [asCommand, steps_mergeForCommand]
      rfl
  | some selection =>
      obtain ⟨isLine, isPath, isText⟩ := selection_eq_some selected
      dsimp only
      by_cases found : lineProvenanceRows rfc3339 hashText here root selection.1 selection.2
          reading.lineNumber depth = []
      · rw [mergeForServer_of_nil isLine isPath isText found, steps_mergeForCommand, if_pos found]
      · rw [mergeForServer_of_ne_nil isLine isPath isText found, if_neg found,
          mergedWith_of_ne_nil found]
        rfl

end Selection

end Merges

/-! ## What the last steps keep -/

section Kept
variable {rfc3339 hashText toText here transcripts}
variable {refining : List IndexedRow} {events : List TraceEvent}

/-- A rationale leaves the place, the time and the session of a step. -/
theorem observeRationale_keeps (step : CausalStep) :
    (transcripts.observeRationale events step).depth = step.depth ∧
      (transcripts.observeRationale events step).occurredAt = step.occurredAt ∧
      (transcripts.observeRationale events step).timelineSession = step.timelineSession := by
  unfold Transcripts.observeRationale
  split
  · split
    · exact ⟨rfl, rfl, rfl⟩
    · split
      · exact ⟨rfl, rfl, rfl⟩
      · exact ⟨rfl, rfl, rfl⟩
  · exact ⟨rfl, rfl, rfl⟩

/-- The session that the answer shows for a step. -/
def finalSession (transcripts : Transcripts) (step : CausalStep) : Option (String × String) :=
  (transcripts.enrichStep step).timelineSession

/-- Two steps do not show one session. -/
def SessionsApart (left right : Option (String × String)) : Prop :=
  ∀ session, left = some session → right ≠ some session

/-- A finished timeline is judged by the steps before their times are taken from the index. -/
theorem timelineContract_finalize_iff {root : String} {chain : CausalChain}
    {anchoredPath : Option String} {depth : Nat}
    (depths : chain.steps.map CausalStep.depth = List.range chain.steps.length) :
    TimelineContract depth
        (finalizeExplainChain rfc3339 toText here transcripts root chain anchoredPath).steps ↔
      (chain.steps.map (finalTime transcripts (refiningRows rfc3339 toText here root anchoredPath))).Pairwise
          (fun left right => right ≤ left) ∧
        chain.steps.length ≤ min depth 8 + 1 ∧
        (chain.steps.map (finalSession transcripts)).Pairwise SessionsApart := by
  have reads : ∀ {B : Type} (read : CausalStep → B) (before : CausalStep → B),
      (∀ step, read (transcripts.observeRationale (here.events root) (refineStep
        (refiningRows rfc3339 toText here root anchoredPath) (transcripts.enrichStep step))) =
          before step) →
      (finalizeExplainChain rfc3339 toText here transcripts root chain anchoredPath).steps.map read =
        chain.steps.map before := by
    intro B read before same
    unfold finalizeExplainChain Transcripts.enrichTranscripts refineSourceSessionTimes
    dsimp only
    rw [List.map_map, List.map_map, List.map_map]
    exact List.map_congr_left fun step _ => same step
  have times := reads CausalStep.occurredAt
    (finalTime transcripts (refiningRows rfc3339 toText here root anchoredPath))
    fun step => (observeRationale_keeps _).2.1
  have sessions := reads CausalStep.timelineSession (finalSession transcripts)
    fun step => (observeRationale_keeps _).2.2
  have places := reads CausalStep.depth CausalStep.depth fun step => (observeRationale_keeps _).1
  have lengths := congrArg List.length places
  rw [List.length_map, List.length_map] at lengths
  rw [← times, ← sessions, List.pairwise_map, List.pairwise_map, ← lengths]
  constructor
  · rintro ⟨newestFirst, -, few, once⟩
    exact ⟨newestFirst, few, (List.pairwise_filterMap.mp once).imp fun apart session isLeft isRight =>
      apart session isLeft session isRight rfl⟩
  · rintro ⟨newestFirst, few, apart⟩
    refine ⟨newestFirst, ?_, few, ?_⟩
    · rw [places, lengths, depths]
    · apply List.pairwise_filterMap.mpr
      refine apart.imp ?_
      rintro left right sessionsApart session isLeft _ isRight rfl
      exact sessionsApart session isLeft isRight

theorem sessionsApart_symm {left right : Option (String × String)} (apart : SessionsApart left right) :
    SessionsApart right left :=
  fun session isRight isLeft => apart session isLeft isRight

/-- The merged steps satisfy the contract exactly when the steps of the events and of the new
sessions stay in it. -/
theorem mergedWith_iff {steps : List CausalStep} {rows : List IndexedRow} {depth : Nat} :
    (((mergedWith steps rows).map (finalTime transcripts refining)).Pairwise
          (fun left right => right ≤ left) ∧
        (mergedWith steps rows).length ≤ min depth 8 + 1 ∧
        ((mergedWith steps rows).map (finalSession transcripts)).Pairwise SessionsApart) ↔
      StaysInContract transcripts depth steps rows refining := by
  by_cases nothing : rows = []
  · have alone : candidates steps rows = steps := by
      rw [nothing]
      exact List.append_nil steps
    unfold mergedWith
    rw [if_pos nothing, List.pairwise_map, List.pairwise_map]
    constructor
    · rintro ⟨ordered, few, apart⟩
      constructor
      · rw [alone]
        exact few
      · intro found
        exact absurd nothing found
      · rw [alone]
        refine ordered.imp ?_
        intro left right later _
        exact later
      · rw [alone]
        exact apart
    · rintro ⟨few, -, listed, apart⟩
      rw [alone] at few listed apart
      exact ⟨listed.imp fun later => later fun found => absurd nothing found, few, apart⟩
  · rw [mergedWith_of_ne_nil nothing]
    have sorted : mergeSourceStepsInto steps (stepsOfRows rows) =
        renumber (StableSort.largestFirst CausalStep.occurredAt (candidates steps rows)) := rfl
    have perm : (StableSort.largestFirst CausalStep.occurredAt (candidates steps rows)).Perm
        (candidates steps rows) := StableSort.largestFirst_perm
    rw [sorted, renumber_map fun _ _ => rfl, renumber_map fun _ _ => rfl, renumber_length,
      List.pairwise_map, List.pairwise_map, StableSort.pairwise_largestFirst_iff, perm.length_eq,
      perm.pairwise_iff sessionsApart_symm]
    constructor
    · rintro ⟨⟨different, ties⟩, few, apart⟩
      exact ⟨few, fun _ => different, ties.imp fun later same => later (same nothing), apart⟩
    · rintro ⟨few, different, ties, apart⟩
      exact ⟨⟨different nothing, ties.imp fun later same => later fun _ => same⟩, few, apart⟩

theorem length_mergedWith (steps : List CausalStep) (rows : List IndexedRow) :
    (mergedWith steps rows).length = (candidates steps rows).length := by
  by_cases nothing : rows = []
  · rw [nothing]
    exact congrArg List.length (List.append_nil steps).symm
  · rw [mergedWith_of_ne_nil nothing]
    unfold mergeSourceStepsInto
    rw [renumber_length, List.length_mergeSort]
    rfl

/-- An answer has a step for each event that is shown and for each new session. -/
theorem length_serverAnswer (root : String) (reading : McpAnchor) (depth : Nat) :
    (serverAnswer rfc3339 hashText toText here transcripts root reading depth).steps.length =
      (candidates (explainFromEvents rfc3339 (here.events root) reading.anchor depth).steps
        (rowsForServer rfc3339 hashText toText here root reading depth)).length := by
  unfold serverAnswer finalizeExplainChain Transcripts.enrichTranscripts refineSourceSessionTimes
  dsimp only
  rw [List.length_map, List.length_map, List.length_map, steps_mergeForServer, length_mergedWith,
    explainFromEvents_min]

theorem mergedWith_depths {steps : List CausalStep} {rows : List IndexedRow}
    (depths : steps.map CausalStep.depth = List.range steps.length) :
    (mergedWith steps rows).map CausalStep.depth = List.range (mergedWith steps rows).length := by
  by_cases nothing : rows = []
  · unfold mergedWith
    rw [if_pos nothing]
    exact depths
  · rw [mergedWith_of_ne_nil nothing]
    unfold mergeSourceStepsInto
    rw [renumber_depths, renumber_length]

end Kept

end Finish

/-! ## One change and one session -/

def authDiff : TraceEvent where
  eventId := ⟨1⟩
  eventType := .diffCaptured
  schemaVersion := 1
  payloadSchemaVersion := 1
  occurredAt := seenAt
  recordedAt := seenAt
  actor := ⟨.agent, "agent-1", none⟩
  repoId := none
  orgId := none
  projectId := none
  missionId := none
  sessionId := none
  artifactId := none
  repoContextId := none
  confidence := .explicit
  payload := .object [("file_changes", .array [.object [("path", .string "src/auth.rs")]])]

def changedCheckout : Checkout := { tokenCheckout with events := fun _ => [authDiff] }

def noTranscripts : Transcripts where
  index := fun _ => none
  readSessionCommand := fun _ _ => "# local event/chunk DB unavailable"
  inferSessionRationale := fun _ _ _ _ => none

end BrickTrace
