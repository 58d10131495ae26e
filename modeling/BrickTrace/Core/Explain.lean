import BrickTrace.Lib.FirstSeen
import BrickTrace.Protocol.Text
import BrickTrace.Core.Blame
import Mathlib.Data.String.Basic

/-!
# Explaining a file's history

An anchor is resolved to the events it maps to, each event becomes a step of a
timeline that is cut at a depth, and steps built from indexed source sessions are
merged in.  The newest step is to come first.
-/

set_option autoImplicit false

namespace BrickTrace

open OrderedMap

def maxExplainDepth : Nat := 8

inductive AnchorKind where
  | event
  | artifact
  | mission
  | fileLine
  | file
deriving DecidableEq

structure ExplainAnchor where
  kind : AnchorKind
  input : String
  resolvedEvents : List String
  blameConfidence : Option String

structure TranscriptPointer where
  source : Option String
  sessionRef : Option String
  sessionId : Option String
  readSession : Option String

structure CausalStep where
  eventId : String
  eventType : String
  title : Option String
  actorType : Option String
  actorId : Option String
  sessionId : Option String
  missionId : Option String
  missionTitle : Option String
  occurredAt : String
  relation : Option String
  note : Option String
  confidence : String
  evidence : Option Json
  transcript : Option TranscriptPointer
  depth : Nat

structure CausalChain where
  anchor : ExplainAnchor
  steps : List CausalStep
  truncated : Bool

/-- A row of the metadata database: a source session that touched the file. -/
structure FileSessionBlameRow where
  filePath : String
  externalSessionId : Option String
  sourceId : Option String
  appId : Option String
  actorId : Option String
  actorType : Option String
  lastSeenAt : String
  occurredAt : Option String
  title : Option String
  sourcePointer : Option Json

def unlessEmpty (text : String) : Option String := if text = "" then none else some text

/-- The synthetic id of a session of a source. -/
def sourceSessionId (source external : String) : String :=
  "source-session:" ++ source ++ ":" ++ external

/-! ## Steps of source sessions -/

namespace FileSessionBlameRow

def external (row : FileSessionBlameRow) : String := row.externalSessionId.getD ""

def source (row : FileSessionBlameRow) : String := (row.appId.or row.sourceId).getD ""

def eventId (row : FileSessionBlameRow) : String := sourceSessionId row.source row.external

def sourcePath (row : FileSessionBlameRow) : Option String :=
  (row.sourcePointer.bind (Json.get "source_path")).bind Json.decodeString

def stepTitle (row : FileSessionBlameRow) : String :=
  ((row.title.map trim).bind unlessEmpty).getD
    ("touched " ++ fileName row.filePath ++ " in " ++ row.source ++ " session")

def step (row : FileSessionBlameRow) (depth : Nat) : CausalStep where
  eventId := row.eventId
  eventType := "source.session"
  title := some row.stepTitle
  actorType := row.actorType
  actorId := row.actorId.or (some row.source)
  sessionId := unlessEmpty row.external
  missionId := none
  missionTitle := none
  occurredAt := row.occurredAt.getD row.lastSeenAt
  relation := none
  note := none
  confidence := "observed"
  evidence := row.sourcePointer.bind (Json.get "evidence")
  transcript := some
    { source := unlessEmpty row.source
      sessionRef := row.sourcePath
      sessionId := unlessEmpty row.external
      readSession := none }
  depth := depth

end FileSessionBlameRow

/-- The first row of each synthetic id becomes a step, numbered from the start depth on. -/
def sourceSessionsToSteps (rows : List FileSessionBlameRow) (startDepth : Nat) :
    List CausalStep :=
  ((FirstSeen.fresh FileSessionBlameRow.eventId [] rows).zipIdx startDepth).map fun entry =>
    entry.1.step entry.2

def linkedSessionIds (chainSteps : List CausalStep) : List String :=
  chainSteps.filterMap CausalStep.sessionId

def alreadyLinked (chainSteps : List CausalStep) (step : CausalStep) : Bool :=
  step.sessionId.any fun id => id ∈ linkedSessionIds chainSteps

def newestFirst (left right : CausalStep) : Bool := right.occurredAt ≤ left.occurredAt

def renumber (steps : List CausalStep) : List CausalStep :=
  steps.zipIdx.map fun entry => { entry.1 with depth := entry.2 }

/-- The steps of sessions that the chain does not show are added, and all are sorted by
the text of their time.  The sort is stable. -/
def mergeSourceStepsInto (chainSteps sourceSteps : List CausalStep) : List CausalStep :=
  let merged := chainSteps ++ sourceSteps.filter fun step => !alreadyLinked chainSteps step
  renumber (merged.mergeSort newestFirst)

/-! ## Anchors -/

def resolveDirectAnchor (events : List TraceEvent) (input : String) : ExplainAnchor :=
  let trimmed := trim input
  if startsWith trimmed "artifact_" then
    { kind := .artifact
      input := trimmed
      resolvedEvents := (events.filter fun event =>
        event.artifactId.any (·.text = trimmed)).map (·.eventId.text)
      blameConfidence := none }
  else if startsWith trimmed "mission_" then
    { kind := .mission
      input := trimmed
      resolvedEvents := (events.filter fun event =>
        event.missionId.any (·.text = trimmed)).map (·.eventId.text)
      blameConfidence := none }
  else
    { kind := .event
      input := trimmed
      resolvedEvents := (events.filter fun event => event.eventId.text = trimmed).map (·.eventId.text)
      blameConfidence := none }

/-- Whether one path is the other one or ends in it at a component boundary. -/
def pathMatchesRel (path rel : String) : Bool :=
  let path := (stripStart path "./").getD path
  let rel := (stripStart rel "./").getD rel
  path = rel || endsWith path ("/" ++ rel) || endsWith rel ("/" ++ path)

def changedPaths (event : TraceEvent) : Option (List (Option String)) :=
  match event.payload.get "file_changes" with
  | some (.array changes) =>
      some (changes.map fun change => (change.get "path").bind Json.decodeString)
  | _ => none

def diffEventTouches (event : TraceEvent) (rel : String) : Bool :=
  (changedPaths event).any fun paths => paths.any fun path => path.any (pathMatchesRel · rel)

def sourceSessionEventTouches (event : TraceEvent) (rel : String) : Bool :=
  (SourceSessionObservedPayload.decode event.payload).any fun payload =>
    payload.touchedFiles.any (pathMatchesRel · rel)

def fileEventTouches (event : TraceEvent) (rel : String) : Bool :=
  match event.eventType with
  | .diffCaptured => diffEventTouches event rel
  | .sourceSessionObserved => sourceSessionEventTouches event rel
  | _ => false

def occurredLater (left right : TraceEvent) : Bool :=
  right.occurredAt.nanoseconds ≤ left.occurredAt.nanoseconds

def resolveFileAnchor (events : List TraceEvent) (path : String) : ExplainAnchor where
  kind := .file
  input := path
  resolvedEvents :=
    let rel := String.ofList (trimDotSlashes (trimChars path.toList))
    ((events.filter (fileEventTouches · rel)).mergeSort occurredLater).map (·.eventId.text)
  blameConfidence := none

def BlameConfidence.name : BlameConfidence → String
  | .commit => "commit"
  | .working => "working"
  | .unattributed => "unattributed"

def BlameConfidence.rank : BlameConfidence → Nat
  | .commit => 3
  | .working => 2
  | .unattributed => 1

def fileLineAnchor (lines : List BlameLine) (relPath : String) (line : UInt64) :
    ExplainAnchor :=
  let hit := lines.find? (·.lineNo = line)
  { kind := .fileLine
    input := relPath ++ ":" ++ toString line.toNat
    resolvedEvents := (hit.bind BlameLine.sourceEventId).toList
    blameConfidence := hit.map (·.confidence.name) }

/-- The strongest confidence so far, with its rank. -/
def strongerConfidence (best : Nat × Option String) (blame : BlameLine) : Nat × Option String :=
  if best.1 < blame.confidence.rank then (blame.confidence.rank, some blame.confidence.name)
  else best

/-- The events of the lines of the range, each once, in the order of the lines. -/
def fileRangeAnchor (lines : List BlameLine) (relPath : String) (lineStart lineEnd : UInt64) :
    ExplainAnchor :=
  let lo := if lineStart ≤ lineEnd then lineStart else lineEnd
  let hi := if lineStart ≤ lineEnd then lineEnd else lineStart
  let covered := lines.filter fun blame => lo ≤ blame.lineNo ∧ blame.lineNo ≤ hi
  { kind := .fileLine
    input := relPath ++ ":" ++ toString lo.toNat ++ "-" ++ toString hi.toNat
    resolvedEvents := FirstSeen.fresh id [] (covered.filterMap BlameLine.sourceEventId)
    blameConfidence := (covered.foldl strongerConfidence (0, none)).2 }

section LineAnchors
variable (mode : OverflowMode) (rfc3339 : DateTime → String) (events : List TraceEvent)
  (lineCount : UInt64) (git : FileHistory) (relPath : String)

def resolveFileLineAnchor (line : UInt64) : Except BlamePanic ExplainAnchor := do
  let lines ← blameFile mode rfc3339 events lineCount git relPath
  return fileLineAnchor lines relPath line

def resolveFileRangeAnchor (lineStart lineEnd : UInt64) : Except BlamePanic ExplainAnchor := do
  let lines ← blameFile mode rfc3339 events lineCount git relPath
  return fileRangeAnchor lines relPath lineStart lineEnd

end LineAnchors

/-! ## Steps of events -/

def ActorType.wireName : ActorType → String
  | .human => "human"
  | .agent => "agent"
  | .system => "system"

def ConfidenceLevel.wireName : ConfidenceLevel → String
  | .explicit => "explicit"
  | .observed => "observed"
  | .imported => "imported"
  | .inferred => "inferred"
  | .unknown => "unknown"

def payloadTitle (event : TraceEvent) : Option String :=
  (event.payload.get "title").bind Json.decodeString

def missionTitleIndex (events : List TraceEvent) : Map String String :=
  events.foldl (fun titles event =>
    match event.eventType, event.missionId, (payloadTitle event).bind unlessEmpty with
    | .missionCreated, some missionId, some title => titles.insert missionId.text title
    | .missionUpdated, some missionId, some title => titles.insert missionId.text title
    | _, _, _ => titles) ∅

def describeEvent (event : TraceEvent) : Option String :=
  match event.eventType with
  | .diffCaptured =>
      match ((changedPaths event).getD []).filterMap id with
      | [] => some "captured a diff"
      | paths => some ("changed " ++ String.intercalate ", " paths)
  | .artifactCreated | .artifactUpdated => payloadTitle event
  | .missionCreated | .missionUpdated => payloadTitle event
  | .sourceSessionObserved => payloadTitle event
  | _ => none

def observedPayload (event : TraceEvent) : Option SourceSessionObservedPayload :=
  SourceSessionObservedPayload.decode event.payload

/-- A session that was observed twice is one step; any other event is its own. -/
def explainStepIdentity (event : Option TraceEvent) (eventId : String) : String :=
  match event with
  | none => eventId
  | some event =>
      if event.eventType ≠ .sourceSessionObserved then eventId
      else
        match observedPayload event with
        | none => eventId
        | some payload =>
            if payload.sourceId = "" ∨ payload.externalSessionId = "" then eventId
            else sourceSessionId payload.sourceId payload.externalSessionId

section Steps
variable (rfc3339 : DateTime → String)

def buildSourceSessionStep (event : TraceEvent) (eventId : String) (depth : Nat) : CausalStep :=
  let payload := observedPayload event
  let source := (payload.map (·.sourceId)).bind unlessEmpty
  let external := (payload.map (·.externalSessionId)).bind unlessEmpty
  { eventId := eventId
    eventType := event.eventType.name
    title := payload.bind (·.title)
    actorType := some event.actor.actorType.wireName
    actorId := some event.actor.actorId
    sessionId := external
    missionId := none
    missionTitle := none
    occurredAt := (payload.bind (·.sessionUpdatedAt)).getD (rfc3339 event.occurredAt)
    relation := none
    note := none
    confidence := event.confidence.wireName
    evidence := none
    transcript := some
      { source := source
        sessionRef := payload.bind (·.sourcePath)
        sessionId := external
        readSession := none }
    depth := depth }

def buildStep (missionTitles : Map String String) (event : Option TraceEvent) (eventId : String)
    (depth : Nat) : CausalStep :=
  match event with
  | some event =>
      if event.eventType = .sourceSessionObserved then
        buildSourceSessionStep rfc3339 event eventId depth
      else
        { eventId := eventId
          eventType := event.eventType.name
          title := describeEvent event
          actorType := some event.actor.actorType.wireName
          actorId := some event.actor.actorId
          sessionId := event.sessionId.map TraceId.text
          missionId := event.missionId.map TraceId.text
          missionTitle := event.missionId.bind fun missionId => missionTitles[missionId.text]?
          occurredAt := rfc3339 event.occurredAt
          relation := none
          note := none
          confidence := event.confidence.wireName
          evidence := none
          transcript := event.sessionId.map fun sessionId =>
            { source := none
              sessionRef := none
              sessionId := some sessionId.text
              readSession := none }
          depth := depth }
  | none =>
      -- an id the stream does not hold, such as a stale blame pointer
      { eventId := eventId
        eventType := "unknown"
        title := none
        actorType := none
        actorId := none
        sessionId := none
        missionId := none
        missionTitle := none
        occurredAt := ""
        relation := none
        note := none
        confidence := "unknown"
        evidence := none
        transcript := none
        depth := depth }

/-- The last event of an id stands for it. -/
def eventsById (events : List TraceEvent) : Map String TraceEvent :=
  insertAll ∅ (events.map fun event => (event.eventId.text, event))

/-- One step for each identity, until the limit; the loop stops at the first that is
left over. -/
def explainSteps (byId : Map String TraceEvent) (missionTitles : Map String String) (limit : Nat) :
    List String → List CausalStep → List String → List CausalStep × Bool
  | _, steps, [] => (steps, false)
  | seen, steps, eventId :: rest =>
      let event := byId[eventId]?
      let identity := explainStepIdentity event eventId
      if identity ∈ seen then explainSteps byId missionTitles limit seen steps rest
      else if limit ≤ steps.length then (steps, true)
      else
        explainSteps byId missionTitles limit (identity :: seen)
          (steps ++ [buildStep rfc3339 missionTitles event eventId steps.length]) rest

def explainFromEvents (events : List TraceEvent) (anchor : ExplainAnchor) (depth : Nat) :
    CausalChain :=
  let limit := min depth maxExplainDepth + 1
  let result :=
    explainSteps rfc3339 (eventsById events) (missionTitleIndex events) limit [] []
      anchor.resolvedEvents
  { anchor := anchor
    steps := result.1
    truncated := result.2 }

end Steps

end BrickTrace
