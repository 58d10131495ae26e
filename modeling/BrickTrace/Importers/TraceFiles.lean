import BrickTrace.Core.BuiltEvents
import BrickTrace.Lib.JsonText
import BrickTrace.Protocol.EventCodec
import BrickTrace.Protocol.Text

/-!
# Import of trace files

Files that a caller names become events: a JSONL file one for each record, a transcript one
that points to it, a CI summary one for each job and one for its link.  A record that is an
event already is taken over.  Every event is marked as imported.
-/

set_option autoImplicit false

namespace BrickTrace

open Json

inductive ImportSource where
  | cursor
  | codex
  | claudeCode
  | ci
deriving DecidableEq

namespace ImportSource

def appId : ImportSource → String
  | .cursor => "cursor"
  | .codex => "codex"
  | .claudeCode => "claude-code"
  | .ci => "ci"

def defaultActorType : ImportSource → ActorType
  | .ci => .system
  | .cursor | .codex | .claudeCode => .agent

def defaultActor (source : ImportSource) : ActorRef :=
  ⟨source.defaultActorType, source.appId, none⟩

end ImportSource

structure ImportRequest where
  source : ImportSource
  paths : List String
  appSessionId : Option String
  appSessionName : Option String
  actor : Option ActorRef
  missionId : Option MissionId
  sessionId : Option SessionId

inductive ImportError where
  | noPaths
  | unreadable (kind path : String)
  | line (path : String) (lineNumber : Nat)
  | event (path : String) (lineNumber : Nat)
  | ciJson (path : String)
  | ciRecord
deriving DecidableEq

def ImportError.message : ImportError → String
  | .noPaths => "import requires at least one --path"
  | .unreadable kind path => "failed to read " ++ kind ++ " import file " ++ path
  | .line path lineNumber =>
      "failed to parse JSONL import file " ++ path ++ " at line " ++ lineNumber.repr
  | .event path lineNumber =>
      "failed to parse Brick TraceEvent in " ++ path ++ " at line " ++ lineNumber.repr
  | .ciJson path => "failed to parse CI JSON import file " ++ path
  | .ciRecord => "failed to deserialize CI record with basic fields"

/-- The files as they are read: their texts, and the digests and sizes of their bytes. -/
structure ImportFiles where
  read : String → Option String
  digest : String → Option (String × UInt64)

/-- How JSON texts are read, how they write a floating-point number, and the texts of ids
and times. -/
structure JsonTexts where
  parse : String → Option Json
  writeFloat : UInt64 → List Char
  forms : TextForms

def JsonTexts.write (texts : JsonTexts) (value : Json) : String :=
  String.ofList (JsonText.write texts.writeFloat value)

/-- The ids and the times for what one record of a file becomes. -/
structure NewIds where
  stamp : Stamp
  refStamp : Stamp
  artifactId : ArtifactId
  logRefId : LogRefId
  externalRefId : ExternalRefId

/-! ## Paths -/

/-- The last component of a path, unless that is the parent directory. -/
def pathFileName (path : String) : Option (List Char) :=
  match ((path.toList.splitOn '/').filter fun part => part ≠ [] ∧ part ≠ ['.']).getLast? with
  | some ['.', '.'] => none
  | name => name

/-- What follows the last dot of the file name, when something stands before it. -/
def pathExtension (path : String) : Option (List Char) :=
  (pathFileName path).bind fun name =>
    match name.reverse.dropWhile (· ≠ '.') with
    | _ :: _ :: _ => some (name.reverse.takeWhile (· ≠ '.')).reverse
    | _ => none

def lowerExtension (path : String) : Option String :=
  (pathExtension path).map fun chars => String.ofList (chars.map Char.toLower)

def inferSessionLogFormat (path : String) : SessionLogFormat :=
  match lowerExtension path with
  | some "txt" | some "log" => .text
  | some "jsonl" => .jsonl
  | some "md" | some "markdown" => .markdown
  | _ => .unknown

/-! ## Records -/

def imported (event : TraceEvent) : TraceEvent := { event with confidence := .imported }

def looksLikeTraceEvent (value : Json) : Bool :=
  (value.get "event_id").isSome && (value.get "event_type").isSome && (value.get "payload").isSome

structure SimpleRecord where
  title : Option String
  message : Option String
  role : Option String
  kind : Option String

def SimpleRecord.decode : Json → Option SimpleRecord := decodeRecord do
  return {
    title := ← defaulted "title" (decodeNullable decodeString) none
    message := ← defaulted "message" (decodeNullable decodeString) none
    role := ← defaulted "role" (decodeNullable decodeString) none
    kind := ← defaulted "kind" (decodeNullable decodeString) none }

/-- A field that goes by several names, of which an object may have one. -/
def aliased {A : Type} (names : List String) (decode : Json → Option A) (default : A) : Reader A
  | .named entries =>
      match names.filterMap fun name => entries.lookup name with
      | [] => some (default, .named entries)
      | [json] => (decode json).map fun value => (value, .named entries)
      | _ => none
  | .positional [] => some (default, .positional [])
  | .positional (item :: rest) => (decode item).map fun value => (value, .positional rest)

structure CiRecord where
  name : Option String
  status : Option String
  url : Option String
  commit : Option String
  rawValue : Json

/-- `ci_record_from_value`, without the text of the error. -/
def CiRecord.decode (value : Json) : Option CiRecord :=
  decodeRecord (do
    return {
      name := ← aliased ["name", "job_name"] (decodeNullable decodeString) none
      status := ← aliased ["status", "conclusion"] (decodeNullable decodeString) none
      url := ← aliased ["url", "html_url", "web_url"] (decodeNullable decodeString) none
      commit := ← aliased ["commit", "sha", "head_sha"] (decodeNullable decodeString) none
      rawValue := value }) value

/-- The list a CI summary is, the one it holds as its jobs, or the summary as one record. -/
def ciRecordsFromValue (value : Json) : Option (List CiRecord) :=
  match value, value.get "jobs" with
  | .array items, _ => items.mapM CiRecord.decode
  | _, some (.array jobs) => jobs.mapM CiRecord.decode
  | _, _ => (CiRecord.decode value).map ([·])

/-! ## Files -/

section Import
variable (files : ImportFiles) (texts : JsonTexts) (newIds : Nat → Nat → NewIds)
  (request : ImportRequest) (actor : ActorRef) (sessionId : SessionId)

def ciBody (record : CiRecord) : String :=
  String.intercalate "\n" ((record.status.map ("status=" ++ ·)).toList ++
    (record.commit.map ("commit=" ++ ·)).toList ++ (record.url.map ("url=" ++ ·)).toList ++
    ["raw=" ++ texts.write record.rawValue])

def simpleRecordEvent (value : Json) (path : String) (ids : NewIds) (lineNumber : Nat) :
    TraceEvent :=
  let simple := (SimpleRecord.decode value).getD ⟨none, none, none, none⟩
  let title := simple.title.getD
    ((simple.kind.map fun kind => "Imported " ++ kind ++ " record").getD
      ("Imported record from line " ++ lineNumber.repr))
  let body := (simple.message.or (simple.role.map ("role=" ++ ·))).getD (texts.write value)
  imported (.artifactCreated ids.stamp actor ids.artifactId request.missionId (some sessionId)
    { artifactKind := .note
      title := request.source.appId ++ ": " ++ title
      body := some ("source_path=" ++ path ++ "\n" ++ body)
      repoContextId := none })

def importLine (path line : String) (ids : NewIds) (lineNumber : Nat) :
    Except ImportError TraceEvent :=
  match texts.parse line with
  | none => .error (.line path lineNumber)
  | some value =>
      if looksLikeTraceEvent value then
        match TraceEvent.decode texts.forms value with
        | none => .error (.event path lineNumber)
        | some event => .ok (imported event)
      else .ok (simpleRecordEvent texts request actor sessionId value path ids lineNumber)

/-- The loop of `import_jsonl`; the first line is line `lineIndex + 1`. -/
def importLines (path : String) (ids : Nat → NewIds) :
    Nat → List String → Except ImportError (List TraceEvent)
  | _, [] => .ok []
  | lineIndex, line :: rest =>
      if isBlank line then importLines path ids (lineIndex + 1) rest
      else do
        let event ←
          importLine texts request actor sessionId path line (ids lineIndex) (lineIndex + 1)
        let events ← importLines path ids (lineIndex + 1) rest
        return event :: events

def importJsonl (path : String) (ids : Nat → NewIds) : Except ImportError (List TraceEvent) :=
  match files.read path with
  | none => .error (.unreadable "JSONL" path)
  | some contents => importLines texts request actor sessionId path ids 0 (textLines contents)

def importTranscript (path : String) (ids : NewIds) : Except ImportError (List TraceEvent) :=
  match files.digest path with
  | none => .error (.unreadable "transcript" path)
  | some (sha256, sizeBytes) =>
      .ok [imported (.sessionLogUploaded ids.stamp actor sessionId
        { logRefId := ids.logRefId
          originalPath := path
          format := inferSessionLogFormat path
          source := request.source.appId
          sha256
          sizeBytes
          storageUri := "file://" ++ path
          localPath := ""
          externalUri := some ("file://" ++ path)
          availability := .localPointer
          repoContextId := none })]

def ciRecordEvents (record : CiRecord) (ids : NewIds) : List TraceEvent :=
  imported (.artifactCreated ids.stamp actor ids.artifactId request.missionId request.sessionId
    { artifactKind := .testResult
      title := record.name.getD "Imported CI job"
      body := some (ciBody texts record)
      repoContextId := none }) ::
  ((record.url.filter fun url => ¬ isBlank url).map fun url =>
    imported (.externalRefLinked ids.refStamp actor request.missionId request.sessionId
      (some ids.artifactId)
      { externalRefId := ids.externalRefId
        provider := request.source.appId
        refType := "ci_job"
        target := url
        repoContextId := none })).toList

def importCiJson (path : String) (ids : Nat → NewIds) : Except ImportError (List TraceEvent) :=
  match files.read path with
  | none => .error (.unreadable "CI JSON" path)
  | some contents =>
      match texts.parse contents with
      | none => .error (.ciJson path)
      | some value =>
          match ciRecordsFromValue value with
          | none => .error .ciRecord
          | some records => .ok (records.zipIdx.flatMap fun (record, place) =>
              ciRecordEvents texts request actor record (ids place))

def importPath (path : String) (ids : Nat → NewIds) : Except ImportError (List TraceEvent) :=
  match request.source, lowerExtension path with
  | _, some "jsonl" => importJsonl files texts request actor sessionId path ids
  | .ci, some "json" => importCiJson files texts request actor path ids
  | _, some "txt" | _, some "log" | _, some "md" | _, some "markdown" =>
      importTranscript files request actor sessionId path (ids 0)
  | .ci, _ => importCiJson files texts request actor path ids
  | _, _ => importTranscript files request actor sessionId path (ids 0)

/-- The loop of `import_traces` over the paths. -/
def importPaths : Nat → List String → Except ImportError (List TraceEvent)
  | _, [] => .ok []
  | place, path :: rest => do
      let events ← importPath files texts request actor sessionId path (newIds place)
      let others ← importPaths (place + 1) rest
      return events ++ others

end Import

def sessionStartedEvents (request : ImportRequest) (stamp : Stamp) (actor : ActorRef)
    (sessionId : SessionId) : List TraceEvent :=
  if request.source = .ci then []
  else [imported (.sessionStarted stamp actor sessionId request.missionId
    { sessionName := request.appSessionName
      source := ⟨some request.source.appId, request.appSessionId, request.appSessionName, none⟩
      repoContextId := none })]

/-- `freshSessionId` and `stamp` are for a session that the request does not name. -/
def importTraces (files : ImportFiles) (texts : JsonTexts) (newIds : Nat → Nat → NewIds)
    (freshSessionId : SessionId) (stamp : Stamp) (request : ImportRequest) :
    Except ImportError (List TraceEvent) :=
  if request.paths.isEmpty then .error .noPaths
  else do
    let actor := request.actor.getD request.source.defaultActor
    let sessionId := request.sessionId.getD freshSessionId
    let events ← importPaths files texts newIds request actor sessionId 0 request.paths
    return sessionStartedEvents request stamp actor sessionId ++ events

/-! ## Logs of Brick's own -/

section Logs
variable {files : ImportFiles} {texts : JsonTexts} {newIds : Nat → Nat → NewIds}
  {request : ImportRequest} {actor : ActorRef} {sessionId : SessionId}

theorem looksLikeTraceEvent_encode (forms : TextForms) (event : TraceEvent) :
    looksLikeTraceEvent (event.encode forms) = true := by
  unfold looksLikeTraceEvent TraceEvent.encode Record.json Json.get
  dsimp only
  simp [Record.lookup_entries, TraceEvent.record, List.lookup_cons]

/-- A line of a log: a blank one, or the text of an event. -/
inductive LogEntry where
  | blank (line : String)
  | logged (event : TraceEvent)

namespace LogEntry

def event? : LogEntry → Option TraceEvent
  | .blank _ => none
  | .logged event => some event

def line (texts : JsonTexts) : LogEntry → String
  | .blank line => line
  | .logged event => texts.write (event.encode texts.forms)

/-- The libraries read the entry as they wrote it, and a blank line is one line. -/
def Faithful (texts : JsonTexts) : LogEntry → Prop
  | .blank line => isBlank line = true ∧ '\n' ∉ line.toList
  | .logged event => event.Readable texts.forms ∧
      texts.parse (texts.write (event.encode texts.forms)) = some (event.encode texts.forms)

/-- The line without the carriage return that reading lines takes off. -/
def content (texts : JsonTexts) (entry : LogEntry) : String :=
  String.ofList (lineContent (entry.line texts).toList)

end LogEntry

theorem write_encode (texts : JsonTexts) (event : TraceEvent) :
    ∃ inner, (texts.write (event.encode texts.forms)).toList = '\x7b' :: inner ++ ['\x7d'] := by
  refine ⟨JsonText.writeEntries texts.writeFloat (event.record texts.forms).entries, ?_⟩
  unfold JsonTexts.write TraceEvent.encode Record.json
  rw [JsonText.write, String.toList_ofList]

theorem newline_notMem_line (floats : ∀ bits, '\n' ∉ texts.writeFloat bits) {entry : LogEntry}
    (faithful : entry.Faithful texts) : '\n' ∉ (entry.line texts).toList := by
  cases entry with
  | blank line => exact faithful.2
  | logged event =>
      unfold LogEntry.line JsonTexts.write
      dsimp only
      rw [String.toList_ofList]
      exact JsonText.control_notMem_write (by decide) floats _

theorem content_logged (event : TraceEvent) :
    (LogEntry.logged event).content texts = texts.write (event.encode texts.forms) := by
  obtain ⟨inner, chars⟩ := write_encode texts event
  unfold LogEntry.content LogEntry.line
  dsimp only
  rw [lineContent, if_neg, String.ofList_toList]
  rw [chars, List.getLast?_concat]
  decide

theorem mem_of_mem_lineContent {chars : List Char} {char : Char}
    (member : char ∈ lineContent chars) : char ∈ chars := by
  unfold lineContent at member
  split at member
  · exact List.mem_of_mem_dropLast member
  · exact member

theorem isBlank_content_blank {line : String} (blank : isBlank line = true) :
    isBlank ((LogEntry.blank line).content texts) = true := by
  have all := List.all_eq_true.mp blank
  unfold isBlank LogEntry.content
  rw [String.toList_ofList]
  exact List.all_eq_true.mpr fun char member => all char (mem_of_mem_lineContent member)

theorem importLines_of_log (path : String) (ids : Nat → NewIds) (lineIndex : Nat)
    {entries : List LogEntry} (faithful : ∀ entry ∈ entries, entry.Faithful texts) :
    importLines texts request actor sessionId path ids lineIndex
        (entries.map (LogEntry.content texts)) =
      .ok ((entries.filterMap LogEntry.event?).map imported) := by
  induction entries generalizing lineIndex with
  | nil => rfl
  | cons entry rest ih =>
      obtain ⟨here, others⟩ := List.forall_mem_cons.mp faithful
      rw [List.map_cons, importLines]
      cases entry with
      | blank line =>
          rw [if_pos (isBlank_content_blank here.1)]
          exact ih (lineIndex + 1) others
      | logged event =>
          have notBlank : ¬ isBlank ((LogEntry.logged event).content texts) = true := by
            obtain ⟨inner, chars⟩ := write_encode texts event
            rw [content_logged, isBlank, chars]
            simp [isWhiteSpace]
          have line : importLine texts request actor sessionId path
              ((LogEntry.logged event).content texts) (ids lineIndex) (lineIndex + 1) =
                .ok (imported event) := by
            unfold importLine
            rw [content_logged, here.2]
            dsimp only
            rw [if_pos (looksLikeTraceEvent_encode ..), TraceEvent.decode_encode here.1]
          rw [if_neg notBlank, line, ih (lineIndex + 1) others]
          rfl

theorem importJsonl_of_log (floats : ∀ bits, '\n' ∉ texts.writeFloat bits) {path : String}
    (ids : Nat → NewIds) {entries : List LogEntry}
    (written : files.read path =
      some (String.join (entries.map fun entry => entry.line texts ++ "\n")))
    (faithful : ∀ entry ∈ entries, entry.Faithful texts) :
    importJsonl files texts request actor sessionId path ids =
      .ok ((entries.filterMap LogEntry.event?).map imported) := by
  have lines : textLines (String.join (entries.map fun entry => entry.line texts ++ "\n")) =
      entries.map (LogEntry.content texts) := by
    have free : ∀ line ∈ entries.map (LogEntry.line texts), '\n' ∉ line.toList := by
      intro line member
      obtain ⟨entry, present, rfl⟩ := List.mem_map.mp member
      exact newline_notMem_line floats (faithful entry present)
    have joined := textLines_join free
    rw [List.map_map, List.map_map] at joined
    exact joined
  unfold importJsonl
  rw [written]
  dsimp only
  rw [lines, importLines_of_log path ids 0 faithful]

theorem importPaths_of_logs (floats : ∀ bits, '\n' ∉ texts.writeFloat bits)
    {logs : String → List LogEntry} {paths : List String} (place : Nat)
    (jsonl : ∀ path ∈ paths, lowerExtension path = some "jsonl")
    (written : ∀ path ∈ paths, files.read path =
      some (String.join ((logs path).map fun entry => entry.line texts ++ "\n")))
    (faithful : ∀ path ∈ paths, ∀ entry ∈ logs path, entry.Faithful texts) :
    importPaths files texts newIds request actor sessionId place paths =
      .ok (paths.flatMap fun path => ((logs path).filterMap LogEntry.event?).map imported) := by
  induction paths generalizing place with
  | nil => rfl
  | cons path rest ih =>
      obtain ⟨hereJsonl, restJsonl⟩ := List.forall_mem_cons.mp jsonl
      obtain ⟨hereWritten, restWritten⟩ := List.forall_mem_cons.mp written
      obtain ⟨hereFaithful, restFaithful⟩ := List.forall_mem_cons.mp faithful
      have here : importPath files texts request actor sessionId path (newIds place) =
          .ok (((logs path).filterMap LogEntry.event?).map imported) := by
        unfold importPath
        rw [hereJsonl]
        exact importJsonl_of_log floats (newIds place) hereWritten hereFaithful
      rw [importPaths, here, ih (place + 1) restJsonl restWritten restFaithful]
      rfl

/-- Importing event logs takes over the events of all of them, in their order and with nothing
changed but that they are marked as imported, behind the start of the session. -/
theorem importTraces_of_logs (floats : ∀ bits, '\n' ∉ texts.writeFloat bits)
    (freshSessionId : SessionId) (stamp : Stamp) (logs : String → List LogEntry)
    (named : request.paths ≠ [])
    (jsonl : ∀ path ∈ request.paths, lowerExtension path = some "jsonl")
    (written : ∀ path ∈ request.paths, files.read path =
      some (String.join ((logs path).map fun entry => entry.line texts ++ "\n")))
    (faithful : ∀ path ∈ request.paths, ∀ entry ∈ logs path, entry.Faithful texts) :
    importTraces files texts newIds freshSessionId stamp request =
      .ok (sessionStartedEvents request stamp (request.actor.getD request.source.defaultActor)
          (request.sessionId.getD freshSessionId) ++
        request.paths.flatMap fun path => ((logs path).filterMap LogEntry.event?).map imported) := by
  unfold importTraces
  rw [if_neg (by simpa using named)]
  dsimp only
  rw [importPaths_of_logs floats 0 jsonl written faithful]
  rfl

end Logs

section LogWitness

def placeIds : Nat → Nat → NewIds := fun place _ =>
  ⟨⟨⟨Fin.ofNat _ (3 + place)⟩, ⟨0⟩⟩, ⟨⟨Fin.ofNat _ (10 + place)⟩, ⟨0⟩⟩,
    ⟨"artifact_" ++ place.repr⟩, ⟨"log_" ++ place.repr⟩, ⟨"ref_" ++ place.repr⟩⟩

/-- A file that the event was appended to, and a blank line after it. -/
def startedLog : List LogEntry := [.logged sessionInMission, .blank ""]

def startedLogTexts : JsonTexts where
  parse text :=
    if text.toList = JsonText.write (fun _ => []) (sessionInMission.encode epochForms) then
      some (sessionInMission.encode epochForms)
    else none
  writeFloat _ := []
  forms := epochForms

def startedLogFiles : ImportFiles where
  read path :=
    if path = "events.jsonl" then
      some (String.join (startedLog.map fun entry => entry.line startedLogTexts ++ "\n"))
    else none
  digest _ := none

def logRequest : ImportRequest := ⟨.codex, ["events.jsonl"], none, none, none, none, none⟩

theorem startedLog_imported :
    importTraces startedLogFiles startedLogTexts placeIds ⟨"session_2"⟩ ⟨⟨2⟩, ⟨0⟩⟩ logRequest =
      .ok (sessionStartedEvents logRequest ⟨⟨2⟩, ⟨0⟩⟩
          (logRequest.actor.getD logRequest.source.defaultActor)
          (logRequest.sessionId.getD ⟨"session_2"⟩) ++
        logRequest.paths.flatMap fun path =>
          (((fun _ => startedLog) path).filterMap LogEntry.event?).map imported) := by
  refine importTraces_of_logs (fun _ => List.not_mem_nil) _ _ (fun _ => startedLog) (by decide)
    (List.forall_mem_singleton.mpr (by decide)) (List.forall_mem_singleton.mpr rfl)
    (List.forall_mem_singleton.mpr (List.forall_mem_cons.mpr ⟨?_, ?_⟩))
  · refine ⟨⟨epochForms_readUuid, rfl, rfl⟩, ?_⟩
    unfold startedLogTexts JsonTexts.write
    dsimp only
    rw [String.toList_ofList, if_pos rfl]
  · exact List.forall_mem_singleton.mpr ⟨by decide, by decide⟩

end LogWitness

/-! ## What an import makes known -/

/-- An event for one record of a file that is not an event, or for the file as a whole. -/
structure ImportedFor (request : ImportRequest) (sessionId : SessionId) (event : TraceEvent) :
    Prop where
  built : Built event
  confidence : event.confidence = .imported
  kind : event.eventType = .artifactCreated ∨ event.eventType = .externalRefLinked ∨
    (event.eventType = .sessionStarted ∨ event.eventType = .sessionLogUploaded) ∧
      event.artifactId = none
  orgId : event.orgId = none
  projectId : event.projectId = none
  missionId : event.missionId = none ∨ event.missionId = request.missionId
  sessionId : event.sessionId = none ∨ event.sessionId = some sessionId

theorem ImportedFor.undiffed {request : ImportRequest} {sessionId : SessionId}
    {event : TraceEvent} (importedFor : ImportedFor request sessionId event) :
    event.eventType ≠ .diffCaptured := by
  intro diffed
  have kind := importedFor.kind
  rw [diffed] at kind
  simp at kind

theorem Built.marked {event : TraceEvent} (built : Built event) : Built (imported event) :=
  .relabelled event built event.eventId event.repoId event.occurredAt event.recordedAt .imported

section Records
variable {files : ImportFiles} {texts : JsonTexts} {newIds : Nat → Nat → NewIds}
  {request : ImportRequest} {actor : ActorRef} {sessionId : SessionId}

theorem sessionStartedEvents_importedFor (stamp : Stamp) :
    ∀ event ∈ sessionStartedEvents request stamp actor sessionId,
      ImportedFor request sessionId event := by
  unfold sessionStartedEvents
  split
  · simp
  · exact List.forall_mem_singleton.mpr
      ⟨(Built.sessionStarted ..).marked, rfl, .inr (.inr ⟨.inl rfl, rfl⟩), rfl, rfl, .inr rfl,
        .inr rfl⟩

theorem simpleRecordEvent_importedFor (value : Json) (path : String) (ids : NewIds)
    (lineNumber : Nat) :
    ImportedFor request sessionId
      (simpleRecordEvent texts request actor sessionId value path ids lineNumber) :=
  ⟨(Built.artifactCreated ..).marked, rfl, .inl rfl, rfl, rfl, .inr rfl, .inr rfl⟩

theorem importLines_importedFor {path : String} {ids : Nat → NewIds} {lineIndex : Nat}
    {lines : List String}
    (others : ∀ line ∈ lines, ∀ value, texts.parse line = some value →
      looksLikeTraceEvent value = false)
    {events : List TraceEvent}
    (done : importLines texts request actor sessionId path ids lineIndex lines = .ok events) :
    ∀ event ∈ events, ImportedFor request sessionId event := by
  induction lines generalizing lineIndex events with
  | nil =>
      cases done
      simp
  | cons line rest ih =>
      obtain ⟨here, later⟩ := List.forall_mem_cons.mp others
      rw [importLines] at done
      split at done
      · exact ih later done
      · obtain ⟨event, lineDone, done⟩ := Fallible.bind_eq_ok_iff.mp done
        obtain ⟨restEvents, restDone, done⟩ := Fallible.bind_eq_ok_iff.mp done
        cases done
        refine List.forall_mem_cons.mpr ⟨?_, ih later restDone⟩
        unfold importLine at lineDone
        cases parsed : texts.parse line with
        | none =>
            rw [parsed] at lineDone
            cases lineDone
        | some value =>
            rw [parsed] at lineDone
            dsimp only at lineDone
            rw [here value parsed] at lineDone
            cases lineDone
            exact simpleRecordEvent_importedFor ..

theorem ciRecordEvents_importedFor (named : ∀ id, request.sessionId = some id → id = sessionId)
    (record : CiRecord) (ids : NewIds) :
    ∀ event ∈ ciRecordEvents texts request actor record ids,
      ImportedFor request sessionId event := by
  have session : request.sessionId = none ∨ request.sessionId = some sessionId := by
    cases given : request.sessionId with
    | none => exact .inl rfl
    | some id => exact .inr (congrArg some (named id given))
  unfold ciRecordEvents
  refine List.forall_mem_cons.mpr ⟨?_, fun event member => ?_⟩
  · exact ⟨(Built.artifactCreated ..).marked, rfl, .inl rfl, rfl, rfl, .inr rfl, session⟩
  · obtain ⟨url, _, rfl⟩ := Option.map_eq_some_iff.mp (Option.mem_toList.mp member)
    exact ⟨(Built.externalRefLinked ..).marked, rfl, .inr (.inl rfl), rfl, rfl, .inr rfl, session⟩

theorem importTranscript_importedFor {path : String} {ids : NewIds} {events : List TraceEvent}
    (done : importTranscript files request actor sessionId path ids = .ok events) :
    ∀ event ∈ events, ImportedFor request sessionId event := by
  unfold importTranscript at done
  split at done
  · cases done
  · cases done
    exact List.forall_mem_singleton.mpr
      ⟨(Built.sessionLogUploaded ..).marked, rfl, .inr (.inr ⟨.inr rfl, rfl⟩), rfl, rfl, .inl rfl,
        .inr rfl⟩

theorem importCiJson_importedFor (named : ∀ id, request.sessionId = some id → id = sessionId)
    {path : String} {ids : Nat → NewIds} {events : List TraceEvent}
    (done : importCiJson files texts request actor path ids = .ok events) :
    ∀ event ∈ events, ImportedFor request sessionId event := by
  unfold importCiJson at done
  repeat' split at done
  all_goals cases done
  intro event member
  obtain ⟨⟨record, place⟩, _, here⟩ := List.mem_flatMap.mp member
  exact ciRecordEvents_importedFor named record (ids place) event here

/-- No line of the file is taken for an event of Brick's own. -/
def FreeOfEvents (files : ImportFiles) (texts : JsonTexts) (path : String) : Prop :=
  ∀ contents, files.read path = some contents → ∀ line ∈ textLines contents, ∀ value,
    texts.parse line = some value → looksLikeTraceEvent value = false

theorem importPath_importedFor (named : ∀ id, request.sessionId = some id → id = sessionId)
    {path : String} {ids : Nat → NewIds}
    (others : lowerExtension path = some "jsonl" → FreeOfEvents files texts path)
    {events : List TraceEvent}
    (done : importPath files texts request actor sessionId path ids = .ok events) :
    ∀ event ∈ events, ImportedFor request sessionId event := by
  unfold importPath at done
  split at done
  case h_1 _ jsonl =>
      unfold importJsonl at done
      split at done
      · cases done
      · rename_i contents read
        exact importLines_importedFor (others jsonl contents read) done
  case h_2 => exact importCiJson_importedFor named done
  case h_7 => exact importCiJson_importedFor named done
  all_goals exact importTranscript_importedFor done

theorem importPaths_importedFor (named : ∀ id, request.sessionId = some id → id = sessionId)
    {place : Nat} {paths : List String}
    (others : ∀ path ∈ paths, lowerExtension path = some "jsonl" → FreeOfEvents files texts path)
    {events : List TraceEvent}
    (done : importPaths files texts newIds request actor sessionId place paths = .ok events) :
    ∀ event ∈ events, ImportedFor request sessionId event := by
  induction paths generalizing place events with
  | nil =>
      cases done
      simp
  | cons path rest ih =>
      obtain ⟨here, later⟩ := List.forall_mem_cons.mp others
      rw [importPaths] at done
      obtain ⟨first, firstDone, done⟩ := Fallible.bind_eq_ok_iff.mp done
      obtain ⟨second, secondDone, done⟩ := Fallible.bind_eq_ok_iff.mp done
      cases done
      exact List.forall_mem_append.mpr
        ⟨importPath_importedFor named here firstDone, ih later secondDone⟩

theorem importTraces_importedFor {freshSessionId : SessionId} {stamp : Stamp}
    (others : ∀ path ∈ request.paths, lowerExtension path = some "jsonl" →
      FreeOfEvents files texts path)
    {events : List TraceEvent}
    (done : importTraces files texts newIds freshSessionId stamp request = .ok events) :
    (∀ event ∈ events, ImportedFor request (request.sessionId.getD freshSessionId) event) ∧
      (request.source ≠ .ci → ∃ event ∈ events, event.eventType = .sessionStarted ∧
        event.sessionId = some (request.sessionId.getD freshSessionId) ∧
          event.missionId = request.missionId) := by
  unfold importTraces at done
  split at done
  · cases done
  · obtain ⟨fileEvents, filesDone, done⟩ := Fallible.bind_eq_ok_iff.mp done
    cases done
    have named : ∀ id, request.sessionId = some id →
        id = request.sessionId.getD freshSessionId := by
      intro id given
      rw [given, Option.getD_some]
    refine ⟨List.forall_mem_append.mpr ⟨sessionStartedEvents_importedFor stamp,
      importPaths_importedFor named others filesDone⟩, fun notCi => ?_⟩
    rw [sessionStartedEvents, if_neg notCi]
    exact ⟨_, List.mem_append_left _ (List.mem_singleton_self _), rfl, rfl, rfl⟩

/-- What an import makes known: its session, the mission it is for, and artifacts of its own. -/
structure KnownFrom (request : ImportRequest) (sessionId : SessionId) (events : List TraceEvent)
    (index : TraceIndex) : Prop where
  org : ∀ id, index.lastEventAt ⟨.org, id⟩ = none
  project : ∀ id, index.lastEventAt ⟨.project, id⟩ = none
  mission : ∀ id, (index.lastEventAt ⟨.mission, id⟩).isSome → request.missionId = some ⟨id⟩
  session : ∀ id, (index.lastEventAt ⟨.session, id⟩).isSome → id = sessionId.text
  artifact : ∀ id, (index.lastEventAt ⟨.artifact, id⟩).isSome ↔
    ∃ event ∈ events, event.eventType = .artifactCreated ∧ event.artifactId = some ⟨id⟩
  started : request.source ≠ .ci → (index.lastEventAt ⟨.session, sessionId.text⟩).isSome ∧
    ∀ missionId, request.missionId = some missionId →
      (index.lastEventAt ⟨.mission, missionId.text⟩).isSome

theorem ImportedFor.introduces {event : TraceEvent}
    (importedFor : ImportedFor request sessionId event)
    (indexed : event.eventType ≠ .externalRefLinked) : event.introduces = event.namedEntities := by
  unfold TraceEvent.introduces
  rcases importedFor.kind with created | linked | ⟨started | uploaded, _⟩
  · rw [created]
  · exact absurd linked indexed
  · rw [started]
  · rw [uploaded]

/-- The index accepts every import of files that hold no events of Brick's own, whether sums are
checked or not, and the import makes nothing of others known to it. -/
theorem build_of_import {freshSessionId : SessionId} {stamp : Stamp}
    (others : ∀ path ∈ request.paths, lowerExtension path = some "jsonl" →
      FreeOfEvents files texts path)
    {events : List TraceEvent}
    (done : importTraces files texts newIds freshSessionId stamp request = .ok events)
    (mode : OverflowMode) (now : DateTime) :
    (∀ event ∈ events, event.confidence = .imported) ∧
      ∃ index, TraceIndex.build mode now events = .ok index ∧
        KnownFrom request (request.sessionId.getD freshSessionId) events index := by
  obtain ⟨all, starts⟩ := importTraces_importedFor others done
  refine ⟨fun event member => (all event member).confidence, ?_⟩
  rw [build_undiffed (fun event member => (all event member).undiffed) mode now]
  rcases build_of_built (fun event member => (all event member).built) .wrapping now with
    ⟨checked, _⟩ | ⟨index, accepted, knows⟩
  · cases checked
  refine ⟨index, accepted, ?_⟩
  have names : ∀ entity, (index.lastEventAt entity).isSome →
      ∃ event ∈ events, ImportedFor request (request.sessionId.getD freshSessionId) event ∧
        entity ∈ event.introduces := by
    intro entity known
    obtain ⟨event, member, introduced⟩ := (knows entity).mp known
    exact ⟨event, member, all event member, introduced⟩
  constructor
  case org =>
      intro id
      by_contra known
      obtain ⟨event, _, importedFor, introduced⟩ := names _ (Option.isSome_iff_ne_none.mpr known)
      have orgId := org_mem_namedEntities.mp (namedEntities_of_introduces introduced)
      cases importedFor.orgId.symm.trans orgId
  case project =>
      intro id
      by_contra known
      obtain ⟨event, _, importedFor, introduced⟩ := names _ (Option.isSome_iff_ne_none.mpr known)
      have projectId := project_mem_namedEntities.mp (namedEntities_of_introduces introduced)
      cases importedFor.projectId.symm.trans projectId
  case mission =>
      intro id known
      obtain ⟨event, _, importedFor, introduced⟩ := names _ known
      have missionId := mission_mem_namedEntities.mp (namedEntities_of_introduces introduced)
      rcases importedFor.missionId with without | same
      · cases without.symm.trans missionId
      · exact same.symm.trans missionId
  case session =>
      intro id known
      obtain ⟨event, _, importedFor, introduced⟩ := names _ known
      have sessionId := session_mem_namedEntities.mp (namedEntities_of_introduces introduced)
      rcases importedFor.sessionId with without | same
      · cases without.symm.trans sessionId
      · exact congrArg TraceId.text (Option.some.inj (sessionId.symm.trans same))
  case artifact =>
      intro id
      constructor
      · intro known
        obtain ⟨event, member, importedFor, introduced⟩ := names _ known
        have artifactId := artifact_mem_namedEntities.mp (namedEntities_of_introduces introduced)
        refine ⟨event, member, ?_, artifactId⟩
        rcases importedFor.kind with created | linked | ⟨_, without⟩
        · exact created
        · rw [TraceEvent.introduces, linked] at introduced
          exact absurd introduced List.not_mem_nil
        · cases without.symm.trans artifactId
      · rintro ⟨event, member, created, artifactId⟩
        refine (knows _).mpr ⟨event, member, ?_⟩
        rw [(all event member).introduces (by rw [created]; decide)]
        exact artifact_mem_namedEntities.mpr artifactId
  case started =>
      intro notCi
      obtain ⟨event, member, type, session, mission⟩ := starts notCi
      have introduces := (all event member).introduces (by rw [type]; decide)
      refine ⟨(knows _).mpr ⟨event, member, ?_⟩, fun missionId given =>
        (knows _).mpr ⟨event, member, ?_⟩⟩
      · rw [introduces]
        exact session_mem_namedEntities.mpr session
      · rw [introduces]
        exact mission_mem_namedEntities.mpr (mission.trans given)

end Records

section NoteWitness

def noteTexts : JsonTexts where
  parse text := if text = "null" then some .null else none
  writeFloat _ := []
  forms := epochForms

/-- One line of JSON and an empty transcript. -/
def noteFiles : ImportFiles where
  read path := if path = "notes.jsonl" then some "null" else none
  digest path :=
    if path = "run.txt" then
      some ("e3b0c44298fc1c149afbf4c8996fb92427ae41e4649b934ca495991b7852b855", 0)
    else none

def noteRequest : ImportRequest :=
  ⟨.codex, ["notes.jsonl", "run.txt"], none, none, none, some ⟨"mission_1"⟩, none⟩

theorem notes_known :
    ∃ events, importTraces noteFiles noteTexts placeIds ⟨"session_2"⟩ ⟨⟨2⟩, ⟨0⟩⟩ noteRequest =
        .ok events ∧
      (∀ event ∈ events, event.confidence = .imported) ∧
        ∃ index, TraceIndex.build .checked ⟨0⟩ events = .ok index ∧
          KnownFrom noteRequest (noteRequest.sessionId.getD ⟨"session_2"⟩) events index := by
  obtain ⟨events, done⟩ : ∃ events,
      importTraces noteFiles noteTexts placeIds ⟨"session_2"⟩ ⟨⟨2⟩, ⟨0⟩⟩ noteRequest = .ok events :=
    ⟨_, rfl⟩
  refine ⟨events, done, build_of_import ?_ done .checked ⟨0⟩⟩
  intro path _ _ contents read line member value parsed
  have null : value = .null := by
    unfold noteTexts at parsed
    dsimp only at parsed
    split at parsed
    · exact (Option.some.inj parsed).symm
    · cases parsed
  rw [null]
  rfl

end NoteWitness

end BrickTrace
