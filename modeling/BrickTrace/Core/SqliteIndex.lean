import BrickTrace.Core.Index
import BrickTrace.Core.SqliteSchema

/-!
# Rebuilding the query cache

`rebuildSqliteIndex` writes the events and the graph index into the tables of
the cache, in one transaction after the schema is prepared.  An insert whose
primary key is taken fails, and so does a count that a 64-bit signed integer
cannot hold; the transaction is then rolled back.
-/

set_option autoImplicit false

namespace BrickTrace

open KeyedRows (Statement)

def sqliteIndexSchemaVersion : UInt16 := 2

/-- How times and payloads are written as text. -/
structure TextFormats where
  rfc3339 : DateTime → String
  json : Json → String

inductive RebuildError where
  | schemaVersion (value : String)
  | constraint (table : Table)
  | tooLarge (context : String)
deriving DecidableEq

def ActorType.name : ActorType → String
  | .human => "human"
  | .agent => "agent"
  | .system => "system"

def ConfidenceLevel.debugNameLowercase : ConfidenceLevel → String
  | .explicit => "explicit"
  | .observed => "observed"
  | .imported => "imported"
  | .inferred => "inferred"
  | .unknown => "unknown"

def MissionStatus.name : MissionStatus → String
  | .planned => "planned"
  | .active => "active"
  | .blocked => "blocked"
  | .completed => "completed"
  | .archived => "archived"

def ArtifactKind.name : ArtifactKind → String
  | .decision => "decision"
  | .fileRef => "file_ref"
  | .patch => "patch"
  | .review => "review"
  | .testResult => "test_result"
  | .acceptance => "acceptance"
  | .note => "note"

def DiffTarget.name : DiffTarget → String
  | .working => "working"
  | .staged => "staged"
  | .range => "range"

def DiffFileChangeKind.name : DiffFileChangeKind → String
  | .added => "added"
  | .modified => "modified"
  | .deleted => "deleted"
  | .renamed => "renamed"
  | .copied => "copied"
  | .typeChanged => "type_changed"
  | .unknown => "unknown"

def SessionLogFormat.name : SessionLogFormat → String
  | .text => "text"
  | .jsonl => "jsonl"
  | .markdown => "markdown"
  | .unknown => "unknown"

def EvidenceAvailability.name : EvidenceAvailability → String
  | .localPointer => "local_pointer"
  | .localBlob => "local_blob"
  | .remoteBlob => "remote_blob"

abbrev Rows := List Row

def execute (rows : Rows) (statement : Statement Row) : Except RebuildError Rows :=
  match KeyedRows.execute Row.key rows statement with
  | .ok rows => .ok rows
  | .error row => .error (.constraint row.table)

/-- The 64-bit signed integer of a count, or the error that names the count. -/
def sqliteInteger (context : String) (value : Nat) : Except RebuildError Int64 :=
  if value < 2 ^ 63 then .ok (Int64.ofNat value) else .error (.tooLarge context)

def saturatingInteger (value : UInt64) : Int64 :=
  if value.toNat < 2 ^ 63 then Int64.ofNat value.toNat else Int64.maxValue

section Insert
variable (formats : TextFormats)

def insertMetadata (now : DateTime) (rows : Rows) (eventCount : Nat) : Except RebuildError Rows :=
  [("schema_version", sqliteIndexSchemaVersion.toNat.repr), ("rebuilt_at", formats.rfc3339 now),
    ("event_count", eventCount.repr)].foldlM
      (fun rows entry => execute rows (.insert (.metadata ⟨entry.1, entry.2⟩))) rows

def eventRow (event : TraceEvent) : EventRow where
  eventId := event.eventId.text
  eventType := event.eventType.name
  schemaVersion := Int64.ofNat event.schemaVersion.toNat
  payloadSchemaVersion := Int64.ofNat event.payloadSchemaVersion.toNat
  occurredAt := formats.rfc3339 event.occurredAt
  recordedAt := formats.rfc3339 event.recordedAt
  actorId := event.actor.actorId
  actorType := event.actor.actorType.name
  actorDisplayName := event.actor.displayName
  repoId := event.repoId
  orgId := event.orgId.map TraceId.text
  projectId := event.projectId.map TraceId.text
  missionId := event.missionId.map TraceId.text
  sessionId := event.sessionId.map TraceId.text
  artifactId := event.artifactId.map TraceId.text
  repoContextId := event.repoContextId.map TraceId.text
  confidence := event.confidence.debugNameLowercase
  payloadJson := formats.json event.payload

def insertEvents (rows : Rows) (events : List TraceEvent) : Except RebuildError Rows :=
  events.foldlM (fun rows event => execute rows (.insert (.events (eventRow formats event)))) rows

def orgRow (org : IndexedOrg) : OrgRow where
  orgId := org.orgId
  name := org.name
  description := org.description
  createdAt := formats.rfc3339 org.createdAt
  lastEventAt := formats.rfc3339 org.lastEventAt

def insertOrg (rows : Rows) (org : IndexedOrg) : Except RebuildError Rows :=
  execute rows (.insert (.orgs (orgRow formats org)))

def projectRow (project : IndexedProject) : ProjectRow where
  projectId := project.projectId
  orgId := project.orgId
  name := project.name
  description := project.description
  createdAt := formats.rfc3339 project.createdAt
  lastEventAt := formats.rfc3339 project.lastEventAt

def insertProject (rows : Rows) (project : IndexedProject) : Except RebuildError Rows :=
  execute rows (.insert (.projects (projectRow formats project)))

def missionRow (mission : IndexedMission) : MissionRow where
  missionId := mission.missionId
  projectId := mission.projectId
  title := mission.title
  description := mission.description
  status := mission.status.name
  createdAt := formats.rfc3339 mission.createdAt
  lastEventAt := formats.rfc3339 mission.lastEventAt

def insertMission (rows : Rows) (mission : IndexedMission) : Except RebuildError Rows :=
  execute rows (.insert (.missions (missionRow formats mission)))

def sessionRow (session : IndexedSession) : SessionRow where
  sessionId := session.sessionId
  sessionName := session.sessionName
  actorId := session.actorId
  actorType := session.actorType.map ActorType.name
  appId := session.source.appId
  appSessionId := session.source.appSessionId
  appSessionName := session.source.appSessionName
  runtimeId := session.source.runtimeId
  startedAt := formats.rfc3339 session.startedAt
  lastEventAt := formats.rfc3339 session.lastEventAt

def insertSession (rows : Rows) (session : IndexedSession) : Except RebuildError Rows := do
  let rows ← execute rows (.insert (.sessions (sessionRow formats session)))
  session.missionIds.toList.foldlM (fun rows missionId =>
    execute rows (.insert (.sessionMissions ⟨session.sessionId, missionId⟩))) rows

def artifactRow (artifact : IndexedArtifact) : ArtifactRow where
  artifactId := artifact.artifactId
  artifactKind := artifact.artifactKind.map ArtifactKind.name
  title := artifact.title
  body := artifact.body
  createdAt := formats.rfc3339 artifact.createdAt
  lastEventAt := formats.rfc3339 artifact.lastEventAt

def insertArtifact (rows : Rows) (artifact : IndexedArtifact) : Except RebuildError Rows := do
  let rows ← execute rows (.insert (.artifacts (artifactRow formats artifact)))
  let rows ← artifact.missionIds.toList.foldlM (fun rows missionId =>
    execute rows (.insert (.artifactMissions ⟨artifact.artifactId, missionId⟩))) rows
  let rows ← artifact.sessionIds.toList.foldlM (fun rows sessionId =>
    execute rows (.insert (.artifactSessions ⟨artifact.artifactId, sessionId⟩))) rows
  let rows ← artifact.filePaths.toList.foldlM (fun rows path =>
    execute rows (.insertOrIgnore (.artifactFiles ⟨artifact.artifactId, path⟩))) rows
  artifact.attachmentIds.toList.foldlM (fun rows attachmentId =>
    execute rows (.insertOrIgnore (.artifactAttachments ⟨artifact.artifactId, attachmentId⟩))) rows

def fileRefRow (path : String) (fileRef : IndexedFileRef) : FileRefRow where
  fileRefId := fileRef.fileRefId
  artifactId := fileRef.artifactId
  sessionId := fileRef.sessionId
  repoContextId := fileRef.repoContextId
  path := path
  recordedAt := formats.rfc3339 fileRef.recordedAt

def insertFile (rows : Rows) (file : IndexedFile) : Except RebuildError Rows := do
  let rows ← execute rows (.insert (.files ⟨file.path⟩))
  file.fileRefs.foldlM (fun rows fileRef => do
    let rows ← execute rows (.insert (.fileRefs (fileRefRow formats file.path fileRef)))
    execute rows (.insertOrIgnore (.artifactFiles ⟨fileRef.artifactId, file.path⟩))) rows

def attachmentRow (attachment : IndexedAttachment) (sizeBytes : Int64) : AttachmentRow where
  attachmentId := attachment.attachmentId
  name := attachment.name
  originalPath := attachment.originalPath
  contentType := attachment.contentType
  sha256 := attachment.sha256
  sizeBytes := sizeBytes
  storageUri := attachment.storageUri
  externalUri := attachment.externalUri
  availability := attachment.availability.name
  repoContextId := attachment.repoContextId
  uploadedAt := formats.rfc3339 attachment.uploadedAt

def insertAttachment (rows : Rows) (attachment : IndexedAttachment) :
    Except RebuildError Rows := do
  let sizeBytes ← sqliteInteger "attachment size cannot fit in SQLite integer"
    attachment.sizeBytes.toNat
  let rows ← execute rows (.insert (.attachments (attachmentRow formats attachment sizeBytes)))
  execute rows
    (.insertOrIgnore (.artifactAttachments ⟨attachment.artifactId, attachment.attachmentId⟩))

def diffRow (diff : IndexedDiff) (fileCount additions deletions binaryFileCount : Int64) :
    DiffRow where
  diffId := diff.diffId
  artifactId := diff.artifactId
  sessionId := diff.sessionId
  missionId := diff.missionId
  diffTarget := diff.diffTarget.name
  baseCommit := diff.baseCommit
  headCommit := diff.headCommit
  patchId := diff.patchId
  summaryHash := diff.summaryHash
  fileCount := fileCount
  additions := additions
  deletions := deletions
  binaryFileCount := binaryFileCount
  repoContextId := diff.repoContextId
  capturedAt := formats.rfc3339 diff.capturedAt

def diffFileRow (diffId : String) (change : IndexedDiffFileChange) : DiffFileRow where
  diffId := diffId
  path := change.path
  oldPath := change.oldPath
  changeKind := change.changeKind.name
  additions := change.additions.map saturatingInteger
  deletions := change.deletions.map saturatingInteger

def insertDiff (rows : Rows) (diff : IndexedDiff) : Except RebuildError Rows := do
  let fileCount ← sqliteInteger "diff file count cannot fit in SQLite integer" diff.fileCount
  let additions ← sqliteInteger "diff additions cannot fit in SQLite integer" diff.additions.toNat
  let deletions ← sqliteInteger "diff deletions cannot fit in SQLite integer" diff.deletions.toNat
  let binaryFileCount ← sqliteInteger "diff binary file count cannot fit in SQLite integer"
    diff.binaryFileCount
  let rows ← execute rows
    (.insert (.diffs (diffRow formats diff fileCount additions deletions binaryFileCount)))
  diff.fileChanges.foldlM (fun rows change =>
    execute rows (.insert (.diffFiles (diffFileRow diff.diffId change)))) rows

def sessionLogRow (sessionLog : IndexedSessionLog) (sizeBytes : Int64) : SessionLogRow where
  logRefId := sessionLog.logRefId
  sessionId := sessionLog.sessionId
  originalPath := sessionLog.originalPath
  format := sessionLog.format.name
  source := sessionLog.source
  sha256 := sessionLog.sha256
  sizeBytes := sizeBytes
  storageUri := sessionLog.storageUri
  localPath := sessionLog.localPath
  externalUri := sessionLog.externalUri
  availability := sessionLog.availability.name
  repoContextId := sessionLog.repoContextId
  uploadedAt := formats.rfc3339 sessionLog.uploadedAt

def insertSessionLog (rows : Rows) (sessionLog : IndexedSessionLog) :
    Except RebuildError Rows := do
  let sizeBytes ← sqliteInteger "session log size cannot fit in SQLite integer"
    sessionLog.sizeBytes.toNat
  execute rows (.insert (.sessionLogs (sessionLogRow formats sessionLog sizeBytes)))

def repoContextRow (repoContext : IndexedRepoContext) : RepoContextRow where
  repoContextId := repoContext.repoContextId
  branch := repoContext.branch
  headCommit := repoContext.headCommit
  dirty := repoContext.dirty
  capturedAt := formats.rfc3339 repoContext.capturedAt

def insertRepoContext (rows : Rows) (repoContext : IndexedRepoContext) :
    Except RebuildError Rows :=
  execute rows (.insert (.repoContexts (repoContextRow formats repoContext)))

/-- Inserts the records of a map in the order of their keys. -/
def insertValues {A : Type} (insert : Rows → A → Except RebuildError Rows)
    (records : OrderedMap.Map String A) (rows : Rows) : Except RebuildError Rows :=
  (OrderedMap.values records).foldlM insert rows

def insertIndex (rows : Rows) (index : TraceIndex) : Except RebuildError Rows := do
  let rows ← insertValues (insertOrg formats) index.orgs rows
  let rows ← insertValues (insertProject formats) index.projects rows
  let rows ← insertValues (insertMission formats) index.missions rows
  let rows ← insertValues (insertSession formats) index.sessions rows
  let rows ← insertValues (insertArtifact formats) index.artifacts rows
  let rows ← insertValues (insertFile formats) index.files rows
  let rows ← insertValues (insertAttachment formats) index.attachments rows
  let rows ← insertValues (insertDiff formats) index.diffs rows
  let rows ← insertValues (insertSessionLog formats) index.sessionLogs rows
  insertValues (insertRepoContext formats) index.repoContexts rows

end Insert

def metadataValue (cache : QueryCache) (key : String) : Option String :=
  cache.rows.findSome? fun
    | .metadata row => if row.key = key then some row.value else none
    | _ => none

def prepareSchemaForRebuild (cache : QueryCache) : Except RebuildError QueryCache :=
  if cache.hasTables then
    match metadataValue cache "schema_version" with
    | none => .ok cache.resetSchema
    | some value =>
        match Numerals.parseUnsigned UInt16.size value with
        | none => .error (.schemaVersion value)
        | some version =>
            if version = sqliteIndexSchemaVersion.toNat then .ok cache.createSchema
            else .ok cache.resetSchema
  else .ok cache.resetSchema

/-- The outcome and the cache it leaves; a failed transaction is rolled back. -/
def rebuildSqliteIndex (formats : TextFormats) (now : DateTime) (cache : QueryCache)
    (events : List TraceEvent) (index : TraceIndex) : Except RebuildError Unit × QueryCache :=
  match prepareSchemaForRebuild cache with
  | .error failure => (.error failure, cache)
  | .ok prepared =>
      let transaction : Except RebuildError Rows := do
        let rows ← insertMetadata formats now prepared.clearTables.rows events.length
        let rows ← insertEvents formats rows events
        insertIndex formats rows index
      match transaction with
      | .error failure => (.error failure, prepared)
      | .ok rows => (.ok (), { prepared with rows := rows })

end BrickTrace
