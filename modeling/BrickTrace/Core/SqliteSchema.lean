import BrickTrace.Lib.KeyedRows
import BrickTrace.Protocol.Event

/-!
# Tables of the query cache

One row type for each table.  A column that may be null is optional, an integer
column is a 64-bit integer.  `Row.key` is the primary key of a row together with
its table; a key column that is null never makes two rows collide.
-/

set_option autoImplicit false

namespace BrickTrace

inductive Table where
  | metadata
  | events
  | orgs
  | projects
  | missions
  | sessions
  | sessionMissions
  | artifacts
  | artifactMissions
  | artifactSessions
  | files
  | artifactFiles
  | attachments
  | diffs
  | diffFiles
  | sessionLogs
  | artifactAttachments
  | fileRefs
  | repoContexts
deriving DecidableEq

structure MetadataRow where
  key : String
  value : String

structure EventRow where
  eventId : String
  eventType : String
  schemaVersion : Int64
  payloadSchemaVersion : Int64
  occurredAt : String
  recordedAt : String
  actorId : String
  actorType : String
  actorDisplayName : Option String
  repoId : Option String
  orgId : Option String
  projectId : Option String
  missionId : Option String
  sessionId : Option String
  artifactId : Option String
  repoContextId : Option String
  confidence : String
  payloadJson : String

structure OrgRow where
  orgId : String
  name : Option String
  description : Option String
  createdAt : String
  lastEventAt : String

structure ProjectRow where
  projectId : String
  orgId : Option String
  name : Option String
  description : Option String
  createdAt : String
  lastEventAt : String

structure MissionRow where
  missionId : String
  projectId : Option String
  title : Option String
  description : Option String
  status : String
  createdAt : String
  lastEventAt : String

structure SessionRow where
  sessionId : String
  sessionName : Option String
  actorId : Option String
  actorType : Option String
  appId : Option String
  appSessionId : Option String
  appSessionName : Option String
  runtimeId : Option String
  startedAt : String
  lastEventAt : String

structure SessionMissionRow where
  sessionId : String
  missionId : String

structure ArtifactRow where
  artifactId : String
  artifactKind : Option String
  title : Option String
  body : Option String
  createdAt : String
  lastEventAt : String

structure ArtifactMissionRow where
  artifactId : String
  missionId : String

structure ArtifactSessionRow where
  artifactId : String
  sessionId : String

structure FileRow where
  path : String

structure ArtifactFileRow where
  artifactId : String
  path : String

structure AttachmentRow where
  attachmentId : String
  name : String
  originalPath : String
  contentType : Option String
  sha256 : String
  sizeBytes : Int64
  storageUri : String
  externalUri : Option String
  availability : String
  repoContextId : Option String
  uploadedAt : String

structure DiffRow where
  diffId : String
  artifactId : String
  sessionId : Option String
  missionId : Option String
  diffTarget : String
  baseCommit : Option String
  headCommit : Option String
  patchId : Option String
  summaryHash : String
  fileCount : Int64
  additions : Int64
  deletions : Int64
  binaryFileCount : Int64
  repoContextId : Option String
  capturedAt : String

structure DiffFileRow where
  diffId : String
  path : String
  oldPath : Option String
  changeKind : String
  additions : Option Int64
  deletions : Option Int64

structure SessionLogRow where
  logRefId : String
  sessionId : String
  originalPath : String
  format : String
  source : String
  sha256 : String
  sizeBytes : Int64
  storageUri : String
  localPath : String
  externalUri : Option String
  availability : String
  repoContextId : Option String
  uploadedAt : String

structure ArtifactAttachmentRow where
  artifactId : String
  attachmentId : String

structure FileRefRow where
  fileRefId : String
  artifactId : String
  sessionId : Option String
  repoContextId : Option String
  path : String
  recordedAt : String

structure RepoContextRow where
  repoContextId : String
  branch : Option String
  headCommit : Option String
  dirty : Bool
  capturedAt : String

inductive Row where
  | metadata (row : MetadataRow)
  | events (row : EventRow)
  | orgs (row : OrgRow)
  | projects (row : ProjectRow)
  | missions (row : MissionRow)
  | sessions (row : SessionRow)
  | sessionMissions (row : SessionMissionRow)
  | artifacts (row : ArtifactRow)
  | artifactMissions (row : ArtifactMissionRow)
  | artifactSessions (row : ArtifactSessionRow)
  | files (row : FileRow)
  | artifactFiles (row : ArtifactFileRow)
  | attachments (row : AttachmentRow)
  | diffs (row : DiffRow)
  | diffFiles (row : DiffFileRow)
  | sessionLogs (row : SessionLogRow)
  | artifactAttachments (row : ArtifactAttachmentRow)
  | fileRefs (row : FileRefRow)
  | repoContexts (row : RepoContextRow)

namespace Row

def table : Row → Table
  | .metadata _ => .metadata
  | .events _ => .events
  | .orgs _ => .orgs
  | .projects _ => .projects
  | .missions _ => .missions
  | .sessions _ => .sessions
  | .sessionMissions _ => .sessionMissions
  | .artifacts _ => .artifacts
  | .artifactMissions _ => .artifactMissions
  | .artifactSessions _ => .artifactSessions
  | .files _ => .files
  | .artifactFiles _ => .artifactFiles
  | .attachments _ => .attachments
  | .diffs _ => .diffs
  | .diffFiles _ => .diffFiles
  | .sessionLogs _ => .sessionLogs
  | .artifactAttachments _ => .artifactAttachments
  | .fileRefs _ => .fileRefs
  | .repoContexts _ => .repoContexts

/-- The columns of the primary key, unless one of them is null. -/
def primaryKey : Row → Option (List String)
  | .metadata row => some [row.key]
  | .events row => some [row.eventId]
  | .orgs row => some [row.orgId]
  | .projects row => some [row.projectId]
  | .missions row => some [row.missionId]
  | .sessions row => some [row.sessionId]
  | .sessionMissions row => some [row.sessionId, row.missionId]
  | .artifacts row => some [row.artifactId]
  | .artifactMissions row => some [row.artifactId, row.missionId]
  | .artifactSessions row => some [row.artifactId, row.sessionId]
  | .files row => some [row.path]
  | .artifactFiles row => some [row.artifactId, row.path]
  | .attachments row => some [row.attachmentId]
  | .diffs row => some [row.diffId]
  | .diffFiles row => row.oldPath.map fun oldPath => [row.diffId, row.path, oldPath]
  | .sessionLogs row => some [row.logRefId]
  | .artifactAttachments row => some [row.artifactId, row.attachmentId]
  | .fileRefs row => some [row.fileRefId]
  | .repoContexts row => some [row.repoContextId]

def key (row : Row) : Option (Table × List String) :=
  row.primaryKey.map fun columns => (row.table, columns)

end Row

/-- The cache file: whether its tables exist, and the rows in them. -/
structure QueryCache where
  hasTables : Bool
  rows : List Row

namespace QueryCache

/-- Creates the tables that are missing and keeps the rows of the others. -/
def createSchema (cache : QueryCache) : QueryCache :=
  { cache with hasTables := true }

def resetSchema (_cache : QueryCache) : QueryCache := createSchema ⟨false, []⟩

def clearTables (cache : QueryCache) : QueryCache := { cache with rows := [] }

end QueryCache

end BrickTrace
