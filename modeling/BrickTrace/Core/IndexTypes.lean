import BrickTrace.Lib.OrderedMap
import BrickTrace.Protocol.Payloads

/-!
# Data model of the rebuildable index

The records that the index keeps for each entity of the graph, and the blank
record an entity starts from when the first event that names it is projected.
-/

set_option autoImplicit false

namespace BrickTrace

open OrderedMap

def indexSchemaVersion : UInt16 := 1

structure IndexedOrg where
  orgId : String
  name : Option String
  description : Option String
  projectIds : KeySet String
  repoContextIds : KeySet String
  createdAt : DateTime
  lastEventAt : DateTime

def IndexedOrg.blank (orgId : String) (recordedAt : DateTime) : IndexedOrg where
  orgId := orgId
  name := none
  description := none
  projectIds := ∅
  repoContextIds := ∅
  createdAt := recordedAt
  lastEventAt := recordedAt

structure IndexedProject where
  projectId : String
  orgId : Option String
  name : Option String
  description : Option String
  missionIds : KeySet String
  repoContextIds : KeySet String
  createdAt : DateTime
  lastEventAt : DateTime

def IndexedProject.blank (projectId : String) (recordedAt : DateTime) : IndexedProject where
  projectId := projectId
  orgId := none
  name := none
  description := none
  missionIds := ∅
  repoContextIds := ∅
  createdAt := recordedAt
  lastEventAt := recordedAt

structure IndexedMission where
  missionId : String
  projectId : Option String
  title : Option String
  description : Option String
  status : MissionStatus
  sessionIds : KeySet String
  artifactIds : KeySet String
  repoContextIds : KeySet String
  createdAt : DateTime
  lastEventAt : DateTime

def IndexedMission.blank (missionId : String) (recordedAt : DateTime) : IndexedMission where
  missionId := missionId
  projectId := none
  title := none
  description := none
  status := default
  sessionIds := ∅
  artifactIds := ∅
  repoContextIds := ∅
  createdAt := recordedAt
  lastEventAt := recordedAt

structure IndexedSession where
  sessionId : String
  sessionName : Option String
  actorId : Option String
  actorType : Option ActorType
  source : SessionSource
  missionIds : KeySet String
  artifactIds : KeySet String
  logRefIds : KeySet String
  repoContextIds : KeySet String
  startedAt : DateTime
  lastEventAt : DateTime

def IndexedSession.blank (sessionId : String) (recordedAt : DateTime) (actor : ActorRef) :
    IndexedSession where
  sessionId := sessionId
  sessionName := none
  actorId := some actor.actorId
  actorType := some actor.actorType
  source := SessionSource.empty
  missionIds := ∅
  artifactIds := ∅
  logRefIds := ∅
  repoContextIds := ∅
  startedAt := recordedAt
  lastEventAt := recordedAt

structure IndexedArtifact where
  artifactId : String
  artifactKind : Option ArtifactKind
  title : Option String
  body : Option String
  missionIds : KeySet String
  sessionIds : KeySet String
  filePaths : KeySet String
  attachmentIds : KeySet String
  diffIds : KeySet String
  repoContextIds : KeySet String
  createdAt : DateTime
  lastEventAt : DateTime

def IndexedArtifact.blank (artifactId : String) (recordedAt : DateTime) : IndexedArtifact where
  artifactId := artifactId
  artifactKind := none
  title := none
  body := none
  missionIds := ∅
  sessionIds := ∅
  filePaths := ∅
  attachmentIds := ∅
  diffIds := ∅
  repoContextIds := ∅
  createdAt := recordedAt
  lastEventAt := recordedAt

structure IndexedAttachment where
  attachmentId : String
  artifactId : String
  sessionId : Option String
  name : String
  originalPath : String
  contentType : Option String
  sha256 : String
  sizeBytes : UInt64
  storageUri : String
  externalUri : Option String
  availability : EvidenceAvailability
  repoContextId : Option String
  uploadedAt : DateTime

/-- The per-file statistics of a diff; the patch id of the payload is left out. -/
structure IndexedDiffFileChange where
  path : String
  oldPath : Option String
  changeKind : DiffFileChangeKind
  additions : Option UInt64
  deletions : Option UInt64
  hunks : List DiffHunk

structure IndexedDiff where
  diffId : String
  artifactId : String
  sessionId : Option String
  missionId : Option String
  diffTarget : DiffTarget
  baseCommit : Option String
  headCommit : Option String
  patchId : Option String
  summaryHash : String
  fileCount : Nat
  additions : UInt64
  deletions : UInt64
  binaryFileCount : Nat
  repoContextId : Option String
  capturedAt : DateTime
  fileChanges : List IndexedDiffFileChange

structure IndexedSessionLog where
  logRefId : String
  sessionId : String
  originalPath : String
  format : SessionLogFormat
  source : String
  sha256 : String
  sizeBytes : UInt64
  storageUri : String
  localPath : String
  externalUri : Option String
  availability : EvidenceAvailability
  repoContextId : Option String
  uploadedAt : DateTime

structure IndexedFileRef where
  fileRefId : String
  artifactId : String
  sessionId : Option String
  repoContextId : Option String
  recordedAt : DateTime

structure IndexedFile where
  path : String
  fileRefs : List IndexedFileRef

def IndexedFile.new (path : String) : IndexedFile := ⟨path, []⟩

structure IndexedRepoContext where
  repoContextId : String
  branch : Option String
  headCommit : Option String
  dirty : Bool
  capturedAt : DateTime

/-- The graph index projected from the events. -/
structure TraceIndex where
  schemaVersion : UInt16
  rebuiltAt : DateTime
  eventCount : Nat
  orgs : Map String IndexedOrg
  projects : Map String IndexedProject
  missions : Map String IndexedMission
  sessions : Map String IndexedSession
  artifacts : Map String IndexedArtifact
  attachments : Map String IndexedAttachment
  diffs : Map String IndexedDiff
  sessionLogs : Map String IndexedSessionLog
  files : Map String IndexedFile
  repoContexts : Map String IndexedRepoContext

end BrickTrace
