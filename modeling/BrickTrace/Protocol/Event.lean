import BrickTrace.Lib.Json
import BrickTrace.Protocol.Ids

/-!
# Trace events

The envelope of an append-only provenance event and the enumerations of the
event wire schema.  Every enumeration comes with the names it has on the wire.
-/

set_option autoImplicit false

namespace BrickTrace

/-- A point in time, in nanoseconds. -/
structure DateTime where
  nanoseconds : Int
deriving DecidableEq

inductive ActorType where
  | human
  | agent
  | system
deriving DecidableEq

structure ActorRef where
  actorType : ActorType
  actorId : String
  displayName : Option String
deriving DecidableEq

inductive EventType where
  | orgCreated
  | orgUpdated
  | projectCreated
  | projectUpdated
  | missionCreated
  | missionUpdated
  | sessionStarted
  | sessionLinkedToMission
  | sessionLogUploaded
  | artifactCreated
  | artifactUpdated
  | artifactLinkedToMission
  | artifactFileRefRecorded
  | artifactAttachmentUploaded
  | artifactReviewed
  | artifactAccepted
  | repoContextCaptured
  | diffCaptured
  | externalRefLinked
  | sourceSessionObserved
deriving DecidableEq

inductive ConfidenceLevel where
  | explicit
  | observed
  | imported
  | inferred
  | unknown
deriving DecidableEq

inductive ContextMode where
  | attachedCurrentBranch
  | createdWorktree
  | detachedHead
  | unknown
deriving DecidableEq

inductive MissionStatus where
  | planned
  | active
  | blocked
  | completed
  | archived
deriving DecidableEq

instance : Inhabited MissionStatus := ⟨.planned⟩

inductive ArtifactKind where
  | decision
  | fileRef
  | patch
  | review
  | testResult
  | acceptance
  | note
deriving DecidableEq

inductive DiffTarget where
  | working
  | staged
  | range
deriving DecidableEq

inductive DiffFileChangeKind where
  | added
  | modified
  | deleted
  | renamed
  | copied
  | typeChanged
  | unknown
deriving DecidableEq

inductive SessionLogFormat where
  | text
  | jsonl
  | markdown
  | unknown
deriving DecidableEq

inductive EvidenceAvailability where
  | localPointer
  | localBlob
  | remoteBlob
deriving DecidableEq

/-! ## Names on the wire -/

def ContextMode.wireNames : List (String × ContextMode) :=
  [("attached_current_branch", .attachedCurrentBranch), ("created_worktree", .createdWorktree),
    ("detached_head", .detachedHead), ("unknown", .unknown)]

def MissionStatus.wireNames : List (String × MissionStatus) :=
  [("planned", .planned), ("active", .active), ("blocked", .blocked),
    ("completed", .completed), ("archived", .archived)]

def ArtifactKind.wireNames : List (String × ArtifactKind) :=
  [("decision", .decision), ("file_ref", .fileRef), ("patch", .patch), ("review", .review),
    ("test_result", .testResult), ("acceptance", .acceptance), ("note", .note)]

def DiffTarget.wireNames : List (String × DiffTarget) :=
  [("working", .working), ("staged", .staged), ("range", .range)]

def DiffFileChangeKind.wireNames : List (String × DiffFileChangeKind) :=
  [("added", .added), ("modified", .modified), ("deleted", .deleted), ("renamed", .renamed),
    ("copied", .copied), ("type_changed", .typeChanged), ("unknown", .unknown)]

def SessionLogFormat.wireNames : List (String × SessionLogFormat) :=
  [("text", .text), ("jsonl", .jsonl), ("markdown", .markdown), ("unknown", .unknown)]

def EvidenceAvailability.wireNames : List (String × EvidenceAvailability) :=
  [("local_pointer", .localPointer), ("local_blob", .localBlob), ("remote_blob", .remoteBlob)]

/-- The envelope; the payload stays JSON until a projection reads it. -/
structure TraceEvent where
  eventId : Uuid
  eventType : EventType
  schemaVersion : UInt16
  payloadSchemaVersion : UInt16
  occurredAt : DateTime
  recordedAt : DateTime
  actor : ActorRef
  repoId : Option String
  orgId : Option OrgId
  projectId : Option ProjectId
  missionId : Option MissionId
  sessionId : Option SessionId
  artifactId : Option ArtifactId
  repoContextId : Option RepoContextId
  confidence : ConfidenceLevel
  payload : Json

end BrickTrace
