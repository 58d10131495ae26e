import BrickTrace.Core.IndexTypes

/-!
# Projection of the events into the index

`TraceIndex.build` folds the events, in order, into an empty index.  It fails
when the payload of a projected event does not parse, and, where additions of
unsigned integers are checked, when the line counts of a diff overflow.
-/

set_option autoImplicit false

namespace BrickTrace

open OrderedMap

/-- Whether the build checks unsigned additions for overflow or lets them wrap. -/
inductive OverflowMode where
  | checked
  | wrapping
deriving DecidableEq

inductive BuildError where
  | payload (eventId : Uuid) (eventType : String)
  | overflow
deriving DecidableEq

def EventType.name : EventType → String
  | .orgCreated => "org.created"
  | .orgUpdated => "org.updated"
  | .projectCreated => "project.created"
  | .projectUpdated => "project.updated"
  | .missionCreated => "mission.created"
  | .missionUpdated => "mission.updated"
  | .sessionStarted => "session.started"
  | .sessionLinkedToMission => "session.linked_to_mission"
  | .sessionLogUploaded => "session.log_uploaded"
  | .artifactCreated => "artifact.created"
  | .artifactUpdated => "artifact.updated"
  | .artifactLinkedToMission => "artifact.linked_to_mission"
  | .artifactFileRefRecorded => "artifact.file_ref_recorded"
  | .artifactAttachmentUploaded => "artifact.attachment_uploaded"
  | .artifactReviewed => "artifact.reviewed"
  | .artifactAccepted => "artifact.accepted"
  | .repoContextCaptured => "repo_context.captured"
  | .diffCaptured => "diff.captured"
  | .externalRefLinked => "external_ref.linked"
  | .sourceSessionObserved => "source.session_observed"

def BuildError.message : BuildError → String
  | .payload eventId eventType =>
      "failed to parse payload for event " ++ eventId.text ++ " (" ++ eventType ++ ")"
  | .overflow => "attempt to add with overflow"

def readPayload {A : Type} (decode : Json → Option A) (event : TraceEvent) :
    Except BuildError A :=
  match decode event.payload with
  | some payload => .ok payload
  | none => .error (.payload event.eventId event.eventType.name)

def insertOptional {kind : TraceIdKind} (ids : KeySet String) (id : Option (TraceId kind)) :
    KeySet String :=
  match id with
  | some id => ids.insert id.text
  | none => ids

def newOrg (orgId : OrgId) (event : TraceEvent) : IndexedOrg :=
  IndexedOrg.blank orgId.text event.recordedAt

def newProject (projectId : ProjectId) (event : TraceEvent) : IndexedProject :=
  IndexedProject.blank projectId.text event.recordedAt

def newMission (missionId : MissionId) (event : TraceEvent) : IndexedMission :=
  IndexedMission.blank missionId.text event.recordedAt

def newSession (sessionId : SessionId) (event : TraceEvent) : IndexedSession :=
  IndexedSession.blank sessionId.text event.recordedAt event.actor

def newArtifact (artifactId : ArtifactId) (event : TraceEvent) : IndexedArtifact :=
  IndexedArtifact.blank artifactId.text event.recordedAt

/-- A sum of unsigned 64-bit integers in the given overflow mode. -/
def sumU64 (mode : OverflowMode) (values : List UInt64) : Except BuildError UInt64 :=
  values.foldlM (fun total value =>
    match mode with
    | .checked =>
        if total.toNat + value.toNat < UInt64.size then .ok (total + value) else .error .overflow
    | .wrapping => .ok (total + value)) 0

namespace TraceIndex

def empty (now : DateTime) (eventCount : Nat) : TraceIndex where
  schemaVersion := indexSchemaVersion
  rebuiltAt := now
  eventCount := eventCount
  orgs := ∅
  projects := ∅
  missions := ∅
  sessions := ∅
  artifacts := ∅
  attachments := ∅
  diffs := ∅
  sessionLogs := ∅
  files := ∅
  repoContexts := ∅

/-! ## Edges of the graph -/

def linkProjectToOrg (index : TraceIndex) (projectId : ProjectId) (orgId : OrgId)
    (event : TraceEvent) : TraceIndex :=
  { index with
    orgs := upsert index.orgs orgId.text (newOrg orgId event) fun org =>
      { org with
        projectIds := org.projectIds.insert projectId.text
        lastEventAt := event.recordedAt }
    projects := upsert index.projects projectId.text (newProject projectId event) fun project =>
      { project with orgId := some orgId.text, lastEventAt := event.recordedAt } }

def linkMissionToProject (index : TraceIndex) (missionId : MissionId) (projectId : ProjectId)
    (event : TraceEvent) : TraceIndex :=
  { index with
    projects := upsert index.projects projectId.text (newProject projectId event) fun project =>
      { project with
        missionIds := project.missionIds.insert missionId.text
        lastEventAt := event.recordedAt }
    missions := upsert index.missions missionId.text (newMission missionId event) fun mission =>
      { mission with projectId := some projectId.text, lastEventAt := event.recordedAt } }

def linkSessionToMission (index : TraceIndex) (sessionId : SessionId) (missionId : MissionId)
    (event : TraceEvent) : TraceIndex :=
  { index with
    missions := upsert index.missions missionId.text (newMission missionId event) fun mission =>
      { mission with
        sessionIds := mission.sessionIds.insert sessionId.text
        lastEventAt := event.recordedAt }
    sessions := upsert index.sessions sessionId.text (newSession sessionId event) fun session =>
      { session with
        missionIds := session.missionIds.insert missionId.text
        lastEventAt := event.recordedAt } }

def linkArtifactToMission (index : TraceIndex) (artifactId : ArtifactId) (missionId : MissionId)
    (event : TraceEvent) : TraceIndex :=
  { index with
    missions := upsert index.missions missionId.text (newMission missionId event) fun mission =>
      { mission with
        artifactIds := mission.artifactIds.insert artifactId.text
        lastEventAt := event.recordedAt }
    artifacts :=
      upsert index.artifacts artifactId.text (newArtifact artifactId event) fun artifact =>
        { artifact with
          missionIds := artifact.missionIds.insert missionId.text
          lastEventAt := event.recordedAt } }

def linkArtifactToSession (index : TraceIndex) (artifactId : ArtifactId) (sessionId : SessionId)
    (event : TraceEvent) : TraceIndex :=
  { index with
    sessions := upsert index.sessions sessionId.text (newSession sessionId event) fun session =>
      { session with
        artifactIds := session.artifactIds.insert artifactId.text
        lastEventAt := event.recordedAt }
    artifacts :=
      upsert index.artifacts artifactId.text (newArtifact artifactId event) fun artifact =>
        { artifact with
          sessionIds := artifact.sessionIds.insert sessionId.text
          lastEventAt := event.recordedAt } }

def linkSessionIfNamed (index : TraceIndex) (artifactId : ArtifactId) (event : TraceEvent) :
    TraceIndex :=
  match event.sessionId with
  | some sessionId => index.linkArtifactToSession artifactId sessionId event
  | none => index

def linkMissionIfNamed (index : TraceIndex) (artifactId : ArtifactId) (event : TraceEvent) :
    TraceIndex :=
  match event.missionId with
  | some missionId => index.linkArtifactToMission artifactId missionId event
  | none => index

/-! ## One function for each projected event type -/

def applyOrgCreated (index : TraceIndex) (event : TraceEvent) : Except BuildError TraceIndex := do
  let some orgId := event.orgId | return index
  let payload ← readPayload OrgCreatedPayload.decode event
  return { index with
    orgs := upsert index.orgs orgId.text (newOrg orgId event) fun org =>
      { org with
        name := some payload.name
        description := payload.description
        repoContextIds := insertOptional org.repoContextIds payload.repoContextId
        lastEventAt := event.recordedAt } }

def applyOrgUpdated (index : TraceIndex) (event : TraceEvent) : Except BuildError TraceIndex := do
  let some orgId := event.orgId | return index
  let payload ← readPayload OrgUpdatedPayload.decode event
  return { index with
    orgs := upsert index.orgs orgId.text (newOrg orgId event) fun org =>
      { org with
        name := payload.name.or org.name
        description := payload.description.or org.description
        repoContextIds := insertOptional org.repoContextIds payload.repoContextId
        lastEventAt := event.recordedAt } }

def applyProjectCreated (index : TraceIndex) (event : TraceEvent) :
    Except BuildError TraceIndex := do
  let some projectId := event.projectId | return index
  let payload ← readPayload ProjectCreatedPayload.decode event
  let described := { index with
    projects := upsert index.projects projectId.text (newProject projectId event) fun project =>
      { project with
        orgId := some payload.orgId.text
        name := some payload.name
        description := payload.description
        repoContextIds := insertOptional project.repoContextIds payload.repoContextId
        lastEventAt := event.recordedAt } }
  let linked := described.linkProjectToOrg projectId payload.orgId event
  return { linked with
    orgs := linked.orgs.modify payload.orgId.text fun org =>
      { org with repoContextIds := insertOptional org.repoContextIds payload.repoContextId } }

def applyProjectUpdated (index : TraceIndex) (event : TraceEvent) :
    Except BuildError TraceIndex := do
  let some projectId := event.projectId | return index
  let payload ← readPayload ProjectUpdatedPayload.decode event
  let linked := match payload.orgId with
    | some orgId => index.linkProjectToOrg projectId orgId event
    | none => index
  return { linked with
    projects := upsert linked.projects projectId.text (newProject projectId event) fun project =>
      { project with
        orgId := (payload.orgId.map TraceId.text).or project.orgId
        name := payload.name.or project.name
        description := payload.description.or project.description
        repoContextIds := insertOptional project.repoContextIds payload.repoContextId
        lastEventAt := event.recordedAt } }

def applyMissionCreated (index : TraceIndex) (event : TraceEvent) :
    Except BuildError TraceIndex := do
  let some missionId := event.missionId | return index
  let payload ← readPayload MissionCreatedPayload.decode event
  let linked := index.linkMissionToProject missionId payload.projectId event
  return { linked with
    missions := upsert linked.missions missionId.text (newMission missionId event) fun mission =>
      { mission with
        projectId := some payload.projectId.text
        title := some payload.title
        description := payload.description
        status := payload.status
        repoContextIds := insertOptional mission.repoContextIds payload.repoContextId
        lastEventAt := event.recordedAt } }

def applyMissionUpdated (index : TraceIndex) (event : TraceEvent) :
    Except BuildError TraceIndex := do
  let some missionId := event.missionId | return index
  let payload ← readPayload MissionUpdatedPayload.decode event
  let linked := match payload.projectId with
    | some projectId => index.linkMissionToProject missionId projectId event
    | none => index
  return { linked with
    missions := upsert linked.missions missionId.text (newMission missionId event) fun mission =>
      { mission with
        projectId := (payload.projectId.map TraceId.text).or mission.projectId
        title := payload.title.or mission.title
        description := payload.description.or mission.description
        status := payload.status.getD mission.status
        repoContextIds := insertOptional mission.repoContextIds payload.repoContextId
        lastEventAt := event.recordedAt } }

def applySessionStarted (index : TraceIndex) (event : TraceEvent) :
    Except BuildError TraceIndex := do
  let some sessionId := event.sessionId | return index
  let payload ← readPayload SessionStartedPayload.decode event
  let described := { index with
    sessions := upsert index.sessions sessionId.text (newSession sessionId event) fun session =>
      { session with
        sessionName := payload.sessionName
        actorId := some event.actor.actorId
        actorType := some event.actor.actorType
        source := payload.source
        repoContextIds := insertOptional session.repoContextIds payload.repoContextId
        lastEventAt := event.recordedAt } }
  return match event.missionId with
    | some missionId => described.linkSessionToMission sessionId missionId event
    | none => described

def applySessionLinked (index : TraceIndex) (event : TraceEvent) :
    Except BuildError TraceIndex := do
  let some sessionId := event.sessionId | return index
  let some missionId := event.missionId | return index
  let payload ← readPayload SessionLinkedToMissionPayload.decode event
  let linked := index.linkSessionToMission sessionId missionId event
  return { linked with
    sessions := linked.sessions.modify sessionId.text fun session =>
      { session with
        repoContextIds := insertOptional session.repoContextIds payload.repoContextId }
    missions := linked.missions.modify missionId.text fun mission =>
      { mission with
        repoContextIds := insertOptional mission.repoContextIds payload.repoContextId } }

def indexedSessionLog (event : TraceEvent) (sessionId : SessionId)
    (payload : SessionLogUploadedPayload) : IndexedSessionLog where
  logRefId := payload.logRefId.text
  sessionId := sessionId.text
  originalPath := payload.originalPath
  format := payload.format
  source := payload.source
  sha256 := payload.sha256
  sizeBytes := payload.sizeBytes
  storageUri := payload.storageUri
  localPath := payload.localPath
  externalUri := payload.externalUri
  availability := payload.availability
  repoContextId := payload.repoContextId.map TraceId.text
  uploadedAt := event.recordedAt

def applySessionLogUploaded (index : TraceIndex) (event : TraceEvent) :
    Except BuildError TraceIndex := do
  let some sessionId := event.sessionId | return index
  let payload ← readPayload SessionLogUploadedPayload.decode event
  return { index with
    sessionLogs := index.sessionLogs.insert payload.logRefId.text
      (indexedSessionLog event sessionId payload)
    sessions := upsert index.sessions sessionId.text (newSession sessionId event) fun session =>
      { session with
        logRefIds := session.logRefIds.insert payload.logRefId.text
        repoContextIds := insertOptional session.repoContextIds payload.repoContextId
        lastEventAt := event.recordedAt } }

def applyArtifactCreated (index : TraceIndex) (event : TraceEvent) :
    Except BuildError TraceIndex := do
  let some artifactId := event.artifactId | return index
  let payload ← readPayload ArtifactCreatedPayload.decode event
  let described := { index with
    artifacts :=
      upsert index.artifacts artifactId.text (newArtifact artifactId event) fun artifact =>
        { artifact with
          artifactKind := some payload.artifactKind
          title := some payload.title
          body := payload.body
          repoContextIds := insertOptional artifact.repoContextIds payload.repoContextId
          lastEventAt := event.recordedAt } }
  return (described.linkMissionIfNamed artifactId event).linkSessionIfNamed artifactId event

def applyArtifactUpdated (index : TraceIndex) (event : TraceEvent) :
    Except BuildError TraceIndex := do
  let some artifactId := event.artifactId | return index
  let payload ← readPayload ArtifactUpdatedPayload.decode event
  let described := { index with
    artifacts :=
      upsert index.artifacts artifactId.text (newArtifact artifactId event) fun artifact =>
        { artifact with
          title := payload.title.or artifact.title
          body := payload.body.or artifact.body
          artifactKind := payload.artifactKind.or artifact.artifactKind
          repoContextIds := insertOptional artifact.repoContextIds payload.repoContextId
          lastEventAt := event.recordedAt } }
  return described.linkSessionIfNamed artifactId event

def applyArtifactLinked (index : TraceIndex) (event : TraceEvent) :
    Except BuildError TraceIndex := do
  let some artifactId := event.artifactId | return index
  let some missionId := event.missionId | return index
  let payload ← readPayload ArtifactLinkedToMissionPayload.decode event
  let linked := index.linkArtifactToMission artifactId missionId event
  return { linked with
    artifacts := linked.artifacts.modify artifactId.text fun artifact =>
      { artifact with
        repoContextIds := insertOptional artifact.repoContextIds payload.repoContextId }
    missions := linked.missions.modify missionId.text fun mission =>
      { mission with
        repoContextIds := insertOptional mission.repoContextIds payload.repoContextId } }

/-- Adds one reference under its path, creating the file's record when it is new. -/
def pushFileRef (files : Map String IndexedFile) (path : String) (fileRef : IndexedFileRef) :
    Map String IndexedFile :=
  upsert files path (IndexedFile.new path) fun file =>
    { file with fileRefs := file.fileRefs ++ [fileRef] }

def indexedFileRef (event : TraceEvent) (artifactId : ArtifactId) (fileRefId : String)
    (repoContextId : Option RepoContextId) : IndexedFileRef where
  fileRefId := fileRefId
  artifactId := artifactId.text
  sessionId := event.sessionId.map TraceId.text
  repoContextId := repoContextId.map TraceId.text
  recordedAt := event.recordedAt

def applyArtifactFileRef (index : TraceIndex) (event : TraceEvent) :
    Except BuildError TraceIndex := do
  let some artifactId := event.artifactId | return index
  let payload ← readPayload ArtifactFileRefRecordedPayload.decode event
  let recorded := { index with
    files := pushFileRef index.files payload.path
      (indexedFileRef event artifactId payload.fileRefId.text payload.repoContextId)
    artifacts := index.artifacts.modify artifactId.text fun artifact =>
      { artifact with
        filePaths := artifact.filePaths.insert payload.path
        repoContextIds := insertOptional artifact.repoContextIds payload.repoContextId
        lastEventAt := event.recordedAt } }
  return recorded.linkSessionIfNamed artifactId event

def indexedAttachment (event : TraceEvent) (artifactId : ArtifactId)
    (payload : ArtifactAttachmentUploadedPayload) : IndexedAttachment where
  attachmentId := payload.attachmentId.text
  artifactId := artifactId.text
  sessionId := event.sessionId.map TraceId.text
  name := payload.name
  originalPath := payload.originalPath
  contentType := payload.contentType
  sha256 := payload.sha256
  sizeBytes := payload.sizeBytes
  storageUri := payload.storageUri
  externalUri := payload.externalUri
  availability := payload.availability
  repoContextId := payload.repoContextId.map TraceId.text
  uploadedAt := event.recordedAt

def applyArtifactAttachmentUploaded (index : TraceIndex) (event : TraceEvent) :
    Except BuildError TraceIndex := do
  let some artifactId := event.artifactId | return index
  let payload ← readPayload ArtifactAttachmentUploadedPayload.decode event
  let recorded := { index with
    attachments := index.attachments.insert payload.attachmentId.text
      (indexedAttachment event artifactId payload)
    artifacts :=
      upsert index.artifacts artifactId.text (newArtifact artifactId event) fun artifact =>
        { artifact with
          attachmentIds := artifact.attachmentIds.insert payload.attachmentId.text
          repoContextIds := insertOptional artifact.repoContextIds payload.repoContextId
          lastEventAt := event.recordedAt } }
  return recorded.linkSessionIfNamed artifactId event

def indexedDiffFileChange (change : DiffFileChange) : IndexedDiffFileChange where
  path := change.path
  oldPath := change.oldPath
  changeKind := change.changeKind
  additions := change.additions
  deletions := change.deletions
  hunks := change.hunks

def indexedDiff (event : TraceEvent) (artifactId : ArtifactId) (payload : DiffCapturedPayload)
    (additions deletions : UInt64) : IndexedDiff where
  diffId := event.eventId.text
  artifactId := artifactId.text
  sessionId := event.sessionId.map TraceId.text
  missionId := event.missionId.map TraceId.text
  diffTarget := payload.diffTarget
  baseCommit := payload.baseCommit
  headCommit := payload.headCommit
  patchId := payload.patchId
  summaryHash := payload.summaryHash
  fileCount := payload.fileChanges.length
  additions := additions
  deletions := deletions
  binaryFileCount := payload.fileChanges.countP fun change =>
    change.additions.isNone || change.deletions.isNone
  repoContextId := payload.repoContextId.map TraceId.text
  capturedAt := event.recordedAt
  fileChanges := payload.fileChanges.map indexedDiffFileChange

/-- Every changed file gets a reference, and all of them carry the event's id. -/
def applyDiffCaptured (mode : OverflowMode) (index : TraceIndex) (event : TraceEvent) :
    Except BuildError TraceIndex := do
  let some artifactId := event.artifactId | return index
  let payload ← readPayload DiffCapturedPayload.decode event
  let additions ← sumU64 mode (payload.fileChanges.filterMap DiffFileChange.additions)
  let deletions ← sumU64 mode (payload.fileChanges.filterMap DiffFileChange.deletions)
  let recorded := { index with
    diffs := index.diffs.insert event.eventId.text
      (indexedDiff event artifactId payload additions deletions)
    artifacts :=
      upsert index.artifacts artifactId.text (newArtifact artifactId event) fun artifact =>
        { artifact with
          diffIds := artifact.diffIds.insert event.eventId.text
          repoContextIds := insertOptional artifact.repoContextIds payload.repoContextId
          lastEventAt := event.recordedAt
          filePaths := payload.fileChanges.foldl
            (fun paths (change : DiffFileChange) => paths.insert change.path)
            artifact.filePaths }
    files := payload.fileChanges.foldl (fun files (change : DiffFileChange) =>
      pushFileRef files change.path
        (indexedFileRef event artifactId event.eventId.text payload.repoContextId)) index.files }
  return (recorded.linkSessionIfNamed artifactId event).linkMissionIfNamed artifactId event

def indexedRepoContext (event : TraceEvent) (repoContextId : RepoContextId)
    (payload : RepoContextCapturedPayload) : IndexedRepoContext where
  repoContextId := repoContextId.text
  branch := payload.branch
  headCommit := payload.headCommit
  dirty := payload.dirty
  capturedAt := event.recordedAt

def applyRepoContextCaptured (index : TraceIndex) (event : TraceEvent) :
    Except BuildError TraceIndex := do
  let some repoContextId := event.repoContextId | return index
  let payload ← readPayload RepoContextCapturedPayload.decode event
  return { index with
    repoContexts := index.repoContexts.insert repoContextId.text
      (indexedRepoContext event repoContextId payload) }

def applyEvent (mode : OverflowMode) (index : TraceIndex) (event : TraceEvent) :
    Except BuildError TraceIndex :=
  match event.eventType with
  | .orgCreated => index.applyOrgCreated event
  | .orgUpdated => index.applyOrgUpdated event
  | .projectCreated => index.applyProjectCreated event
  | .projectUpdated => index.applyProjectUpdated event
  | .missionCreated => index.applyMissionCreated event
  | .missionUpdated => index.applyMissionUpdated event
  | .sessionStarted => index.applySessionStarted event
  | .sessionLinkedToMission => index.applySessionLinked event
  | .sessionLogUploaded => index.applySessionLogUploaded event
  | .artifactCreated => index.applyArtifactCreated event
  | .artifactUpdated => index.applyArtifactUpdated event
  | .artifactLinkedToMission => index.applyArtifactLinked event
  | .artifactFileRefRecorded => index.applyArtifactFileRef event
  | .artifactAttachmentUploaded => index.applyArtifactAttachmentUploaded event
  | .diffCaptured => index.applyDiffCaptured mode event
  | .repoContextCaptured => index.applyRepoContextCaptured event
  | .artifactReviewed | .artifactAccepted | .externalRefLinked | .sourceSessionObserved => .ok index

/-- Rebuilds the index from the event stream; `now` is the time of the rebuild. -/
def build (mode : OverflowMode) (now : DateTime) (events : List TraceEvent) :
    Except BuildError TraceIndex :=
  events.foldlM (applyEvent mode) (empty now events.length)

end TraceIndex

end BrickTrace
