import BrickTrace.Core.Index
import BrickTrace.Lib.Fallible

/-!
# What one event records

Attachments, diffs, session logs, repo contexts and file references are only
added by events; no event edits one that is there.  `recordEvent` says what an
event adds, `applyEvent_records` that the projection adds exactly that.
-/

set_option autoImplicit false

namespace BrickTrace

open OrderedMap TraceIndex

/-- The part of an index that events only add to. -/
structure IndexRecords where
  attachments : Map String IndexedAttachment
  diffs : Map String IndexedDiff
  sessionLogs : Map String IndexedSessionLog
  files : Map String IndexedFile
  repoContexts : Map String IndexedRepoContext

def TraceIndex.records (index : TraceIndex) : IndexRecords where
  attachments := index.attachments
  diffs := index.diffs
  sessionLogs := index.sessionLogs
  files := index.files
  repoContexts := index.repoContexts

namespace TraceEvent

def uploadedAttachment (event : TraceEvent) : Option IndexedAttachment :=
  match event.eventType, event.artifactId with
  | .artifactAttachmentUploaded, some artifactId =>
      (ArtifactAttachmentUploadedPayload.decode event.payload).map
        (indexedAttachment event artifactId)
  | _, _ => none

def uploadedSessionLog (event : TraceEvent) : Option IndexedSessionLog :=
  match event.eventType, event.sessionId with
  | .sessionLogUploaded, some sessionId =>
      (SessionLogUploadedPayload.decode event.payload).map (indexedSessionLog event sessionId)
  | _, _ => none

/-- The artifact and the payload of a diff capture that is projected. -/
def capturedDiff (event : TraceEvent) : Option (ArtifactId × DiffCapturedPayload) :=
  match event.eventType, event.artifactId with
  | .diffCaptured, some artifactId =>
      (DiffCapturedPayload.decode event.payload).map fun payload => (artifactId, payload)
  | _, _ => none

/-- The artifact and the payload of a recorded file reference that is projected. -/
def recordedFileRef (event : TraceEvent) : Option (ArtifactId × ArtifactFileRefRecordedPayload) :=
  match event.eventType, event.artifactId with
  | .artifactFileRefRecorded, some artifactId =>
      (ArtifactFileRefRecordedPayload.decode event.payload).map fun payload => (artifactId, payload)
  | _, _ => none

def capturedRepoContext (event : TraceEvent) : Option IndexedRepoContext :=
  match event.eventType, event.repoContextId with
  | .repoContextCaptured, some repoContextId =>
      (RepoContextCapturedPayload.decode event.payload).map (indexedRepoContext event repoContextId)
  | _, _ => none

def indexedCapture (mode : OverflowMode) (event : TraceEvent) : Option IndexedDiff := do
  let (artifactId, payload) ← event.capturedDiff
  let additions ← (sumU64 mode (payload.fileChanges.filterMap DiffFileChange.additions)).toOption
  let deletions ← (sumU64 mode (payload.fileChanges.filterMap DiffFileChange.deletions)).toOption
  return indexedDiff event artifactId payload additions deletions

/-- The references an event adds, each with the path it is filed under. -/
def fileRefs (event : TraceEvent) : List (String × IndexedFileRef) :=
  (match event.recordedFileRef with
    | some (artifactId, payload) =>
        [(payload.path,
          indexedFileRef event artifactId payload.fileRefId.text payload.repoContextId)]
    | none => []) ++
  (match event.capturedDiff with
    | some (artifactId, payload) => payload.fileChanges.map fun change =>
        (change.path, indexedFileRef event artifactId event.eventId.text payload.repoContextId)
    | none => [])

end TraceEvent

def pushFileRefs (files : Map String IndexedFile) (fileRefs : List (String × IndexedFileRef)) :
    Map String IndexedFile :=
  fileRefs.foldl (fun files entry => TraceIndex.pushFileRef files entry.1 entry.2) files

/-- A record together with the identifier it is held under. -/
def entryOf {A : Type} (idOf : A → String) (record : Option A) : Option (String × A) :=
  record.map fun record => (idOf record, record)

def recordEvent (mode : OverflowMode) (records : IndexRecords) (event : TraceEvent) :
    IndexRecords where
  attachments := insertAll records.attachments
    (entryOf IndexedAttachment.attachmentId event.uploadedAttachment).toList
  diffs := insertAll records.diffs (entryOf IndexedDiff.diffId (event.indexedCapture mode)).toList
  sessionLogs := insertAll records.sessionLogs
    (entryOf IndexedSessionLog.logRefId event.uploadedSessionLog).toList
  files := pushFileRefs records.files event.fileRefs
  repoContexts := insertAll records.repoContexts
    (entryOf IndexedRepoContext.repoContextId event.capturedRepoContext).toList

theorem readPayload_eq_ok_iff {A : Type} {decode : Json → Option A} {event : TraceEvent}
    {payload : A} : readPayload decode event = .ok payload ↔ decode event.payload = some payload := by
  unfold readPayload
  cases decode event.payload <;> simp

/-! ## Each event type records through one reader at most -/

section Readers
variable (event : TraceEvent)

theorem uploadedAttachment_of_ne (other : event.eventType ≠ .artifactAttachmentUploaded) :
    event.uploadedAttachment = none := by
  unfold TraceEvent.uploadedAttachment
  split
  · rename_i type _
    exact absurd type other
  · rfl

theorem uploadedSessionLog_of_ne (other : event.eventType ≠ .sessionLogUploaded) :
    event.uploadedSessionLog = none := by
  unfold TraceEvent.uploadedSessionLog
  split
  · rename_i type _
    exact absurd type other
  · rfl

theorem capturedDiff_of_ne (other : event.eventType ≠ .diffCaptured) :
    event.capturedDiff = none := by
  unfold TraceEvent.capturedDiff
  split
  · rename_i type _
    exact absurd type other
  · rfl

theorem recordedFileRef_of_ne (other : event.eventType ≠ .artifactFileRefRecorded) :
    event.recordedFileRef = none := by
  unfold TraceEvent.recordedFileRef
  split
  · rename_i type _
    exact absurd type other
  · rfl

theorem capturedRepoContext_of_ne (other : event.eventType ≠ .repoContextCaptured) :
    event.capturedRepoContext = none := by
  unfold TraceEvent.capturedRepoContext
  split
  · rename_i type _
    exact absurd type other
  · rfl

variable {event}

/-- An event that is no upload and no capture records nothing. -/
theorem recordEvent_of_silent (mode : OverflowMode) (records : IndexRecords)
    (attachment : event.uploadedAttachment = none) (sessionLog : event.uploadedSessionLog = none)
    (diff : event.capturedDiff = none) (fileRef : event.recordedFileRef = none)
    (context : event.capturedRepoContext = none) : recordEvent mode records event = records := by
  simp [recordEvent, attachment, sessionLog, context, TraceEvent.indexedCapture, diff,
    TraceEvent.fileRefs, fileRef, entryOf, insertAll, pushFileRefs]

end Readers

/-- The entities that events edit are held under their own identifiers. -/
structure TraceIndex.EntitiesKeyed (index : TraceIndex) : Prop where
  orgs : Keyed IndexedOrg.orgId index.orgs
  projects : Keyed IndexedProject.projectId index.projects
  missions : Keyed IndexedMission.missionId index.missions
  sessions : Keyed IndexedSession.sessionId index.sessions
  artifacts : Keyed IndexedArtifact.artifactId index.artifacts

/-- What one projection step may do: the records become `records`, and the
entities stay under their identifiers. -/
structure Projects (index next : TraceIndex) (records : IndexRecords) : Prop where
  records : next.records = records
  keyed : index.EntitiesKeyed → next.EntitiesKeyed

theorem Projects.refl (index : TraceIndex) : Projects index index index.records :=
  ⟨rfl, id⟩

theorem Projects.trans {first second third : TraceIndex} {records : IndexRecords}
    (earlier : Projects first second records) (later : Projects second third second.records) :
    Projects first third records :=
  ⟨later.records.trans earlier.records, later.keyed ∘ earlier.keyed⟩

section Edits
variable {index : TraceIndex} {key : String}

theorem Projects.upsertOrgs {fresh : IndexedOrg} {edit : IndexedOrg → IndexedOrg}
    (own : fresh.orgId = key) (kept : ∀ org, (edit org).orgId = org.orgId) :
    Projects index { index with orgs := upsert index.orgs key fresh edit } index.records :=
  ⟨rfl, fun keyed => { keyed with orgs := keyed.orgs.upsert own kept }⟩

theorem Projects.upsertProjects {fresh : IndexedProject} {edit : IndexedProject → IndexedProject}
    (own : fresh.projectId = key) (kept : ∀ project, (edit project).projectId = project.projectId) :
    Projects index { index with projects := upsert index.projects key fresh edit } index.records :=
  ⟨rfl, fun keyed => { keyed with projects := keyed.projects.upsert own kept }⟩

theorem Projects.upsertMissions {fresh : IndexedMission} {edit : IndexedMission → IndexedMission}
    (own : fresh.missionId = key) (kept : ∀ mission, (edit mission).missionId = mission.missionId) :
    Projects index { index with missions := upsert index.missions key fresh edit } index.records :=
  ⟨rfl, fun keyed => { keyed with missions := keyed.missions.upsert own kept }⟩

theorem Projects.upsertSessions {fresh : IndexedSession} {edit : IndexedSession → IndexedSession}
    (own : fresh.sessionId = key) (kept : ∀ session, (edit session).sessionId = session.sessionId) :
    Projects index { index with sessions := upsert index.sessions key fresh edit } index.records :=
  ⟨rfl, fun keyed => { keyed with sessions := keyed.sessions.upsert own kept }⟩

theorem Projects.upsertArtifacts {fresh : IndexedArtifact} {edit : IndexedArtifact → IndexedArtifact}
    (own : fresh.artifactId = key) (kept : ∀ artifact, (edit artifact).artifactId = artifact.artifactId) :
    Projects index { index with artifacts := upsert index.artifacts key fresh edit } index.records :=
  ⟨rfl, fun keyed => { keyed with artifacts := keyed.artifacts.upsert own kept }⟩

theorem Projects.modifyOrgs {edit : IndexedOrg → IndexedOrg}
    (kept : ∀ org, (edit org).orgId = org.orgId) :
    Projects index { index with orgs := index.orgs.modify key edit } index.records :=
  ⟨rfl, fun keyed => { keyed with orgs := keyed.orgs.modify key kept }⟩

theorem Projects.modifyMissions {edit : IndexedMission → IndexedMission}
    (kept : ∀ mission, (edit mission).missionId = mission.missionId) :
    Projects index { index with missions := index.missions.modify key edit } index.records :=
  ⟨rfl, fun keyed => { keyed with missions := keyed.missions.modify key kept }⟩

theorem Projects.modifySessions {edit : IndexedSession → IndexedSession}
    (kept : ∀ session, (edit session).sessionId = session.sessionId) :
    Projects index { index with sessions := index.sessions.modify key edit } index.records :=
  ⟨rfl, fun keyed => { keyed with sessions := keyed.sessions.modify key kept }⟩

theorem Projects.modifyArtifacts {edit : IndexedArtifact → IndexedArtifact}
    (kept : ∀ artifact, (edit artifact).artifactId = artifact.artifactId) :
    Projects index { index with artifacts := index.artifacts.modify key edit } index.records :=
  ⟨rfl, fun keyed => { keyed with artifacts := keyed.artifacts.modify key kept }⟩

end Edits

namespace TraceIndex

/-! ## The edges of the graph record nothing -/

theorem linkProjectToOrg_projects (index : TraceIndex) (projectId : ProjectId) (orgId : OrgId)
    (event : TraceEvent) :
    Projects index (index.linkProjectToOrg projectId orgId event) index.records :=
  ⟨rfl, fun keyed => { keyed with
    orgs := keyed.orgs.upsert rfl fun _ => rfl
    projects := keyed.projects.upsert rfl fun _ => rfl }⟩

theorem linkMissionToProject_projects (index : TraceIndex) (missionId : MissionId)
    (projectId : ProjectId) (event : TraceEvent) :
    Projects index (index.linkMissionToProject missionId projectId event) index.records :=
  ⟨rfl, fun keyed => { keyed with
    projects := keyed.projects.upsert rfl fun _ => rfl
    missions := keyed.missions.upsert rfl fun _ => rfl }⟩

theorem linkSessionToMission_projects (index : TraceIndex) (sessionId : SessionId)
    (missionId : MissionId) (event : TraceEvent) :
    Projects index (index.linkSessionToMission sessionId missionId event) index.records :=
  ⟨rfl, fun keyed => { keyed with
    missions := keyed.missions.upsert rfl fun _ => rfl
    sessions := keyed.sessions.upsert rfl fun _ => rfl }⟩

theorem linkArtifactToMission_projects (index : TraceIndex) (artifactId : ArtifactId)
    (missionId : MissionId) (event : TraceEvent) :
    Projects index (index.linkArtifactToMission artifactId missionId event) index.records :=
  ⟨rfl, fun keyed => { keyed with
    missions := keyed.missions.upsert rfl fun _ => rfl
    artifacts := keyed.artifacts.upsert rfl fun _ => rfl }⟩

theorem linkArtifactToSession_projects (index : TraceIndex) (artifactId : ArtifactId)
    (sessionId : SessionId) (event : TraceEvent) :
    Projects index (index.linkArtifactToSession artifactId sessionId event) index.records :=
  ⟨rfl, fun keyed => { keyed with
    sessions := keyed.sessions.upsert rfl fun _ => rfl
    artifacts := keyed.artifacts.upsert rfl fun _ => rfl }⟩

theorem linkSessionIfNamed_projects (index : TraceIndex) (artifactId : ArtifactId)
    (event : TraceEvent) :
    Projects index (index.linkSessionIfNamed artifactId event) index.records := by
  unfold linkSessionIfNamed
  cases event.sessionId with
  | none => exact Projects.refl index
  | some sessionId => exact index.linkArtifactToSession_projects artifactId sessionId event

theorem linkMissionIfNamed_projects (index : TraceIndex) (artifactId : ArtifactId)
    (event : TraceEvent) :
    Projects index (index.linkMissionIfNamed artifactId event) index.records := by
  unfold linkMissionIfNamed
  cases event.missionId with
  | none => exact Projects.refl index
  | some missionId => exact index.linkArtifactToMission_projects artifactId missionId event

/-! ## Events that edit entities only -/

section Entities
variable {index next : TraceIndex} {event : TraceEvent}

theorem applyOrgCreated_projects (applied : index.applyOrgCreated event = .ok next) :
    Projects index next index.records := by
  unfold applyOrgCreated at applied
  cases named : event.orgId with
  | none =>
      simp only [named] at applied
      cases applied
      exact Projects.refl index
  | some orgId =>
      simp only [named] at applied
      obtain ⟨payload, -, applied⟩ := Fallible.bind_eq_ok_iff.mp applied
      cases applied
      exact Projects.upsertOrgs (by rfl) fun _ => by rfl

theorem applyOrgUpdated_projects (applied : index.applyOrgUpdated event = .ok next) :
    Projects index next index.records := by
  unfold applyOrgUpdated at applied
  cases named : event.orgId with
  | none =>
      simp only [named] at applied
      cases applied
      exact Projects.refl index
  | some orgId =>
      simp only [named] at applied
      obtain ⟨payload, -, applied⟩ := Fallible.bind_eq_ok_iff.mp applied
      cases applied
      exact Projects.upsertOrgs (by rfl) fun _ => by rfl

theorem applyProjectCreated_projects (applied : index.applyProjectCreated event = .ok next) :
    Projects index next index.records := by
  unfold applyProjectCreated at applied
  cases named : event.projectId with
  | none =>
      simp only [named] at applied
      cases applied
      exact Projects.refl index
  | some projectId =>
      simp only [named] at applied
      obtain ⟨payload, -, applied⟩ := Fallible.bind_eq_ok_iff.mp applied
      cases applied
      exact ((Projects.upsertProjects (by rfl) fun _ => by rfl).trans
        (linkProjectToOrg_projects _ projectId payload.orgId event)).trans
          (Projects.modifyOrgs fun _ => by rfl)

theorem applyProjectUpdated_projects (applied : index.applyProjectUpdated event = .ok next) :
    Projects index next index.records := by
  unfold applyProjectUpdated at applied
  cases named : event.projectId with
  | none =>
      simp only [named] at applied
      cases applied
      exact Projects.refl index
  | some projectId =>
      simp only [named] at applied
      obtain ⟨payload, -, applied⟩ := Fallible.bind_eq_ok_iff.mp applied
      cases applied
      cases payload.orgId with
      | none => exact Projects.upsertProjects (by rfl) fun _ => by rfl
      | some orgId =>
          exact (linkProjectToOrg_projects index projectId orgId event).trans
            (Projects.upsertProjects (by rfl) fun _ => by rfl)

theorem applyMissionCreated_projects (applied : index.applyMissionCreated event = .ok next) :
    Projects index next index.records := by
  unfold applyMissionCreated at applied
  cases named : event.missionId with
  | none =>
      simp only [named] at applied
      cases applied
      exact Projects.refl index
  | some missionId =>
      simp only [named] at applied
      obtain ⟨payload, -, applied⟩ := Fallible.bind_eq_ok_iff.mp applied
      cases applied
      exact (linkMissionToProject_projects index missionId payload.projectId event).trans
        (Projects.upsertMissions (by rfl) fun _ => by rfl)

theorem applyMissionUpdated_projects (applied : index.applyMissionUpdated event = .ok next) :
    Projects index next index.records := by
  unfold applyMissionUpdated at applied
  cases named : event.missionId with
  | none =>
      simp only [named] at applied
      cases applied
      exact Projects.refl index
  | some missionId =>
      simp only [named] at applied
      obtain ⟨payload, -, applied⟩ := Fallible.bind_eq_ok_iff.mp applied
      cases applied
      cases payload.projectId with
      | none => exact Projects.upsertMissions (by rfl) fun _ => by rfl
      | some projectId =>
          exact (linkMissionToProject_projects index missionId projectId event).trans
            (Projects.upsertMissions (by rfl) fun _ => by rfl)

theorem applySessionStarted_projects (applied : index.applySessionStarted event = .ok next) :
    Projects index next index.records := by
  unfold applySessionStarted at applied
  cases named : event.sessionId with
  | none =>
      simp only [named] at applied
      cases applied
      exact Projects.refl index
  | some sessionId =>
      simp only [named] at applied
      obtain ⟨payload, -, applied⟩ := Fallible.bind_eq_ok_iff.mp applied
      cases applied
      cases event.missionId with
      | none => exact Projects.upsertSessions (by rfl) fun _ => by rfl
      | some missionId =>
          exact (Projects.upsertSessions (by rfl) fun _ => by rfl).trans
            (linkSessionToMission_projects _ sessionId missionId event)

theorem applySessionLinked_projects (applied : index.applySessionLinked event = .ok next) :
    Projects index next index.records := by
  unfold applySessionLinked at applied
  cases named : event.sessionId with
  | none =>
      simp only [named] at applied
      cases applied
      exact Projects.refl index
  | some sessionId =>
      cases missionNamed : event.missionId with
      | none =>
          simp only [named, missionNamed] at applied
          cases applied
          exact Projects.refl index
      | some missionId =>
          simp only [named, missionNamed] at applied
          obtain ⟨payload, -, applied⟩ := Fallible.bind_eq_ok_iff.mp applied
          cases applied
          exact ((linkSessionToMission_projects index sessionId missionId event).trans
            (Projects.modifySessions fun _ => by rfl)).trans (Projects.modifyMissions fun _ => by rfl)

theorem applyArtifactCreated_projects (applied : index.applyArtifactCreated event = .ok next) :
    Projects index next index.records := by
  unfold applyArtifactCreated at applied
  cases named : event.artifactId with
  | none =>
      simp only [named] at applied
      cases applied
      exact Projects.refl index
  | some artifactId =>
      simp only [named] at applied
      obtain ⟨payload, -, applied⟩ := Fallible.bind_eq_ok_iff.mp applied
      cases applied
      exact ((Projects.upsertArtifacts (by rfl) fun _ => by rfl).trans
        (linkMissionIfNamed_projects _ artifactId event)).trans
          (linkSessionIfNamed_projects _ artifactId event)

theorem applyArtifactUpdated_projects (applied : index.applyArtifactUpdated event = .ok next) :
    Projects index next index.records := by
  unfold applyArtifactUpdated at applied
  cases named : event.artifactId with
  | none =>
      simp only [named] at applied
      cases applied
      exact Projects.refl index
  | some artifactId =>
      simp only [named] at applied
      obtain ⟨payload, -, applied⟩ := Fallible.bind_eq_ok_iff.mp applied
      cases applied
      exact (Projects.upsertArtifacts (by rfl) fun _ => by rfl).trans
        (linkSessionIfNamed_projects _ artifactId event)

theorem applyArtifactLinked_projects (applied : index.applyArtifactLinked event = .ok next) :
    Projects index next index.records := by
  unfold applyArtifactLinked at applied
  cases named : event.artifactId with
  | none =>
      simp only [named] at applied
      cases applied
      exact Projects.refl index
  | some artifactId =>
      cases missionNamed : event.missionId with
      | none =>
          simp only [named, missionNamed] at applied
          cases applied
          exact Projects.refl index
      | some missionId =>
          simp only [named, missionNamed] at applied
          obtain ⟨payload, -, applied⟩ := Fallible.bind_eq_ok_iff.mp applied
          cases applied
          exact ((linkArtifactToMission_projects index artifactId missionId event).trans
            (Projects.modifyArtifacts fun _ => by rfl)).trans (Projects.modifyMissions fun _ => by rfl)

end Entities

/-! ## Events that record -/

section Recording
variable {mode : OverflowMode} {index next : TraceIndex} {event : TraceEvent}

theorem applySessionLogUploaded_projects (type : event.eventType = .sessionLogUploaded)
    (applied : index.applySessionLogUploaded event = .ok next) :
    Projects index next (recordEvent mode index.records event) := by
  have noAttachment := uploadedAttachment_of_ne event (by simp [type])
  have noDiff := capturedDiff_of_ne event (by simp [type])
  have noFileRef := recordedFileRef_of_ne event (by simp [type])
  have noContext := capturedRepoContext_of_ne event (by simp [type])
  unfold applySessionLogUploaded at applied
  cases named : event.sessionId with
  | none =>
      simp only [named] at applied
      cases applied
      have silent : event.uploadedSessionLog = none := by
        simp [TraceEvent.uploadedSessionLog, named]
      rw [recordEvent_of_silent mode _ noAttachment silent noDiff noFileRef noContext]
      exact Projects.refl index
  | some sessionId =>
      simp only [named] at applied
      obtain ⟨payload, read, applied⟩ := Fallible.bind_eq_ok_iff.mp applied
      cases applied
      have uploaded : event.uploadedSessionLog = some (indexedSessionLog event sessionId payload) := by
        simp [TraceEvent.uploadedSessionLog, type, named, readPayload_eq_ok_iff.mp read]
      refine ⟨?_, fun keyed => { keyed with sessions := keyed.sessions.upsert rfl fun _ => rfl }⟩
      simp only [recordEvent, TraceEvent.indexedCapture, TraceEvent.fileRefs, noAttachment, noDiff,
        noFileRef, noContext, uploaded]
      rfl

theorem applyArtifactAttachmentUploaded_projects
    (type : event.eventType = .artifactAttachmentUploaded)
    (applied : index.applyArtifactAttachmentUploaded event = .ok next) :
    Projects index next (recordEvent mode index.records event) := by
  have noSessionLog := uploadedSessionLog_of_ne event (by simp [type])
  have noDiff := capturedDiff_of_ne event (by simp [type])
  have noFileRef := recordedFileRef_of_ne event (by simp [type])
  have noContext := capturedRepoContext_of_ne event (by simp [type])
  unfold applyArtifactAttachmentUploaded at applied
  cases named : event.artifactId with
  | none =>
      simp only [named] at applied
      cases applied
      have silent : event.uploadedAttachment = none := by
        simp [TraceEvent.uploadedAttachment, named]
      rw [recordEvent_of_silent mode _ silent noSessionLog noDiff noFileRef noContext]
      exact Projects.refl index
  | some artifactId =>
      simp only [named] at applied
      obtain ⟨payload, read, applied⟩ := Fallible.bind_eq_ok_iff.mp applied
      cases applied
      have uploaded : event.uploadedAttachment =
          some (indexedAttachment event artifactId payload) := by
        simp [TraceEvent.uploadedAttachment, type, named, readPayload_eq_ok_iff.mp read]
      refine Projects.trans ?_ (linkSessionIfNamed_projects _ artifactId event)
      refine ⟨?_, fun keyed => { keyed with
        artifacts := keyed.artifacts.upsert rfl fun _ => rfl }⟩
      simp only [recordEvent, TraceEvent.indexedCapture, TraceEvent.fileRefs, noSessionLog, noDiff,
        noFileRef, noContext, uploaded]
      rfl

theorem applyArtifactFileRef_projects (type : event.eventType = .artifactFileRefRecorded)
    (applied : index.applyArtifactFileRef event = .ok next) :
    Projects index next (recordEvent mode index.records event) := by
  have noAttachment := uploadedAttachment_of_ne event (by simp [type])
  have noSessionLog := uploadedSessionLog_of_ne event (by simp [type])
  have noDiff := capturedDiff_of_ne event (by simp [type])
  have noContext := capturedRepoContext_of_ne event (by simp [type])
  unfold applyArtifactFileRef at applied
  cases named : event.artifactId with
  | none =>
      simp only [named] at applied
      cases applied
      have silent : event.recordedFileRef = none := by simp [TraceEvent.recordedFileRef, named]
      rw [recordEvent_of_silent mode _ noAttachment noSessionLog noDiff silent noContext]
      exact Projects.refl index
  | some artifactId =>
      simp only [named] at applied
      obtain ⟨payload, read, applied⟩ := Fallible.bind_eq_ok_iff.mp applied
      cases applied
      have recorded : event.recordedFileRef = some (artifactId, payload) := by
        simp [TraceEvent.recordedFileRef, type, named, readPayload_eq_ok_iff.mp read]
      refine Projects.trans ?_ (linkSessionIfNamed_projects _ artifactId event)
      refine ⟨?_, fun keyed => { keyed with
        artifacts := keyed.artifacts.modify _ fun _ => rfl }⟩
      simp only [recordEvent, TraceEvent.indexedCapture, TraceEvent.fileRefs, noAttachment,
        noSessionLog, noDiff, noContext, recorded]
      rfl

theorem applyDiffCaptured_projects (type : event.eventType = .diffCaptured)
    (applied : index.applyDiffCaptured mode event = .ok next) :
    Projects index next (recordEvent mode index.records event) := by
  have noAttachment := uploadedAttachment_of_ne event (by simp [type])
  have noSessionLog := uploadedSessionLog_of_ne event (by simp [type])
  have noFileRef := recordedFileRef_of_ne event (by simp [type])
  have noContext := capturedRepoContext_of_ne event (by simp [type])
  unfold applyDiffCaptured at applied
  cases named : event.artifactId with
  | none =>
      simp only [named] at applied
      cases applied
      have silent : event.capturedDiff = none := by simp [TraceEvent.capturedDiff, named]
      rw [recordEvent_of_silent mode _ noAttachment noSessionLog silent noFileRef noContext]
      exact Projects.refl index
  | some artifactId =>
      simp only [named] at applied
      obtain ⟨payload, read, applied⟩ := Fallible.bind_eq_ok_iff.mp applied
      obtain ⟨additions, added, applied⟩ := Fallible.bind_eq_ok_iff.mp applied
      obtain ⟨deletions, deleted, applied⟩ := Fallible.bind_eq_ok_iff.mp applied
      cases applied
      have captured : event.capturedDiff = some (artifactId, payload) := by
        simp [TraceEvent.capturedDiff, type, named, readPayload_eq_ok_iff.mp read]
      have indexed : event.indexedCapture mode =
          some (indexedDiff event artifactId payload additions deletions) := by
        simp [TraceEvent.indexedCapture, captured, added, deleted, Except.toOption]
      refine Projects.trans (Projects.trans ?_ (linkSessionIfNamed_projects _ artifactId event))
        (linkMissionIfNamed_projects _ artifactId event)
      refine ⟨?_, fun keyed => { keyed with
        artifacts := keyed.artifacts.upsert rfl fun _ => rfl }⟩
      simp only [recordEvent, TraceEvent.fileRefs, noAttachment, noSessionLog, noFileRef, noContext,
        captured, indexed, pushFileRefs, List.nil_append, List.foldl_map]
      rfl

theorem applyRepoContextCaptured_projects (type : event.eventType = .repoContextCaptured)
    (applied : index.applyRepoContextCaptured event = .ok next) :
    Projects index next (recordEvent mode index.records event) := by
  have noAttachment := uploadedAttachment_of_ne event (by simp [type])
  have noSessionLog := uploadedSessionLog_of_ne event (by simp [type])
  have noDiff := capturedDiff_of_ne event (by simp [type])
  have noFileRef := recordedFileRef_of_ne event (by simp [type])
  unfold applyRepoContextCaptured at applied
  cases named : event.repoContextId with
  | none =>
      simp only [named] at applied
      cases applied
      have silent : event.capturedRepoContext = none := by
        simp [TraceEvent.capturedRepoContext, named]
      rw [recordEvent_of_silent mode _ noAttachment noSessionLog noDiff noFileRef silent]
      exact Projects.refl index
  | some repoContextId =>
      simp only [named] at applied
      obtain ⟨payload, read, applied⟩ := Fallible.bind_eq_ok_iff.mp applied
      cases applied
      have captured : event.capturedRepoContext =
          some (indexedRepoContext event repoContextId payload) := by
        simp [TraceEvent.capturedRepoContext, type, named, readPayload_eq_ok_iff.mp read]
      refine ⟨?_, fun keyed => { keyed with }⟩
      simp only [recordEvent, TraceEvent.indexedCapture, TraceEvent.fileRefs, noAttachment,
        noSessionLog, noDiff, noFileRef, captured]
      rfl

/-- An event type without a recording reader leaves the records as they are. -/
theorem recordEvent_of_type (records : IndexRecords)
    (attachment : event.eventType ≠ .artifactAttachmentUploaded)
    (sessionLog : event.eventType ≠ .sessionLogUploaded) (diff : event.eventType ≠ .diffCaptured)
    (fileRef : event.eventType ≠ .artifactFileRefRecorded)
    (context : event.eventType ≠ .repoContextCaptured) :
    recordEvent mode records event = records :=
  recordEvent_of_silent mode records (uploadedAttachment_of_ne event attachment)
    (uploadedSessionLog_of_ne event sessionLog) (capturedDiff_of_ne event diff)
    (recordedFileRef_of_ne event fileRef) (capturedRepoContext_of_ne event context)

/-- The projection of one event, whatever its type. -/
theorem applyEvent_projects (applied : index.applyEvent mode event = .ok next) :
    Projects index next (recordEvent mode index.records event) := by
  have silent := @recordEvent_of_type mode event index.records
  cases type : event.eventType with
  | sessionLogUploaded =>
      exact applySessionLogUploaded_projects type (by simpa only [applyEvent, type] using applied)
  | artifactAttachmentUploaded =>
      exact applyArtifactAttachmentUploaded_projects type
        (by simpa only [applyEvent, type] using applied)
  | artifactFileRefRecorded =>
      exact applyArtifactFileRef_projects type (by simpa only [applyEvent, type] using applied)
  | diffCaptured =>
      exact applyDiffCaptured_projects type (by simpa only [applyEvent, type] using applied)
  | repoContextCaptured =>
      exact applyRepoContextCaptured_projects type (by simpa only [applyEvent, type] using applied)
  | _ =>
      rw [silent (by simp [type]) (by simp [type]) (by simp [type]) (by simp [type])
        (by simp [type])]
      simp only [applyEvent, type] at applied
      first
        | exact applyOrgCreated_projects applied
        | exact applyOrgUpdated_projects applied
        | exact applyProjectCreated_projects applied
        | exact applyProjectUpdated_projects applied
        | exact applyMissionCreated_projects applied
        | exact applyMissionUpdated_projects applied
        | exact applySessionStarted_projects applied
        | exact applySessionLinked_projects applied
        | exact applyArtifactCreated_projects applied
        | exact applyArtifactUpdated_projects applied
        | exact applyArtifactLinked_projects applied
        | (cases applied; exact Projects.refl index)

end Recording

end TraceIndex

/-! ## What a build records -/

def IndexRecords.empty : IndexRecords := ⟨∅, ∅, ∅, ∅, ∅⟩

section Build
variable {mode : OverflowMode} {now : DateTime} {events : List TraceEvent} {index : TraceIndex}

theorem build_records (built : TraceIndex.build mode now events = .ok index) :
    index.records = events.foldl (recordEvent mode) IndexRecords.empty :=
  Fallible.foldlM_view TraceIndex.records (recordEvent mode)
    (fun _ _ _ applied => (TraceIndex.applyEvent_projects applied).records) built

theorem build_entitiesKeyed (built : TraceIndex.build mode now events = .ok index) :
    index.EntitiesKeyed := by
  have step : ∀ index event next, index.EntitiesKeyed →
      TraceIndex.applyEvent mode index event = .ok next → next.EntitiesKeyed :=
    fun _ _ _ keyed applied => (TraceIndex.applyEvent_projects applied).keyed keyed
  refine Fallible.foldlM_invariant step ?_ built
  exact ⟨keyed_empty _, keyed_empty _, keyed_empty _, keyed_empty _, keyed_empty _⟩

end Build

/-- The entries that the events write, in order. -/
def entries {A : Type} (idOf : A → String) (read : TraceEvent → Option A)
    (events : List TraceEvent) : List (String × A) :=
  events.filterMap fun event => entryOf idOf (read event)

theorem entries_own {A : Type} {idOf : A → String} {read : TraceEvent → Option A}
    {events : List TraceEvent} {entry : String × A} (member : entry ∈ entries idOf read events) :
    idOf entry.2 = entry.1 ∧ ∃ event ∈ events, read event = some entry.2 := by
  obtain ⟨event, isEvent, found⟩ := List.mem_filterMap.mp member
  obtain ⟨record, isRecord, rfl⟩ := Option.map_eq_some_iff.mp found
  exact ⟨rfl, event, isEvent, isRecord⟩

/-- When the records are named after their events, so are the entries. -/
theorem entries_keys_sublist {A : Type} {idOf : A → String} {read : TraceEvent → Option A}
    {keyOf : TraceEvent → String} (named : ∀ event record, read event = some record →
      idOf record = keyOf event) (events : List TraceEvent) :
    ((entries idOf read events).map Prod.fst).Sublist (events.map keyOf) := by
  induction events with
  | nil => exact List.Sublist.refl _
  | cons event rest ih =>
      cases found : read event with
      | none =>
          have skip : entries idOf read (event :: rest) = entries idOf read rest := by
            simp [entries, entryOf, found]
          rw [skip]
          exact ih.cons _
      | some record =>
          have take : entries idOf read (event :: rest) =
              (idOf record, record) :: entries idOf read rest := by
            simp [entries, entryOf, found]
          rw [take, List.map_cons, List.map_cons, named event record found]
          exact ih.cons_cons _

theorem indexedCapture_diffId {mode : OverflowMode} {event : TraceEvent} {diff : IndexedDiff}
    (captured : event.indexedCapture mode = some diff) : diff.diffId = event.eventId.text := by
  unfold TraceEvent.indexedCapture at captured
  obtain ⟨_, -, captured⟩ := Option.bind_eq_some_iff.mp captured
  obtain ⟨_, -, captured⟩ := Option.bind_eq_some_iff.mp captured
  obtain ⟨_, -, captured⟩ := Option.bind_eq_some_iff.mp captured
  rw [← Option.some.inj captured]
  rfl

/-- A map that every event writes through one reader holds the entries of all events. -/
theorem foldl_entries {A : Type} (idOf : A → String) (read : TraceEvent → Option A)
    (view : IndexRecords → Map String A) (mode : OverflowMode)
    (writes : ∀ records event, view (recordEvent mode records event) =
      insertAll (view records) (entryOf idOf (read event)).toList)
    (records : IndexRecords) (events : List TraceEvent) :
    view (events.foldl (recordEvent mode) records) =
      insertAll (view records) (entries idOf read events) := by
  induction events generalizing records with
  | nil => rfl
  | cons event rest ih =>
      have split : entries idOf read (event :: rest) =
          (entryOf idOf (read event)).toList ++ entries idOf read rest := by
        unfold entries
        cases found : entryOf idOf (read event) <;> simp [found]
      rw [List.foldl_cons, ih, writes, split, insertAll_append]

/-- A file map grows by exactly the references that are pushed. -/
def filedRefs (files : Map String IndexedFile) : List (String × IndexedFileRef) :=
  files.toList.flatMap fun entry => entry.2.fileRefs.map fun fileRef => (entry.1, fileRef)

theorem filedRefs_pushFileRef (files : Map String IndexedFile) (path : String)
    (fileRef : IndexedFileRef) :
    (filedRefs (TraceIndex.pushFileRef files path fileRef)).Perm
      ((path, fileRef) :: filedRefs files) := by
  refine flatMap_upsert_perm files path (IndexedFile.new path) _ _ [(path, fileRef)] rfl ?_
  intro file
  simp only [List.map_append, List.map_cons, List.map_nil]
  exact List.perm_append_comm

theorem filedRefs_pushFileRefs (files : Map String IndexedFile)
    (fileRefs : List (String × IndexedFileRef)) :
    (filedRefs (pushFileRefs files fileRefs)).Perm (fileRefs ++ filedRefs files) := by
  induction fileRefs generalizing files with
  | nil => exact List.Perm.refl _
  | cons entry rest ih =>
      refine (ih (TraceIndex.pushFileRef files entry.1 entry.2)).trans ?_
      refine ((filedRefs_pushFileRef files entry.1 entry.2).append_left rest).trans ?_
      exact List.perm_middle

theorem foldl_filedRefs (mode : OverflowMode) (records : IndexRecords) (events : List TraceEvent) :
    (filedRefs (events.foldl (recordEvent mode) records).files).Perm
      (events.flatMap TraceEvent.fileRefs ++ filedRefs records.files) := by
  induction events generalizing records with
  | nil => exact List.Perm.refl _
  | cons event rest ih =>
      refine (ih (recordEvent mode records event)).trans ?_
      refine ((filedRefs_pushFileRefs records.files event.fileRefs).append_left _).trans ?_
      rw [List.flatMap_cons, ← List.append_assoc]
      exact List.perm_append_comm.append_right _

theorem keyed_pushFileRefs {files : Map String IndexedFile} (keyed : Keyed IndexedFile.path files)
    (fileRefs : List (String × IndexedFileRef)) :
    Keyed IndexedFile.path (pushFileRefs files fileRefs) := by
  induction fileRefs generalizing files with
  | nil => exact keyed
  | cons entry rest ih => exact ih (keyed.upsert rfl fun _ => rfl)

theorem foldl_keyed_files (mode : OverflowMode) (records : IndexRecords)
    (keyed : Keyed IndexedFile.path records.files) (events : List TraceEvent) :
    Keyed IndexedFile.path (events.foldl (recordEvent mode) records).files := by
  induction events generalizing records with
  | nil => exact keyed
  | cons event rest ih => exact ih (recordEvent mode records event) (keyed_pushFileRefs keyed _)

end BrickTrace
