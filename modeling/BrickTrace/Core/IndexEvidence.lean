import Mathlib.Data.List.Induction
import Mathlib.Data.Set.Insert
import BrickTrace.Lib.Links
import BrickTrace.Core.IndexRecords

/-!
# Evidence that the entities name

A session names its logs, an artifact its attachments, diffs and files.  The abstract
model keeps these as sets of pairs; an event may only add to them.  A file reference
counts for an artifact that is there already, every other record creates its owner.
-/

set_option autoImplicit false

namespace BrickTrace

open OrderedMap

/-! ## What one event names -/

namespace TraceEvent

/-- The session and the log of an upload. -/
def uploadedLogRef (event : TraceEvent) : Option (String × String) :=
  event.uploadedSessionLog.map fun log => (log.sessionId, log.logRefId)

/-- The artifact and the attachment of an upload. -/
def uploadedAttachmentRef (event : TraceEvent) : Option (String × String) :=
  event.uploadedAttachment.map fun attachment => (attachment.artifactId, attachment.attachmentId)

/-- The artifact and the diff of a capture. -/
def capturedDiffRef (event : TraceEvent) : Option (String × String) :=
  event.capturedDiff.map fun capture => (capture.1.text, event.eventId.text)

/-- The artifact of a capture with each changed path. -/
def capturedPaths (event : TraceEvent) : List (String × String) :=
  match event.capturedDiff with
  | some (artifactId, payload) => payload.fileChanges.map fun change => (artifactId.text, change.path)
  | none => []

/-- The artifact and the path of a recorded file reference. -/
def recordedPath (event : TraceEvent) : Option (String × String) :=
  event.recordedFileRef.map fun record => (record.1.text, record.2.path)

/-- The artifact whose record the event creates when there is none. -/
def createdArtifact (event : TraceEvent) : Option String :=
  match event.eventType with
  | .artifactCreated | .artifactUpdated | .artifactAttachmentUploaded | .diffCaptured =>
      event.artifactId.map TraceId.text
  | .artifactLinkedToMission =>
      if event.missionId.isSome then event.artifactId.map TraceId.text else none
  | .artifactFileRefRecorded =>
      if event.sessionId.isSome then event.artifactId.map TraceId.text else none
  | _ => none

/-- The event is no upload, no capture and no file reference. -/
structure RecordsNothing (event : TraceEvent) : Prop where
  log : event.uploadedSessionLog = none
  attachment : event.uploadedAttachment = none
  diff : event.capturedDiff = none
  fileRef : event.recordedFileRef = none

theorem recordsNothing_of_type {event : TraceEvent} (log : event.eventType ≠ .sessionLogUploaded)
    (attachment : event.eventType ≠ .artifactAttachmentUploaded)
    (diff : event.eventType ≠ .diffCaptured)
    (fileRef : event.eventType ≠ .artifactFileRefRecorded) : event.RecordsNothing :=
  ⟨uploadedSessionLog_of_ne event log, uploadedAttachment_of_ne event attachment,
    capturedDiff_of_ne event diff, recordedFileRef_of_ne event fileRef⟩

end TraceEvent

/-! ## The abstract model -/

@[ext] structure Evidence where
  /-- Sessions with their logs. -/
  logs : Set (String × String)
  /-- Artifacts with their attachments, diffs and files. -/
  attachments : Set (String × String)
  diffs : Set (String × String)
  paths : Set (String × String)
  artifacts : Set String

namespace Evidence

def empty : Evidence := ⟨∅, ∅, ∅, ∅, ∅⟩

def create (evidence : Evidence) (artifactId : String) : Evidence :=
  { evidence with artifacts := insert artifactId evidence.artifacts }

def step (evidence : Evidence) (event : TraceEvent) : Evidence where
  logs := {pair | event.uploadedLogRef = some pair} ∪ evidence.logs
  attachments := {pair | event.uploadedAttachmentRef = some pair} ∪ evidence.attachments
  diffs := {pair | event.capturedDiffRef = some pair} ∪ evidence.diffs
  paths := {pair | pair ∈ event.capturedPaths} ∪
    {pair | event.recordedPath = some pair ∧ pair.1 ∈ evidence.artifacts} ∪ evidence.paths
  artifacts := {artifactId | event.createdArtifact = some artifactId} ∪ evidence.artifacts

theorem create_of_mem {evidence : Evidence} {artifactId : String}
    (present : artifactId ∈ evidence.artifacts) : evidence.create artifactId = evidence := by
  unfold create
  rw [Set.insert_eq_of_mem present]

theorem mem_create (evidence : Evidence) (artifactId : String) :
    artifactId ∈ (evidence.create artifactId).artifacts := Set.mem_insert _ _

section Nothing
variable {event : TraceEvent} (evidence : Evidence) (nothing : event.RecordsNothing)
include nothing

/-- An event that records nothing creates an artifact at most. -/
theorem step_of_nothing : evidence.step event =
    { evidence with
      artifacts := {artifactId | event.createdArtifact = some artifactId} ∪ evidence.artifacts } := by
  obtain ⟨log, attachment, diff, fileRef⟩ := nothing
  ext <;> simp [step, TraceEvent.uploadedLogRef, TraceEvent.uploadedAttachmentRef,
    TraceEvent.capturedDiffRef, TraceEvent.capturedPaths, TraceEvent.recordedPath, log, attachment,
    diff, fileRef]

theorem step_of_none (created : event.createdArtifact = none) : evidence.step event = evidence := by
  rw [step_of_nothing evidence nothing, created]
  simp

theorem step_of_created {artifactId : String} (created : event.createdArtifact = some artifactId) :
    evidence.step event = evidence.create artifactId := by
  rw [step_of_nothing evidence nothing, created]
  ext <;> simp [create, eq_comm]

end Nothing

section Records
variable {event : TraceEvent} (evidence : Evidence)

theorem step_of_log {pair : String × String} (log : event.uploadedLogRef = some pair)
    (attachment : event.uploadedAttachment = none) (diff : event.capturedDiff = none)
    (fileRef : event.recordedFileRef = none) (created : event.createdArtifact = none) :
    evidence.step event = { evidence with logs := insert pair evidence.logs } := by
  simp [step, log, TraceEvent.uploadedAttachmentRef, attachment, TraceEvent.capturedDiffRef,
    TraceEvent.capturedPaths, diff, TraceEvent.recordedPath, fileRef, created, Set.singleton_union]

theorem step_of_attachment {pair : String × String} {artifactId : String}
    (attachment : event.uploadedAttachmentRef = some pair) (log : event.uploadedSessionLog = none)
    (diff : event.capturedDiff = none) (fileRef : event.recordedFileRef = none)
    (created : event.createdArtifact = some artifactId) : evidence.step event =
      { evidence with attachments := insert pair evidence.attachments }.create artifactId := by
  simp [step, create, attachment, TraceEvent.uploadedLogRef, log, TraceEvent.capturedDiffRef,
    TraceEvent.capturedPaths, diff, TraceEvent.recordedPath, fileRef, created, Set.singleton_union]

theorem step_of_diff {pair : String × String} {artifactId : String}
    (diff : event.capturedDiffRef = some pair) (log : event.uploadedSessionLog = none)
    (attachment : event.uploadedAttachment = none) (fileRef : event.recordedFileRef = none)
    (created : event.createdArtifact = some artifactId) : evidence.step event =
      { evidence with
        diffs := insert pair evidence.diffs
        paths := {path | path ∈ event.capturedPaths} ∪ evidence.paths }.create artifactId := by
  simp [step, create, diff, TraceEvent.uploadedLogRef, log, TraceEvent.uploadedAttachmentRef,
    attachment, TraceEvent.recordedPath, fileRef, created, Set.singleton_union]

theorem step_of_fileRef {pair : String × String} (fileRef : event.recordedPath = some pair)
    (log : event.uploadedSessionLog = none) (attachment : event.uploadedAttachment = none)
    (diff : event.capturedDiff = none) : evidence.step event =
      { evidence with
        paths := {path | pair = path ∧ pair.1 ∈ evidence.artifacts} ∪ evidence.paths
        artifacts := {artifactId | event.createdArtifact = some artifactId} ∪
          evidence.artifacts } := by
  have named : ({path | event.recordedPath = some path ∧ path.1 ∈ evidence.artifacts} :
      Set (String × String)) = {path | pair = path ∧ pair.1 ∈ evidence.artifacts} := by
    ext path
    rw [fileRef]
    simp only [Set.mem_ofPred_eq, Option.some.injEq]
    exact and_congr_right fun same => by rw [same]
  simp only [step, named]
  simp [TraceEvent.uploadedLogRef, log, TraceEvent.uploadedAttachmentRef, attachment,
    TraceEvent.capturedDiffRef, TraceEvent.capturedPaths, diff]

end Records

/-! ### The evidence of a run -/

variable (events : List TraceEvent)

def ofEvents : Evidence := events.foldl step empty

theorem ofEvents_append_singleton (event : TraceEvent) :
    ofEvents (events ++ [event]) = (ofEvents events).step event := by
  rw [ofEvents, List.foldl_append]
  rfl

/-- A set that each event adds to, whatever is there, holds what the events add. -/
theorem mem_ofEvents_iff {A : Type} (view : Evidence → Set A) (adds : TraceEvent → A → Prop)
    (start : view empty = ∅)
    (grows : ∀ evidence event, view (evidence.step event) = {a | adds event a} ∪ view evidence)
    (a : A) : a ∈ view (ofEvents events) ↔ ∃ event ∈ events, adds event a := by
  induction events using List.reverseRecOn with
  | nil => simp [ofEvents, start]
  | append_singleton before event ih =>
      rw [ofEvents_append_singleton, grows, Set.mem_union, Set.mem_ofPred_eq, ih]
      simp only [List.mem_append, List.mem_singleton, or_and_right, exists_or, exists_eq_left]
      exact or_comm

theorem mem_logs_iff (pair : String × String) :
    pair ∈ (ofEvents events).logs ↔ ∃ event ∈ events, event.uploadedLogRef = some pair :=
  mem_ofEvents_iff events Evidence.logs (fun event pair => event.uploadedLogRef = some pair) rfl
    (fun _ _ => rfl) pair

theorem mem_attachments_iff (pair : String × String) : pair ∈ (ofEvents events).attachments ↔
    ∃ event ∈ events, event.uploadedAttachmentRef = some pair :=
  mem_ofEvents_iff events Evidence.attachments
    (fun event pair => event.uploadedAttachmentRef = some pair) rfl (fun _ _ => rfl) pair

theorem mem_diffs_iff (pair : String × String) :
    pair ∈ (ofEvents events).diffs ↔ ∃ event ∈ events, event.capturedDiffRef = some pair :=
  mem_ofEvents_iff events Evidence.diffs (fun event pair => event.capturedDiffRef = some pair) rfl
    (fun _ _ => rfl) pair

theorem mem_artifacts_iff (artifactId : String) : artifactId ∈ (ofEvents events).artifacts ↔
    ∃ event ∈ events, event.createdArtifact = some artifactId :=
  mem_ofEvents_iff events Evidence.artifacts
    (fun event artifactId => event.createdArtifact = some artifactId) rfl (fun _ _ => rfl) artifactId

end Evidence

/-- The events file the path under the artifact: a diff changes it, or a reference
records it after the artifact was created. -/
def FilesPath (events : List TraceEvent) (pair : String × String) : Prop :=
  ∃ before event after, events = before ++ event :: after ∧
    (pair ∈ event.capturedPaths ∨ event.recordedPath = some pair ∧
      ∃ earlier ∈ before, earlier.createdArtifact = some pair.1)

theorem filesPath_append_singleton (events : List TraceEvent) (last : TraceEvent)
    (pair : String × String) :
    FilesPath (events ++ [last]) pair ↔ FilesPath events pair ∨ pair ∈ last.capturedPaths ∨
      last.recordedPath = some pair ∧ ∃ earlier ∈ events, earlier.createdArtifact = some pair.1 := by
  constructor
  · rintro ⟨before, event, after, split, files⟩
    rcases List.eq_nil_or_concat after with rfl | ⟨rest, final, rfl⟩
    · obtain ⟨rfl, same⟩ := List.append_inj' split rfl
      cases same
      exact Or.inr files
    · rw [List.concat_eq_append, ← List.cons_append, ← List.append_assoc] at split
      obtain ⟨rfl, -⟩ := List.append_inj' split rfl
      exact Or.inl ⟨before, event, rest, rfl, files⟩
  · rintro (⟨before, event, after, rfl, files⟩ | files)
    · exact ⟨before, event, after ++ [last], by simp, files⟩
    · exact ⟨events, last, [], rfl, files⟩

theorem Evidence.mem_paths_iff (events : List TraceEvent) (pair : String × String) :
    pair ∈ (ofEvents events).paths ↔ FilesPath events pair := by
  induction events using List.reverseRecOn with
  | nil =>
      refine iff_of_false (Set.notMem_empty pair) ?_
      rintro ⟨before, event, after, split, -⟩
      simp at split
  | append_singleton before event ih =>
      rw [ofEvents_append_singleton, filesPath_append_singleton, ← ih, ← mem_artifacts_iff]
      simp only [step, Set.mem_union, Set.mem_ofPred_eq]
      tauto

/-! ## The evidence of an index -/

/-- The links of a map as pairs. -/
def pointed {V : Type} (idsOf : V → KeySet String) (map : Map String V) : Set (String × String) :=
  {pair | Points idsOf map pair.1 pair.2}

/-- The evidence that the sessions and the artifacts of an index name. -/
def evidenceIn (sessions : Map String IndexedSession) (artifacts : Map String IndexedArtifact) :
    Evidence where
  logs := pointed IndexedSession.logRefIds sessions
  attachments := pointed IndexedArtifact.attachmentIds artifacts
  diffs := pointed IndexedArtifact.diffIds artifacts
  paths := pointed IndexedArtifact.filePaths artifacts
  artifacts := {artifactId | artifactId ∈ artifacts}

namespace TraceIndex

def evidence (index : TraceIndex) : Evidence := evidenceIn index.sessions index.artifacts

/-! ### Edits that name nothing more -/

theorem pointed_upsert_keep {V : Type} {idsOf : V → KeySet String} {map : Map String V}
    {key : String} {fresh : V} {edit : V → V} (blank : idsOf fresh = ∅)
    (keeps : ∀ value, idsOf (edit value) = idsOf value) :
    pointed idsOf (upsert map key fresh edit) = pointed idsOf map := by
  ext pair
  exact points_upsert_keep (by simp [blank]) keeps pair.1 pair.2

theorem pointed_modify_keep {V : Type} {idsOf : V → KeySet String} {map : Map String V}
    {key : String} {edit : V → V} (keeps : ∀ value, idsOf (edit value) = idsOf value) :
    pointed idsOf (map.modify key edit) = pointed idsOf map := by
  ext pair
  exact points_modify_keep keeps pair.1 pair.2

theorem pointed_upsert_add {V : Type} {idsOf : V → KeySet String} {map : Map String V}
    {key added : String} {fresh : V} {edit : V → V} (blank : idsOf fresh = ∅)
    (adds : ∀ value, idsOf (edit value) = (idsOf value).insert added) :
    pointed idsOf (upsert map key fresh edit) = insert (key, added) (pointed idsOf map) := by
  ext pair
  have points : Points idsOf (upsert map key fresh edit) pair.1 pair.2 ↔
      key = pair.1 ∧ added = pair.2 ∨ Points idsOf map pair.1 pair.2 :=
    points_upsert_add (by simp [blank]) (by simp [adds]) pair.1 pair.2
  simp only [pointed, Set.mem_ofPred_eq, points, Set.mem_insert_iff, Prod.ext_iff, eq_comm]

theorem pointed_upsert_addAll {V : Type} {idsOf : V → KeySet String} {map : Map String V}
    {key : String} {added : List String} {fresh : V} {edit : V → V} (blank : idsOf fresh = ∅)
    (adds : ∀ value target, target ∈ idsOf (edit value) ↔ target ∈ added ∨ target ∈ idsOf value) :
    pointed idsOf (upsert map key fresh edit) =
      {pair | pair ∈ added.map fun target => (key, target)} ∪ pointed idsOf map := by
  ext pair
  have points : Points idsOf (upsert map key fresh edit) pair.1 pair.2 ↔
      key = pair.1 ∧ pair.2 ∈ added ∨ Points idsOf map pair.1 pair.2 :=
    points_upsert_addAll (by simp [blank]) adds pair.1 pair.2
  simp only [pointed, Set.mem_ofPred_eq, points, Set.mem_union, List.mem_map]
  refine or_congr_left ⟨?_, ?_⟩
  · rintro ⟨rfl, member⟩
    exact ⟨pair.2, member, rfl⟩
  · rintro ⟨target, member, rfl⟩
    exact ⟨rfl, member⟩

theorem pointed_modify_add {V : Type} {idsOf : V → KeySet String} {map : Map String V}
    {key added : String} {edit : V → V}
    (adds : ∀ value, idsOf (edit value) = (idsOf value).insert added) :
    pointed idsOf (map.modify key edit) =
      {pair | (key, added) = pair ∧ key ∈ map} ∪ pointed idsOf map := by
  ext pair
  have points : Points idsOf (map.modify key edit) pair.1 pair.2 ↔
      (key = pair.1 ∧ key ∈ map) ∧ added = pair.2 ∨ Points idsOf map pair.1 pair.2 :=
    points_modify_add (by simp [adds]) pair.1 pair.2
  simp only [pointed, Set.mem_ofPred_eq, points, Set.mem_union, Prod.ext_iff]
  tauto

section Edits
variable {sessions : Map String IndexedSession} {artifacts : Map String IndexedArtifact}
  {key : String}

theorem evidenceIn_upsertSessions {fresh : IndexedSession} {edit : IndexedSession → IndexedSession}
    (blank : fresh.logRefIds = ∅) (keeps : ∀ session, (edit session).logRefIds = session.logRefIds) :
    evidenceIn (upsert sessions key fresh edit) artifacts = evidenceIn sessions artifacts := by
  unfold evidenceIn
  rw [pointed_upsert_keep blank keeps]

theorem evidenceIn_modifySessions {edit : IndexedSession → IndexedSession}
    (keeps : ∀ session, (edit session).logRefIds = session.logRefIds) :
    evidenceIn (sessions.modify key edit) artifacts = evidenceIn sessions artifacts := by
  unfold evidenceIn
  rw [pointed_modify_keep keeps]

theorem artifacts_upsert {fresh : IndexedArtifact} {edit : IndexedArtifact → IndexedArtifact} :
    ({artifactId | artifactId ∈ upsert artifacts key fresh edit} : Set String) =
      insert key {artifactId | artifactId ∈ artifacts} := by
  ext artifactId
  rw [Set.mem_ofPred_eq, mem_upsert, Set.mem_insert_iff, Set.mem_ofPred_eq, eq_comm]

theorem evidenceIn_upsertArtifacts {fresh : IndexedArtifact}
    {edit : IndexedArtifact → IndexedArtifact}
    (blank : fresh.attachmentIds = ∅ ∧ fresh.diffIds = ∅ ∧ fresh.filePaths = ∅)
    (keeps : ∀ artifact, (edit artifact).attachmentIds = artifact.attachmentIds ∧
      (edit artifact).diffIds = artifact.diffIds ∧ (edit artifact).filePaths = artifact.filePaths) :
    evidenceIn sessions (upsert artifacts key fresh edit) =
      (evidenceIn sessions artifacts).create key := by
  unfold evidenceIn Evidence.create
  rw [pointed_upsert_keep blank.1 fun artifact => (keeps artifact).1,
    pointed_upsert_keep blank.2.1 fun artifact => (keeps artifact).2.1,
    pointed_upsert_keep blank.2.2 fun artifact => (keeps artifact).2.2, artifacts_upsert]

theorem evidenceIn_modifyArtifacts {edit : IndexedArtifact → IndexedArtifact}
    (keeps : ∀ artifact, (edit artifact).attachmentIds = artifact.attachmentIds ∧
      (edit artifact).diffIds = artifact.diffIds ∧ (edit artifact).filePaths = artifact.filePaths) :
    evidenceIn sessions (artifacts.modify key edit) = evidenceIn sessions artifacts := by
  unfold evidenceIn
  rw [pointed_modify_keep fun artifact => (keeps artifact).1,
    pointed_modify_keep fun artifact => (keeps artifact).2.1,
    pointed_modify_keep fun artifact => (keeps artifact).2.2]
  simp only [Std.ExtTreeMap.mem_modify]

theorem evidenceIn_uploadLog {fresh : IndexedSession} {edit : IndexedSession → IndexedSession}
    {logRefId : String} (blank : fresh.logRefIds = ∅)
    (adds : ∀ session, (edit session).logRefIds = session.logRefIds.insert logRefId) :
    evidenceIn (upsert sessions key fresh edit) artifacts =
      { evidenceIn sessions artifacts with
        logs := insert (key, logRefId) (evidenceIn sessions artifacts).logs } := by
  unfold evidenceIn
  rw [pointed_upsert_add blank adds]

theorem evidenceIn_uploadAttachment {fresh : IndexedArtifact}
    {edit : IndexedArtifact → IndexedArtifact} {attachmentId : String}
    (blank : fresh.attachmentIds = ∅ ∧ fresh.diffIds = ∅ ∧ fresh.filePaths = ∅)
    (adds : ∀ artifact, (edit artifact).attachmentIds = artifact.attachmentIds.insert attachmentId ∧
      (edit artifact).diffIds = artifact.diffIds ∧ (edit artifact).filePaths = artifact.filePaths) :
    evidenceIn sessions (upsert artifacts key fresh edit) =
      { evidenceIn sessions artifacts with
        attachments := insert (key, attachmentId)
          (evidenceIn sessions artifacts).attachments }.create key := by
  unfold evidenceIn Evidence.create
  rw [pointed_upsert_add blank.1 fun artifact => (adds artifact).1,
    pointed_upsert_keep blank.2.1 fun artifact => (adds artifact).2.1,
    pointed_upsert_keep blank.2.2 fun artifact => (adds artifact).2.2, artifacts_upsert]

theorem evidenceIn_captureDiff {fresh : IndexedArtifact}
    {edit : IndexedArtifact → IndexedArtifact} {diffId : String} {paths : List String}
    (blank : fresh.attachmentIds = ∅ ∧ fresh.diffIds = ∅ ∧ fresh.filePaths = ∅)
    (adds : ∀ artifact, (edit artifact).attachmentIds = artifact.attachmentIds ∧
      (edit artifact).diffIds = artifact.diffIds.insert diffId ∧
      ∀ path, path ∈ (edit artifact).filePaths ↔ path ∈ paths ∨ path ∈ artifact.filePaths) :
    evidenceIn sessions (upsert artifacts key fresh edit) =
      { evidenceIn sessions artifacts with
        diffs := insert (key, diffId) (evidenceIn sessions artifacts).diffs
        paths := {pair | pair ∈ paths.map fun path => (key, path)} ∪
          (evidenceIn sessions artifacts).paths }.create key := by
  unfold evidenceIn Evidence.create
  rw [pointed_upsert_keep blank.1 fun artifact => (adds artifact).1,
    pointed_upsert_add blank.2.1 fun artifact => (adds artifact).2.1,
    pointed_upsert_addAll blank.2.2 fun artifact => (adds artifact).2.2, artifacts_upsert]

theorem evidenceIn_recordPath {edit : IndexedArtifact → IndexedArtifact} {path : String}
    (adds : ∀ artifact, (edit artifact).attachmentIds = artifact.attachmentIds ∧
      (edit artifact).diffIds = artifact.diffIds ∧
      (edit artifact).filePaths = artifact.filePaths.insert path) :
    evidenceIn sessions (artifacts.modify key edit) =
      { evidenceIn sessions artifacts with
        paths := {pair | (key, path) = pair ∧ key ∈ artifacts} ∪
          (evidenceIn sessions artifacts).paths } := by
  unfold evidenceIn
  rw [pointed_modify_keep fun artifact => (adds artifact).1,
    pointed_modify_keep fun artifact => (adds artifact).2.1,
    pointed_modify_add fun artifact => (adds artifact).2.2]
  simp only [Std.ExtTreeMap.mem_modify]

end Edits

/-! ### Edges of the graph -/

section Edges
variable (index : TraceIndex) (event : TraceEvent)

theorem evidence_linkSessionToMission (sessionId : SessionId) (missionId : MissionId) :
    (index.linkSessionToMission sessionId missionId event).evidence = index.evidence :=
  evidenceIn_upsertSessions rfl fun _ => rfl

theorem evidence_linkArtifactToMission (artifactId : ArtifactId) (missionId : MissionId) :
    (index.linkArtifactToMission artifactId missionId event).evidence =
      index.evidence.create artifactId.text :=
  evidenceIn_upsertArtifacts ⟨rfl, rfl, rfl⟩ fun _ => ⟨rfl, rfl, rfl⟩

theorem evidence_linkArtifactToSession (artifactId : ArtifactId) (sessionId : SessionId) :
    (index.linkArtifactToSession artifactId sessionId event).evidence =
      index.evidence.create artifactId.text := by
  refine (evidenceIn_upsertArtifacts ?_ ?_).trans
    (congrArg (Evidence.create · artifactId.text) (evidenceIn_upsertSessions ?_ ?_))
  · exact ⟨rfl, rfl, rfl⟩
  · exact fun _ => ⟨rfl, rfl, rfl⟩
  · rfl
  · exact fun _ => rfl

section Present
variable {index} {artifactId : ArtifactId} {evidence : Evidence} (held : index.evidence = evidence)
  (present : artifactId.text ∈ evidence.artifacts)
include held present

theorem evidence_linkMissionIfNamed :
    (index.linkMissionIfNamed artifactId event).evidence = evidence := by
  subst held
  unfold linkMissionIfNamed
  cases event.missionId with
  | none => rfl
  | some missionId =>
      exact (evidence_linkArtifactToMission index event artifactId missionId).trans
        (Evidence.create_of_mem present)

theorem evidence_linkSessionIfNamed :
    (index.linkSessionIfNamed artifactId event).evidence = evidence := by
  subst held
  unfold linkSessionIfNamed
  cases event.sessionId with
  | none => rfl
  | some sessionId =>
      exact (evidence_linkArtifactToSession index event artifactId sessionId).trans
        (Evidence.create_of_mem present)

end Present

end Edges

/-! ### Events that record no evidence -/

section Silent
variable {index next : TraceIndex} {event : TraceEvent}

theorem applyOrgCreated_evidence (applied : index.applyOrgCreated event = .ok next) :
    next.evidence = index.evidence := by
  unfold applyOrgCreated at applied
  cases named : event.orgId with
  | none =>
      simp only [named] at applied
      cases applied
      rfl
  | some orgId =>
      simp only [named] at applied
      obtain ⟨payload, -, applied⟩ := Fallible.bind_eq_ok_iff.mp applied
      cases applied
      rfl

theorem applyOrgUpdated_evidence (applied : index.applyOrgUpdated event = .ok next) :
    next.evidence = index.evidence := by
  unfold applyOrgUpdated at applied
  cases named : event.orgId with
  | none =>
      simp only [named] at applied
      cases applied
      rfl
  | some orgId =>
      simp only [named] at applied
      obtain ⟨payload, -, applied⟩ := Fallible.bind_eq_ok_iff.mp applied
      cases applied
      rfl

theorem applyProjectCreated_evidence (applied : index.applyProjectCreated event = .ok next) :
    next.evidence = index.evidence := by
  unfold applyProjectCreated at applied
  cases named : event.projectId with
  | none =>
      simp only [named] at applied
      cases applied
      rfl
  | some projectId =>
      simp only [named] at applied
      obtain ⟨payload, -, applied⟩ := Fallible.bind_eq_ok_iff.mp applied
      cases applied
      rfl

theorem applyProjectUpdated_evidence (applied : index.applyProjectUpdated event = .ok next) :
    next.evidence = index.evidence := by
  unfold applyProjectUpdated at applied
  cases named : event.projectId with
  | none =>
      simp only [named] at applied
      cases applied
      rfl
  | some projectId =>
      simp only [named] at applied
      obtain ⟨payload, -, applied⟩ := Fallible.bind_eq_ok_iff.mp applied
      cases applied
      cases payload.orgId with
      | none => rfl
      | some _ => rfl

theorem applyMissionCreated_evidence (applied : index.applyMissionCreated event = .ok next) :
    next.evidence = index.evidence := by
  unfold applyMissionCreated at applied
  cases named : event.missionId with
  | none =>
      simp only [named] at applied
      cases applied
      rfl
  | some missionId =>
      simp only [named] at applied
      obtain ⟨payload, -, applied⟩ := Fallible.bind_eq_ok_iff.mp applied
      cases applied
      rfl

theorem applyMissionUpdated_evidence (applied : index.applyMissionUpdated event = .ok next) :
    next.evidence = index.evidence := by
  unfold applyMissionUpdated at applied
  cases named : event.missionId with
  | none =>
      simp only [named] at applied
      cases applied
      rfl
  | some missionId =>
      simp only [named] at applied
      obtain ⟨payload, -, applied⟩ := Fallible.bind_eq_ok_iff.mp applied
      cases applied
      cases payload.projectId with
      | none => rfl
      | some _ => rfl

theorem applyRepoContextCaptured_evidence (applied : index.applyRepoContextCaptured event = .ok next) :
    next.evidence = index.evidence := by
  unfold applyRepoContextCaptured at applied
  cases named : event.repoContextId with
  | none =>
      simp only [named] at applied
      cases applied
      rfl
  | some repoContextId =>
      simp only [named] at applied
      obtain ⟨payload, -, applied⟩ := Fallible.bind_eq_ok_iff.mp applied
      cases applied
      rfl

theorem applySessionStarted_evidence (applied : index.applySessionStarted event = .ok next) :
    next.evidence = index.evidence := by
  unfold applySessionStarted at applied
  cases named : event.sessionId with
  | none =>
      simp only [named] at applied
      cases applied
      rfl
  | some sessionId =>
      simp only [named] at applied
      obtain ⟨payload, -, applied⟩ := Fallible.bind_eq_ok_iff.mp applied
      cases applied
      cases event.missionId with
      | none => exact evidenceIn_upsertSessions (by rfl) fun _ => by rfl
      | some missionId =>
          refine (evidence_linkSessionToMission _ event sessionId missionId).trans ?_
          exact evidenceIn_upsertSessions (by rfl) fun _ => by rfl

theorem applySessionLinked_evidence (applied : index.applySessionLinked event = .ok next) :
    next.evidence = index.evidence := by
  unfold applySessionLinked at applied
  cases session : event.sessionId with
  | none =>
      simp only [session] at applied
      cases applied
      rfl
  | some sessionId =>
      cases mission : event.missionId with
      | none =>
          simp only [session, mission] at applied
          cases applied
          rfl
      | some missionId =>
          simp only [session, mission] at applied
          obtain ⟨payload, -, applied⟩ := Fallible.bind_eq_ok_iff.mp applied
          cases applied
          refine (evidenceIn_modifySessions fun _ => by rfl).trans ?_
          exact evidence_linkSessionToMission index event sessionId missionId

end Silent

/-! ### Events that create an artifact, and those that record evidence -/

section Recording
variable {index next : TraceIndex} {event : TraceEvent}

theorem applyArtifactCreated_evidence (type : event.eventType = .artifactCreated)
    (applied : index.applyArtifactCreated event = .ok next) :
    next.evidence = index.evidence.step event := by
  have nothing : event.RecordsNothing := TraceEvent.recordsNothing_of_type (by simp [type])
    (by simp [type]) (by simp [type]) (by simp [type])
  unfold applyArtifactCreated at applied
  cases named : event.artifactId with
  | none =>
      simp only [named] at applied
      cases applied
      exact (Evidence.step_of_none _ nothing (by simp [TraceEvent.createdArtifact, type, named])).symm
  | some artifactId =>
      simp only [named] at applied
      obtain ⟨payload, -, applied⟩ := Fallible.bind_eq_ok_iff.mp applied
      cases applied
      have created : event.createdArtifact = some artifactId.text := by
        simp [TraceEvent.createdArtifact, type, named]
      rw [Evidence.step_of_created _ nothing created]
      have present := index.evidence.mem_create artifactId.text
      refine evidence_linkSessionIfNamed event (evidence_linkMissionIfNamed event ?_ present) present
      exact evidenceIn_upsertArtifacts ⟨by rfl, by rfl, by rfl⟩ fun _ => ⟨by rfl, by rfl, by rfl⟩

theorem applyArtifactUpdated_evidence (type : event.eventType = .artifactUpdated)
    (applied : index.applyArtifactUpdated event = .ok next) :
    next.evidence = index.evidence.step event := by
  have nothing : event.RecordsNothing := TraceEvent.recordsNothing_of_type (by simp [type])
    (by simp [type]) (by simp [type]) (by simp [type])
  unfold applyArtifactUpdated at applied
  cases named : event.artifactId with
  | none =>
      simp only [named] at applied
      cases applied
      exact (Evidence.step_of_none _ nothing (by simp [TraceEvent.createdArtifact, type, named])).symm
  | some artifactId =>
      simp only [named] at applied
      obtain ⟨payload, -, applied⟩ := Fallible.bind_eq_ok_iff.mp applied
      cases applied
      have created : event.createdArtifact = some artifactId.text := by
        simp [TraceEvent.createdArtifact, type, named]
      rw [Evidence.step_of_created _ nothing created]
      refine evidence_linkSessionIfNamed event ?_ (index.evidence.mem_create artifactId.text)
      exact evidenceIn_upsertArtifacts ⟨by rfl, by rfl, by rfl⟩ fun _ => ⟨by rfl, by rfl, by rfl⟩

theorem applyArtifactLinked_evidence (type : event.eventType = .artifactLinkedToMission)
    (applied : index.applyArtifactLinked event = .ok next) :
    next.evidence = index.evidence.step event := by
  have nothing : event.RecordsNothing := TraceEvent.recordsNothing_of_type (by simp [type])
    (by simp [type]) (by simp [type]) (by simp [type])
  unfold applyArtifactLinked at applied
  cases artifact : event.artifactId with
  | none =>
      simp only [artifact] at applied
      cases applied
      exact (Evidence.step_of_none _ nothing
        (by simp [TraceEvent.createdArtifact, type, artifact])).symm
  | some artifactId =>
      cases mission : event.missionId with
      | none =>
          simp only [artifact, mission] at applied
          cases applied
          exact (Evidence.step_of_none _ nothing
            (by simp [TraceEvent.createdArtifact, type, mission])).symm
      | some missionId =>
          simp only [artifact, mission] at applied
          obtain ⟨payload, -, applied⟩ := Fallible.bind_eq_ok_iff.mp applied
          cases applied
          have created : event.createdArtifact = some artifactId.text := by
            simp [TraceEvent.createdArtifact, type, artifact, mission]
          rw [Evidence.step_of_created _ nothing created]
          refine (evidenceIn_modifyArtifacts fun _ => ⟨by rfl, by rfl, by rfl⟩).trans ?_
          exact evidence_linkArtifactToMission index event artifactId missionId

theorem applySessionLogUploaded_evidence (type : event.eventType = .sessionLogUploaded)
    (applied : index.applySessionLogUploaded event = .ok next) :
    next.evidence = index.evidence.step event := by
  have noAttachment := uploadedAttachment_of_ne event (by simp [type])
  have noDiff := capturedDiff_of_ne event (by simp [type])
  have noFileRef := recordedFileRef_of_ne event (by simp [type])
  have created : event.createdArtifact = none := by simp [TraceEvent.createdArtifact, type]
  unfold applySessionLogUploaded at applied
  cases named : event.sessionId with
  | none =>
      simp only [named] at applied
      cases applied
      have noLog : event.uploadedSessionLog = none := by simp [TraceEvent.uploadedSessionLog, named]
      exact (Evidence.step_of_none _ ⟨noLog, noAttachment, noDiff, noFileRef⟩ created).symm
  | some sessionId =>
      simp only [named] at applied
      obtain ⟨payload, read, applied⟩ := Fallible.bind_eq_ok_iff.mp applied
      cases applied
      have uploaded : event.uploadedLogRef = some (sessionId.text, payload.logRefId.text) := by
        simp [TraceEvent.uploadedLogRef, TraceEvent.uploadedSessionLog, type, named,
          readPayload_eq_ok_iff.mp read, indexedSessionLog]
      rw [Evidence.step_of_log _ uploaded noAttachment noDiff noFileRef created]
      exact evidenceIn_uploadLog (by rfl) fun _ => by rfl

theorem applyArtifactAttachmentUploaded_evidence
    (type : event.eventType = .artifactAttachmentUploaded)
    (applied : index.applyArtifactAttachmentUploaded event = .ok next) :
    next.evidence = index.evidence.step event := by
  have noLog := uploadedSessionLog_of_ne event (by simp [type])
  have noDiff := capturedDiff_of_ne event (by simp [type])
  have noFileRef := recordedFileRef_of_ne event (by simp [type])
  unfold applyArtifactAttachmentUploaded at applied
  cases named : event.artifactId with
  | none =>
      simp only [named] at applied
      cases applied
      have noAttachment : event.uploadedAttachment = none := by
        simp [TraceEvent.uploadedAttachment, named]
      exact (Evidence.step_of_none _ ⟨noLog, noAttachment, noDiff, noFileRef⟩
        (by simp [TraceEvent.createdArtifact, type, named])).symm
  | some artifactId =>
      simp only [named] at applied
      obtain ⟨payload, read, applied⟩ := Fallible.bind_eq_ok_iff.mp applied
      cases applied
      have uploaded : event.uploadedAttachmentRef =
          some (artifactId.text, payload.attachmentId.text) := by
        simp [TraceEvent.uploadedAttachmentRef, TraceEvent.uploadedAttachment, type, named,
          readPayload_eq_ok_iff.mp read, indexedAttachment]
      have created : event.createdArtifact = some artifactId.text := by
        simp [TraceEvent.createdArtifact, type, named]
      rw [Evidence.step_of_attachment _ uploaded noLog noDiff noFileRef created]
      refine evidence_linkSessionIfNamed event ?_ (Evidence.mem_create _ _)
      exact evidenceIn_uploadAttachment ⟨by rfl, by rfl, by rfl⟩ fun _ => ⟨by rfl, by rfl, by rfl⟩

theorem mem_foldl_insert_path (changes : List DiffFileChange) (paths : KeySet String)
    (path : String) :
    path ∈ changes.foldl (fun paths (change : DiffFileChange) => paths.insert change.path) paths ↔
      path ∈ changes.map DiffFileChange.path ∨ path ∈ paths := by
  induction changes generalizing paths with
  | nil => simp
  | cons change rest ih =>
      rw [List.foldl_cons, ih, Std.ExtTreeSet.mem_insert, Std.compare_eq_iff_eq, List.map_cons,
        List.mem_cons]
      tauto

theorem applyDiffCaptured_evidence {mode : OverflowMode} (type : event.eventType = .diffCaptured)
    (applied : index.applyDiffCaptured mode event = .ok next) :
    next.evidence = index.evidence.step event := by
  have noLog := uploadedSessionLog_of_ne event (by simp [type])
  have noAttachment := uploadedAttachment_of_ne event (by simp [type])
  have noFileRef := recordedFileRef_of_ne event (by simp [type])
  unfold applyDiffCaptured at applied
  cases named : event.artifactId with
  | none =>
      simp only [named] at applied
      cases applied
      have noDiff : event.capturedDiff = none := by simp [TraceEvent.capturedDiff, named]
      exact (Evidence.step_of_none _ ⟨noLog, noAttachment, noDiff, noFileRef⟩
        (by simp [TraceEvent.createdArtifact, type, named])).symm
  | some artifactId =>
      simp only [named] at applied
      obtain ⟨payload, read, applied⟩ := Fallible.bind_eq_ok_iff.mp applied
      obtain ⟨additions, -, applied⟩ := Fallible.bind_eq_ok_iff.mp applied
      obtain ⟨deletions, -, applied⟩ := Fallible.bind_eq_ok_iff.mp applied
      cases applied
      have captured : event.capturedDiff = some (artifactId, payload) := by
        simp [TraceEvent.capturedDiff, type, named, readPayload_eq_ok_iff.mp read]
      have diff : event.capturedDiffRef = some (artifactId.text, event.eventId.text) := by
        simp [TraceEvent.capturedDiffRef, captured]
      have paths : event.capturedPaths =
          (payload.fileChanges.map DiffFileChange.path).map fun path => (artifactId.text, path) := by
        simp [TraceEvent.capturedPaths, captured]
      have created : event.createdArtifact = some artifactId.text := by
        simp [TraceEvent.createdArtifact, type, named]
      rw [Evidence.step_of_diff _ diff noLog noAttachment noFileRef created, paths]
      refine evidence_linkMissionIfNamed event (evidence_linkSessionIfNamed event ?_
        (Evidence.mem_create _ _)) (Evidence.mem_create _ _)
      exact evidenceIn_captureDiff ⟨by rfl, by rfl, by rfl⟩ fun artifact =>
        ⟨by rfl, by rfl, mem_foldl_insert_path payload.fileChanges artifact.filePaths⟩

theorem applyArtifactFileRef_evidence (type : event.eventType = .artifactFileRefRecorded)
    (applied : index.applyArtifactFileRef event = .ok next) :
    next.evidence = index.evidence.step event := by
  have noLog := uploadedSessionLog_of_ne event (by simp [type])
  have noAttachment := uploadedAttachment_of_ne event (by simp [type])
  have noDiff := capturedDiff_of_ne event (by simp [type])
  unfold applyArtifactFileRef at applied
  cases named : event.artifactId with
  | none =>
      simp only [named] at applied
      cases applied
      have noFileRef : event.recordedFileRef = none := by simp [TraceEvent.recordedFileRef, named]
      exact (Evidence.step_of_none _ ⟨noLog, noAttachment, noDiff, noFileRef⟩
        (by simp [TraceEvent.createdArtifact, type, named])).symm
  | some artifactId =>
      simp only [named] at applied
      obtain ⟨payload, read, applied⟩ := Fallible.bind_eq_ok_iff.mp applied
      cases applied
      have recorded : event.recordedPath = some (artifactId.text, payload.path) := by
        simp [TraceEvent.recordedPath, TraceEvent.recordedFileRef, type, named,
          readPayload_eq_ok_iff.mp read]
      rw [Evidence.step_of_fileRef _ recorded noLog noAttachment noDiff]
      unfold linkSessionIfNamed
      cases session : event.sessionId with
      | none =>
          have created : event.createdArtifact = none := by
            simp [TraceEvent.createdArtifact, type, session]
          refine (evidenceIn_recordPath fun _ => ⟨by rfl, by rfl, by rfl⟩).trans ?_
          simp only [created, reduceCtorEq, Set.ofPred_false, Set.empty_union]
          rfl
      | some sessionId =>
          have created : event.createdArtifact = some artifactId.text := by
            simp [TraceEvent.createdArtifact, type, named, session]
          refine (evidence_linkArtifactToSession _ event artifactId sessionId).trans ?_
          refine (congrArg (Evidence.create · artifactId.text)
            (evidenceIn_recordPath fun _ => ⟨by rfl, by rfl, by rfl⟩)).trans ?_
          simp only [created, Option.some.injEq, Set.ofPred_eq_eq_singleton', Set.singleton_union]
          rfl

/-- The projection of one event adds to the evidence what the abstract model adds. -/
theorem evidence_applyEvent {mode : OverflowMode}
    (applied : index.applyEvent mode event = .ok next) :
    next.evidence = index.evidence.step event := by
  cases type : event.eventType with
  | sessionLogUploaded =>
      exact applySessionLogUploaded_evidence type (by simpa only [applyEvent, type] using applied)
  | artifactCreated =>
      exact applyArtifactCreated_evidence type (by simpa only [applyEvent, type] using applied)
  | artifactUpdated =>
      exact applyArtifactUpdated_evidence type (by simpa only [applyEvent, type] using applied)
  | artifactLinkedToMission =>
      exact applyArtifactLinked_evidence type (by simpa only [applyEvent, type] using applied)
  | artifactFileRefRecorded =>
      exact applyArtifactFileRef_evidence type (by simpa only [applyEvent, type] using applied)
  | artifactAttachmentUploaded =>
      exact applyArtifactAttachmentUploaded_evidence type
        (by simpa only [applyEvent, type] using applied)
  | diffCaptured =>
      exact applyDiffCaptured_evidence type (by simpa only [applyEvent, type] using applied)
  | _ =>
      have nothing : event.RecordsNothing := TraceEvent.recordsNothing_of_type (by simp [type])
        (by simp [type]) (by simp [type]) (by simp [type])
      rw [Evidence.step_of_none _ nothing (by simp [TraceEvent.createdArtifact, type])]
      simp only [applyEvent, type] at applied
      first
        | exact applyOrgCreated_evidence applied
        | exact applyOrgUpdated_evidence applied
        | exact applyProjectCreated_evidence applied
        | exact applyProjectUpdated_evidence applied
        | exact applyMissionCreated_evidence applied
        | exact applyMissionUpdated_evidence applied
        | exact applySessionStarted_evidence applied
        | exact applySessionLinked_evidence applied
        | exact applyRepoContextCaptured_evidence applied
        | (cases applied; rfl)

end Recording

end TraceIndex

theorem evidence_empty (now : DateTime) (eventCount : Nat) :
    (TraceIndex.empty now eventCount).evidence = Evidence.empty := by
  have blank : ∀ {V : Type} (idsOf : V → KeySet String),
      pointed idsOf (∅ : Map String V) = ∅ := by
    intro V idsOf
    ext pair
    exact iff_of_false (not_points_empty idsOf pair.1 pair.2) (Set.notMem_empty pair)
  unfold TraceIndex.evidence evidenceIn TraceIndex.empty Evidence.empty
  simp only [blank, Std.ExtTreeMap.not_mem_empty]
  rfl

/-- A built index names exactly the evidence of its events. -/
theorem build_evidence {mode : OverflowMode} {now : DateTime} {events : List TraceEvent}
    {index : TraceIndex} (built : TraceIndex.build mode now events = .ok index) :
    index.evidence = Evidence.ofEvents events := by
  have whole := Fallible.foldlM_view TraceIndex.evidence Evidence.step
    (fun _ _ _ applied => TraceIndex.evidence_applyEvent applied) built
  rw [evidence_empty] at whole
  exact whole

end BrickTrace
