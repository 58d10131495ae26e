import BrickTrace.Core.IndexTimes
import BrickTrace.Core.SourceSessionEvent
import BrickTrace.Protocol.PayloadCodecs

/-!
# Events as their constructors build them

A constructor puts the ids of the entities an event is about into the envelope, and the
typed payload into the event's JSON.  The index reads both: it accepts every list of built
events, and it comes to know exactly the entities that their envelopes name.
-/

set_option autoImplicit false

namespace BrickTrace

/-- The id and the time that a new event gets. -/
structure Stamp where
  eventId : Uuid
  now : DateTime

namespace TraceEvent

def fromPayload (stamp : Stamp) (eventType : EventType) (actor : ActorRef) (payload : Json) :
    TraceEvent where
  eventId := stamp.eventId
  eventType := eventType
  schemaVersion := eventSchemaVersion
  payloadSchemaVersion := eventSchemaVersion
  occurredAt := stamp.now
  recordedAt := stamp.now
  actor := actor
  repoId := none
  orgId := none
  projectId := none
  missionId := none
  sessionId := none
  artifactId := none
  repoContextId := none
  confidence := .explicit
  payload := payload

section Constructors
variable (stamp : Stamp) (actor : ActorRef)

def orgCreated (orgId : OrgId) (payload : OrgCreatedPayload) : TraceEvent :=
  { fromPayload stamp .orgCreated actor payload.encode with
    orgId := some orgId
    repoContextId := payload.repoContextId }

def orgUpdated (orgId : OrgId) (payload : OrgUpdatedPayload) : TraceEvent :=
  { fromPayload stamp .orgUpdated actor payload.encode with
    orgId := some orgId
    repoContextId := payload.repoContextId }

def projectCreated (projectId : ProjectId) (payload : ProjectCreatedPayload) : TraceEvent :=
  { fromPayload stamp .projectCreated actor payload.encode with
    orgId := some payload.orgId
    projectId := some projectId
    repoContextId := payload.repoContextId }

def projectUpdated (projectId : ProjectId) (payload : ProjectUpdatedPayload) : TraceEvent :=
  { fromPayload stamp .projectUpdated actor payload.encode with
    orgId := payload.orgId
    projectId := some projectId
    repoContextId := payload.repoContextId }

def missionCreated (missionId : MissionId) (payload : MissionCreatedPayload) : TraceEvent :=
  { fromPayload stamp .missionCreated actor payload.encode with
    projectId := some payload.projectId
    missionId := some missionId
    repoContextId := payload.repoContextId }

def missionUpdated (missionId : MissionId) (payload : MissionUpdatedPayload) : TraceEvent :=
  { fromPayload stamp .missionUpdated actor payload.encode with
    projectId := payload.projectId
    missionId := some missionId
    repoContextId := payload.repoContextId }

def sessionStarted (sessionId : SessionId) (missionId : Option MissionId)
    (payload : SessionStartedPayload) : TraceEvent :=
  { fromPayload stamp .sessionStarted actor payload.encode with
    missionId := missionId
    sessionId := some sessionId
    repoContextId := payload.repoContextId }

def sessionLinkedToMission (sessionId : SessionId) (missionId : MissionId)
    (payload : SessionLinkedToMissionPayload) : TraceEvent :=
  { fromPayload stamp .sessionLinkedToMission actor payload.encode with
    missionId := some missionId
    sessionId := some sessionId
    repoContextId := payload.repoContextId }

def sessionLogUploaded (sessionId : SessionId) (payload : SessionLogUploadedPayload) : TraceEvent :=
  { fromPayload stamp .sessionLogUploaded actor payload.encode with
    sessionId := some sessionId
    repoContextId := payload.repoContextId }

def artifactCreated (artifactId : ArtifactId) (missionId : Option MissionId)
    (sessionId : Option SessionId) (payload : ArtifactCreatedPayload) : TraceEvent :=
  { fromPayload stamp .artifactCreated actor payload.encode with
    missionId := missionId
    sessionId := sessionId
    artifactId := some artifactId
    repoContextId := payload.repoContextId }

def artifactUpdated (artifactId : ArtifactId) (sessionId : Option SessionId)
    (payload : ArtifactUpdatedPayload) : TraceEvent :=
  { fromPayload stamp .artifactUpdated actor payload.encode with
    sessionId := sessionId
    artifactId := some artifactId
    repoContextId := payload.repoContextId }

def artifactLinkedToMission (artifactId : ArtifactId) (missionId : MissionId)
    (payload : ArtifactLinkedToMissionPayload) : TraceEvent :=
  { fromPayload stamp .artifactLinkedToMission actor payload.encode with
    missionId := some missionId
    artifactId := some artifactId
    repoContextId := payload.repoContextId }

def artifactFileRefRecorded (artifactId : ArtifactId) (sessionId : Option SessionId)
    (payload : ArtifactFileRefRecordedPayload) : TraceEvent :=
  { fromPayload stamp .artifactFileRefRecorded actor payload.encode with
    sessionId := sessionId
    artifactId := some artifactId
    repoContextId := payload.repoContextId }

def artifactAttachmentUploaded (artifactId : ArtifactId) (sessionId : Option SessionId)
    (payload : ArtifactAttachmentUploadedPayload) : TraceEvent :=
  { fromPayload stamp .artifactAttachmentUploaded actor payload.encode with
    sessionId := sessionId
    artifactId := some artifactId
    repoContextId := payload.repoContextId }

def repoContextCaptured (repoContextId : RepoContextId)
    (payload : RepoContextCapturedPayload) : TraceEvent :=
  { fromPayload stamp .repoContextCaptured actor payload.encode with
    repoContextId := some repoContextId }

def diffCaptured (artifactId : ArtifactId) (sessionId : Option SessionId)
    (missionId : Option MissionId) (payload : DiffCapturedPayload) : TraceEvent :=
  { fromPayload stamp .diffCaptured actor payload.encode with
    artifactId := some artifactId
    sessionId := sessionId
    missionId := missionId
    repoContextId := payload.repoContextId }

def externalRefLinked (missionId : Option MissionId) (sessionId : Option SessionId)
    (artifactId : Option ArtifactId) (payload : ExternalRefLinkedPayload) : TraceEvent :=
  { fromPayload stamp .externalRefLinked actor payload.encode with
    missionId := missionId
    sessionId := sessionId
    artifactId := artifactId
    repoContextId := payload.repoContextId }

def sourceSessionObserved (payload : SourceSessionObservedPayload) : TraceEvent :=
  { fromPayload stamp .sourceSessionObserved actor payload.encode with
    confidence := .observed }

end Constructors

end TraceEvent

/-- An event that a constructor built, however its id, repo, times and confidence were set
afterwards. -/
inductive Built : TraceEvent → Prop where
  | orgCreated (stamp : Stamp) (actor : ActorRef) (orgId : OrgId) (payload : OrgCreatedPayload) :
      Built (TraceEvent.orgCreated stamp actor orgId payload)
  | orgUpdated (stamp : Stamp) (actor : ActorRef) (orgId : OrgId) (payload : OrgUpdatedPayload) :
      Built (TraceEvent.orgUpdated stamp actor orgId payload)
  | projectCreated (stamp : Stamp) (actor : ActorRef) (projectId : ProjectId)
      (payload : ProjectCreatedPayload) :
      Built (TraceEvent.projectCreated stamp actor projectId payload)
  | projectUpdated (stamp : Stamp) (actor : ActorRef) (projectId : ProjectId)
      (payload : ProjectUpdatedPayload) :
      Built (TraceEvent.projectUpdated stamp actor projectId payload)
  | missionCreated (stamp : Stamp) (actor : ActorRef) (missionId : MissionId)
      (payload : MissionCreatedPayload) :
      Built (TraceEvent.missionCreated stamp actor missionId payload)
  | missionUpdated (stamp : Stamp) (actor : ActorRef) (missionId : MissionId)
      (payload : MissionUpdatedPayload) :
      Built (TraceEvent.missionUpdated stamp actor missionId payload)
  | sessionStarted (stamp : Stamp) (actor : ActorRef) (sessionId : SessionId)
      (missionId : Option MissionId) (payload : SessionStartedPayload) :
      Built (TraceEvent.sessionStarted stamp actor sessionId missionId payload)
  | sessionLinkedToMission (stamp : Stamp) (actor : ActorRef) (sessionId : SessionId)
      (missionId : MissionId) (payload : SessionLinkedToMissionPayload) :
      Built (TraceEvent.sessionLinkedToMission stamp actor sessionId missionId payload)
  | sessionLogUploaded (stamp : Stamp) (actor : ActorRef) (sessionId : SessionId)
      (payload : SessionLogUploadedPayload) :
      Built (TraceEvent.sessionLogUploaded stamp actor sessionId payload)
  | artifactCreated (stamp : Stamp) (actor : ActorRef) (artifactId : ArtifactId)
      (missionId : Option MissionId) (sessionId : Option SessionId)
      (payload : ArtifactCreatedPayload) :
      Built (TraceEvent.artifactCreated stamp actor artifactId missionId sessionId payload)
  | artifactUpdated (stamp : Stamp) (actor : ActorRef) (artifactId : ArtifactId)
      (sessionId : Option SessionId) (payload : ArtifactUpdatedPayload) :
      Built (TraceEvent.artifactUpdated stamp actor artifactId sessionId payload)
  | artifactLinkedToMission (stamp : Stamp) (actor : ActorRef) (artifactId : ArtifactId)
      (missionId : MissionId) (payload : ArtifactLinkedToMissionPayload) :
      Built (TraceEvent.artifactLinkedToMission stamp actor artifactId missionId payload)
  | artifactFileRefRecorded (stamp : Stamp) (actor : ActorRef) (artifactId : ArtifactId)
      (sessionId : Option SessionId) (payload : ArtifactFileRefRecordedPayload) :
      Built (TraceEvent.artifactFileRefRecorded stamp actor artifactId sessionId payload)
  | artifactAttachmentUploaded (stamp : Stamp) (actor : ActorRef) (artifactId : ArtifactId)
      (sessionId : Option SessionId) (payload : ArtifactAttachmentUploadedPayload) :
      Built (TraceEvent.artifactAttachmentUploaded stamp actor artifactId sessionId payload)
  | repoContextCaptured (stamp : Stamp) (actor : ActorRef) (repoContextId : RepoContextId)
      (payload : RepoContextCapturedPayload) :
      Built (TraceEvent.repoContextCaptured stamp actor repoContextId payload)
  | diffCaptured (stamp : Stamp) (actor : ActorRef) (artifactId : ArtifactId)
      (sessionId : Option SessionId) (missionId : Option MissionId)
      (payload : DiffCapturedPayload) :
      Built (TraceEvent.diffCaptured stamp actor artifactId sessionId missionId payload)
  | externalRefLinked (stamp : Stamp) (actor : ActorRef) (missionId : Option MissionId)
      (sessionId : Option SessionId) (artifactId : Option ArtifactId)
      (payload : ExternalRefLinkedPayload) :
      Built (TraceEvent.externalRefLinked stamp actor missionId sessionId artifactId payload)
  | sourceSessionObserved (stamp : Stamp) (actor : ActorRef)
      (payload : SourceSessionObservedPayload) :
      Built (TraceEvent.sourceSessionObserved stamp actor payload)
  | relabelled (event : TraceEvent) (built : Built event) (eventId : Uuid)
      (repoId : Option String) (occurredAt recordedAt : DateTime) (confidence : ConfidenceLevel) :
      Built { event with eventId, repoId, occurredAt, recordedAt, confidence }

/-! ## Payloads that the index reads -/

/-- The payload is one of the event's type, where the index reads payloads of that type. -/
def TraceEvent.PayloadReads (event : TraceEvent) : Prop :=
  match event.eventType with
  | .orgCreated => (OrgCreatedPayload.decode event.payload).isSome
  | .orgUpdated => (OrgUpdatedPayload.decode event.payload).isSome
  | .projectCreated => (ProjectCreatedPayload.decode event.payload).isSome
  | .projectUpdated => (ProjectUpdatedPayload.decode event.payload).isSome
  | .missionCreated => (MissionCreatedPayload.decode event.payload).isSome
  | .missionUpdated => (MissionUpdatedPayload.decode event.payload).isSome
  | .sessionStarted => (SessionStartedPayload.decode event.payload).isSome
  | .sessionLinkedToMission => (SessionLinkedToMissionPayload.decode event.payload).isSome
  | .sessionLogUploaded => (SessionLogUploadedPayload.decode event.payload).isSome
  | .artifactCreated => (ArtifactCreatedPayload.decode event.payload).isSome
  | .artifactUpdated => (ArtifactUpdatedPayload.decode event.payload).isSome
  | .artifactLinkedToMission => (ArtifactLinkedToMissionPayload.decode event.payload).isSome
  | .artifactFileRefRecorded => (ArtifactFileRefRecordedPayload.decode event.payload).isSome
  | .artifactAttachmentUploaded =>
      (ArtifactAttachmentUploadedPayload.decode event.payload).isSome
  | .diffCaptured => (DiffCapturedPayload.decode event.payload).isSome
  | .repoContextCaptured => (RepoContextCapturedPayload.decode event.payload).isSome
  | .artifactReviewed | .artifactAccepted | .externalRefLinked | .sourceSessionObserved => True

theorem Built.payloadReads {event : TraceEvent} (built : Built event) : event.PayloadReads := by
  induction built with
  | orgCreated => exact OrgCreatedPayload.inverse.isSome _
  | orgUpdated => exact OrgUpdatedPayload.inverse.isSome _
  | projectCreated => exact ProjectCreatedPayload.inverse.isSome _
  | projectUpdated => exact ProjectUpdatedPayload.inverse.isSome _
  | missionCreated => exact MissionCreatedPayload.inverse.isSome _
  | missionUpdated => exact MissionUpdatedPayload.inverse.isSome _
  | sessionStarted => exact SessionStartedPayload.inverse.isSome _
  | sessionLinkedToMission => exact SessionLinkedToMissionPayload.inverse.isSome _
  | sessionLogUploaded => exact SessionLogUploadedPayload.inverse.isSome _
  | artifactCreated => exact ArtifactCreatedPayload.inverse.isSome _
  | artifactUpdated => exact ArtifactUpdatedPayload.inverse.isSome _
  | artifactLinkedToMission => exact ArtifactLinkedToMissionPayload.inverse.isSome _
  | artifactFileRefRecorded => exact ArtifactFileRefRecordedPayload.inverse.isSome _
  | artifactAttachmentUploaded => exact ArtifactAttachmentUploadedPayload.inverse.isSome _
  | repoContextCaptured => exact RepoContextCapturedPayload.inverse.isSome _
  | diffCaptured => exact DiffCapturedPayload.inverse.isSome _
  | externalRefLinked => trivial
  | sourceSessionObserved => trivial
  | relabelled _ _ _ _ _ _ _ reads => exact reads

/-! ## Applying them -/

/-- A step of the index that fails only by a checked sum. -/
def Sums {A : Type} (mode : OverflowMode) (result : Except BuildError A) : Prop :=
  (∃ value, result = .ok value) ∨ mode = .checked ∧ result = .error .overflow

theorem Sums.ok {A : Type} (mode : OverflowMode) (value : A) : Sums mode (.ok value) :=
  .inl ⟨value, rfl⟩

theorem Sums.bind {A B : Type} {mode : OverflowMode} {result : Except BuildError A}
    {next : A → Except BuildError B} (sums : Sums mode result)
    (then_ : ∀ value, Sums mode (next value)) : Sums mode (result >>= next) := by
  rcases sums with ⟨value, rfl⟩ | ⟨checked, rfl⟩
  · exact then_ value
  · exact .inr ⟨checked, rfl⟩

theorem sumU64_sums (mode : OverflowMode) (values : List UInt64) :
    Sums mode (sumU64 mode values) := by
  unfold sumU64
  generalize (0 : UInt64) = start
  induction values generalizing start with
  | nil => exact .ok mode start
  | cons value rest ih =>
      cases mode with
      | wrapping => exact ih (start + value)
      | checked =>
          rw [List.foldlM_cons]
          dsimp only
          split
          · exact ih (start + value)
          · exact .inr ⟨rfl, rfl⟩

section Apply
variable {index : TraceIndex} {event : TraceEvent}

theorem readPayload_of_isSome {A : Type} {decode : Json → Option A}
    (reads : (decode event.payload).isSome) :
    ∃ payload, readPayload decode event = .ok payload := by
  obtain ⟨payload, decoded⟩ := Option.isSome_iff_exists.mp reads
  exact ⟨payload, readPayload_eq_ok_iff.mpr decoded⟩

theorem applyEvent_sums (mode : OverflowMode) (reads : event.PayloadReads) :
    Sums mode (index.applyEvent mode event) := by
  cases type : event.eventType with
  | diffCaptured =>
      simp only [TraceEvent.PayloadReads, type] at reads
      obtain ⟨payload, read⟩ := readPayload_of_isSome reads
      simp only [TraceIndex.applyEvent, type, TraceIndex.applyDiffCaptured, read]
      split
      · exact (sumU64_sums mode _).bind fun _ => (sumU64_sums mode _).bind fun _ => .ok mode _
      · exact .ok mode index
  | artifactReviewed | artifactAccepted | externalRefLinked | sourceSessionObserved =>
      simp only [TraceIndex.applyEvent, type]
      exact .ok mode index
  | _ =>
      simp only [TraceEvent.PayloadReads, type] at reads
      obtain ⟨payload, read⟩ := readPayload_of_isSome reads
      simp only [TraceIndex.applyEvent, type, TraceIndex.applyOrgCreated,
        TraceIndex.applyOrgUpdated, TraceIndex.applyProjectCreated, TraceIndex.applyProjectUpdated,
        TraceIndex.applyMissionCreated, TraceIndex.applyMissionUpdated,
        TraceIndex.applySessionStarted, TraceIndex.applySessionLinked,
        TraceIndex.applySessionLogUploaded, TraceIndex.applyArtifactCreated,
        TraceIndex.applyArtifactUpdated, TraceIndex.applyArtifactLinked,
        TraceIndex.applyArtifactFileRef, TraceIndex.applyArtifactAttachmentUploaded,
        TraceIndex.applyRepoContextCaptured, read]
      repeat' split
      all_goals exact .ok mode _

end Apply

theorem applyEvent_undiffed {index : TraceIndex} {event : TraceEvent}
    (undiffed : event.eventType ≠ .diffCaptured) (mode : OverflowMode) :
    index.applyEvent mode event = index.applyEvent .wrapping event := by
  cases type : event.eventType with
  | diffCaptured => exact absurd type undiffed
  | _ => simp only [TraceIndex.applyEvent, type]

theorem build_undiffed {events : List TraceEvent}
    (undiffed : ∀ event ∈ events, event.eventType ≠ .diffCaptured) (mode : OverflowMode)
    (now : DateTime) :
    TraceIndex.build mode now events = TraceIndex.build .wrapping now events := by
  unfold TraceIndex.build
  generalize TraceIndex.empty now events.length = start
  induction events generalizing start with
  | nil => rfl
  | cons event rest ih =>
      obtain ⟨first, later⟩ := List.forall_mem_cons.mp undiffed
      rw [List.foldlM_cons, List.foldlM_cons, applyEvent_undiffed first mode]
      exact bind_congr fun next => ih later next

theorem build_sums {mode : OverflowMode} {now : DateTime} {events : List TraceEvent}
    (reads : ∀ event ∈ events, event.PayloadReads) :
    Sums mode (TraceIndex.build mode now events) := by
  unfold TraceIndex.build
  generalize TraceIndex.empty now events.length = start
  induction events generalizing start with
  | nil => exact .ok mode start
  | cons event rest ih =>
      obtain ⟨first, later⟩ := List.forall_mem_cons.mp reads
      rw [List.foldlM_cons]
      exact (applyEvent_sums mode first).bind (ih later)

/-! ## Entities that the envelopes name -/

def TraceEvent.namedEntities (event : TraceEvent) : List Entity :=
  named .org event.orgId ++ named .project event.projectId ++ named .mission event.missionId ++
    named .session event.sessionId ++ named .artifact event.artifactId

/-- The entities an event makes known to the index.  Some types are not indexed, and a
reference to a file makes its artifact known only with a session. -/
def TraceEvent.introduces (event : TraceEvent) : List Entity :=
  match event.eventType with
  | .artifactReviewed | .artifactAccepted | .externalRefLinked | .sourceSessionObserved
  | .repoContextCaptured => []
  | .artifactFileRefRecorded => if event.sessionId.isSome then event.namedEntities else []
  | _ => event.namedEntities

section Named
variable {event : TraceEvent} {id : String}

theorem named_iff {kind : TraceIdKind} {entityKind otherKind : EntityKind}
    {name : Option (TraceId kind)} :
    (⟨otherKind, id⟩ : Entity) ∈ named entityKind name ↔
      otherKind = entityKind ∧ name = some ⟨id⟩ := by
  cases name with
  | none => simp [named]
  | some name =>
      simp only [named, Option.map_some, Option.toList_some, List.mem_singleton, Entity.mk.injEq,
        Option.some.injEq]
      exact and_congr_right fun _ => ⟨fun same => by rw [same], fun same => by rw [same]⟩

@[simp] theorem org_mem_namedEntities :
    ⟨.org, id⟩ ∈ event.namedEntities ↔ event.orgId = some ⟨id⟩ := by
  simp [TraceEvent.namedEntities, named_iff]

@[simp] theorem project_mem_namedEntities :
    ⟨.project, id⟩ ∈ event.namedEntities ↔ event.projectId = some ⟨id⟩ := by
  simp [TraceEvent.namedEntities, named_iff]

@[simp] theorem mission_mem_namedEntities :
    ⟨.mission, id⟩ ∈ event.namedEntities ↔ event.missionId = some ⟨id⟩ := by
  simp [TraceEvent.namedEntities, named_iff]

@[simp] theorem session_mem_namedEntities :
    ⟨.session, id⟩ ∈ event.namedEntities ↔ event.sessionId = some ⟨id⟩ := by
  simp [TraceEvent.namedEntities, named_iff]

@[simp] theorem artifact_mem_namedEntities :
    ⟨.artifact, id⟩ ∈ event.namedEntities ↔ event.artifactId = some ⟨id⟩ := by
  simp [TraceEvent.namedEntities, named_iff]

theorem namedEntities_of_introduces {entity : Entity} (introduced : entity ∈ event.introduces) :
    entity ∈ event.namedEntities := by
  unfold TraceEvent.introduces at introduced
  split at introduced
  all_goals try exact introduced
  all_goals try exact absurd introduced List.not_mem_nil
  split at introduced
  · exact introduced
  · exact absurd introduced List.not_mem_nil

end Named

/-- What a built event touches is what its envelope names. -/
theorem Built.mem_touched_iff {event : TraceEvent} (built : Built event) (known : List Entity)
    (entity : Entity) :
    entity ∈ known ++ touched known event ↔ entity ∈ known ∨ entity ∈ event.introduces := by
  induction built with
  | relabelled _ _ _ _ _ _ _ touches => exact touches
  | artifactFileRefRecorded stamp actor artifactId sessionId payload =>
      cases sessionId with
      | none =>
          simp [touched, TraceEvent.introduces, named, TraceEvent.artifactFileRefRecorded,
            TraceEvent.fromPayload]
          rintro member rfl
          exact member
      | some sessionId =>
          simp [touched, TraceEvent.introduces, TraceEvent.namedEntities, named,
            TraceEvent.artifactFileRefRecorded, TraceEvent.fromPayload]
          grind
  | _ =>
      simp [touched, TraceEvent.introduces, TraceEvent.namedEntities, named,
        TraceEvent.fromPayload, TraceEvent.orgCreated, TraceEvent.orgUpdated,
        TraceEvent.projectCreated, TraceEvent.projectUpdated, TraceEvent.missionCreated,
        TraceEvent.missionUpdated, TraceEvent.sessionStarted, TraceEvent.sessionLinkedToMission,
        TraceEvent.sessionLogUploaded, TraceEvent.artifactCreated, TraceEvent.artifactUpdated,
        TraceEvent.artifactLinkedToMission, TraceEvent.artifactAttachmentUploaded,
        TraceEvent.repoContextCaptured, TraceEvent.diffCaptured, TraceEvent.externalRefLinked,
        TraceEvent.sourceSessionObserved, ProjectCreatedPayload.inverse.reads,
        ProjectUpdatedPayload.inverse.reads, MissionCreatedPayload.inverse.reads,
        MissionUpdatedPayload.inverse.reads] <;> grind

theorem foldlM_knows {mode : OverflowMode} {events : List TraceEvent} {start index : TraceIndex}
    {known : List Entity} (knows : start.Knows known) (built : ∀ event ∈ events, Built event)
    (folded : events.foldlM (TraceIndex.applyEvent mode) start = .ok index) (entity : Entity) :
    (index.lastEventAt entity).isSome ↔
      entity ∈ known ∨ ∃ event ∈ events, entity ∈ event.introduces := by
  induction events generalizing start known with
  | nil =>
      cases folded
      simpa using knows entity
  | cons event rest ih =>
      obtain ⟨first, later⟩ := List.forall_mem_cons.mp built
      rw [List.foldlM_cons] at folded
      obtain ⟨next, applied, folded⟩ := Fallible.bind_eq_ok_iff.mp folded
      have nextKnows := (applyEvent_stamps knows applied).knows knows
      rw [ih nextKnows later folded, first.mem_touched_iff known entity]
      simp only [List.mem_cons, exists_eq_or_imp, or_assoc]

/-- The index takes every list of built events in, but for a sum of line counts that is checked
and overflows, and it holds a time for exactly the entities that the events introduce. -/
theorem build_of_built {events : List TraceEvent} (built : ∀ event ∈ events, Built event)
    (mode : OverflowMode) (now : DateTime) :
    (mode = .checked ∧ TraceIndex.build mode now events = .error .overflow) ∨
      ∃ index, TraceIndex.build mode now events = .ok index ∧
        ∀ entity, (index.lastEventAt entity).isSome ↔
          ∃ event ∈ events, entity ∈ event.introduces := by
  have sums : Sums mode (TraceIndex.build mode now events) :=
    build_sums fun event member => (built event member).payloadReads
  rcases sums with ⟨index, accepted⟩ | overflow
  · refine .inr ⟨index, accepted, fun entity => ?_⟩
    have emptyKnows : (TraceIndex.empty now events.length).Knows [] := by
      rintro ⟨kind, id⟩
      cases kind <;> simp [TraceIndex.lastEventAt, TraceIndex.empty]
    rw [foldlM_knows emptyKnows built accepted entity]
    simp
  · exact .inl overflow

/-- A session that is started in a mission of which nothing else is recorded. -/
def sessionInMission : TraceEvent :=
  .sessionStarted ⟨⟨1⟩, ⟨0⟩⟩ ⟨.agent, "agent-1", none⟩ ⟨"session_1"⟩ (some ⟨"mission_1"⟩)
    ⟨none, SessionSource.empty, none⟩

theorem sessionInMission_known :
    (OverflowMode.wrapping = .checked ∧
        TraceIndex.build .wrapping ⟨0⟩ [sessionInMission] = .error .overflow) ∨
      ∃ index, TraceIndex.build .wrapping ⟨0⟩ [sessionInMission] = .ok index ∧
        ∀ entity, (index.lastEventAt entity).isSome ↔
          ∃ event ∈ [sessionInMission], entity ∈ event.introduces :=
  build_of_built (List.forall_mem_singleton.mpr (.sessionStarted ..)) .wrapping ⟨0⟩

end BrickTrace
