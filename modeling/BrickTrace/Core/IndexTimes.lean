import Mathlib.Tactic.Tauto
import BrickTrace.Lib.StableSort
import BrickTrace.Core.IndexHierarchy
import BrickTrace.Core.IndexRecords

/-!
# The time of the last event of an entity

Whatever creates an entity, updates it or links it sets the time of its last event to the time at
which the event was recorded.  Events are applied in the order in which they are given.
-/

set_option autoImplicit false

namespace BrickTrace

open OrderedMap

/-! ## Entities of the index -/

inductive EntityKind where
  | org
  | project
  | mission
  | session
  | artifact
deriving DecidableEq

structure Entity where
  kind : EntityKind
  id : String
deriving DecidableEq

/-- The time that the index holds for an entity. -/
def TraceIndex.lastEventAt (index : TraceIndex) (entity : Entity) : Option DateTime :=
  match entity.kind with
  | .org => index.orgs[entity.id]?.map IndexedOrg.lastEventAt
  | .project => index.projects[entity.id]?.map IndexedProject.lastEventAt
  | .mission => index.missions[entity.id]?.map IndexedMission.lastEventAt
  | .session => index.sessions[entity.id]?.map IndexedSession.lastEventAt
  | .artifact => index.artifacts[entity.id]?.map IndexedArtifact.lastEventAt

/-- The entity of an optional id. -/
def named {kind : TraceIdKind} (entityKind : EntityKind) (id : Option (TraceId kind)) :
    List Entity :=
  (id.map fun id => ⟨entityKind, id.text⟩).toList

/-- The entities that an event creates, updates or links.  A reference to a file updates an
artifact that is known, or one that it links to a session. -/
def touched (known : List Entity) (event : TraceEvent) : List Entity :=
  match event.eventType with
  | .orgCreated | .orgUpdated => named .org event.orgId
  | .projectCreated =>
      match event.projectId, ProjectCreatedPayload.decode event.payload with
      | some projectId, some payload =>
          [⟨.project, projectId.text⟩, ⟨.org, payload.orgId.text⟩]
      | _, _ => []
  | .projectUpdated =>
      match event.projectId, ProjectUpdatedPayload.decode event.payload with
      | some projectId, some payload => ⟨.project, projectId.text⟩ :: named .org payload.orgId
      | _, _ => []
  | .missionCreated =>
      match event.missionId, MissionCreatedPayload.decode event.payload with
      | some missionId, some payload =>
          [⟨.mission, missionId.text⟩, ⟨.project, payload.projectId.text⟩]
      | _, _ => []
  | .missionUpdated =>
      match event.missionId, MissionUpdatedPayload.decode event.payload with
      | some missionId, some payload =>
          ⟨.mission, missionId.text⟩ :: named .project payload.projectId
      | _, _ => []
  | .sessionStarted =>
      match event.sessionId with
      | some sessionId => ⟨.session, sessionId.text⟩ :: named .mission event.missionId
      | none => []
  | .sessionLinkedToMission =>
      match event.sessionId, event.missionId with
      | some sessionId, some missionId =>
          [⟨.session, sessionId.text⟩, ⟨.mission, missionId.text⟩]
      | _, _ => []
  | .sessionLogUploaded => named .session event.sessionId
  | .artifactCreated | .diffCaptured =>
      match event.artifactId with
      | some artifactId =>
          ⟨.artifact, artifactId.text⟩ ::
            (named .mission event.missionId ++ named .session event.sessionId)
      | none => []
  | .artifactUpdated | .artifactAttachmentUploaded =>
      match event.artifactId with
      | some artifactId => ⟨.artifact, artifactId.text⟩ :: named .session event.sessionId
      | none => []
  | .artifactLinkedToMission =>
      match event.artifactId, event.missionId with
      | some artifactId, some missionId =>
          [⟨.artifact, artifactId.text⟩, ⟨.mission, missionId.text⟩]
      | _, _ => []
  | .artifactFileRefRecorded =>
      match event.artifactId with
      | some artifactId =>
          (if event.sessionId.isSome ∨ ⟨.artifact, artifactId.text⟩ ∈ known then
            [⟨.artifact, artifactId.text⟩]
          else []) ++ named .session event.sessionId
      | none => []
  | .repoContextCaptured | .artifactReviewed | .artifactAccepted | .externalRefLinked
  | .sourceSessionObserved => []

/-- The times of the events that touch an entity, in their order. -/
def touchTimes (entity : Entity) : List Entity → List TraceEvent → List DateTime
  | _, [] => []
  | known, event :: rest =>
      (if entity ∈ touched known event then [event.recordedAt] else []) ++
        touchTimes entity (known ++ touched known event) rest

/-! ## What one step stamps -/

/-- The step gives the entities a time, and leaves the times of all others. -/
def Stamps (index next : TraceIndex) (time : DateTime) (entities : List Entity) : Prop :=
  ∀ entity, next.lastEventAt entity =
    if entity ∈ entities then some time else index.lastEventAt entity

section Steps
variable {index next : TraceIndex} {time : DateTime} {key : String}

theorem Stamps.refl (index : TraceIndex) (time : DateTime) : Stamps index index time [] :=
  fun _ => (if_neg List.not_mem_nil).symm

theorem Stamps.trans {middle : TraceIndex} {first second : List Entity}
    (earlier : Stamps index middle time first) (later : Stamps middle next time second) :
    Stamps index next time (first ++ second) := by
  intro entity
  rw [later entity, earlier entity]
  by_cases inSecond : entity ∈ second <;> by_cases inFirst : entity ∈ first <;>
    simp [inSecond, inFirst]

theorem Stamps.congr {entities others : List Entity} (stamps : Stamps index next time entities)
    (same : ∀ entity, entity ∈ entities ↔ entity ∈ others) : Stamps index next time others := by
  intro entity
  rw [stamps entity]
  simp only [same]

theorem map_getElem?_upsert {V : Type} {map : Map String V} {fresh : V} {edit : V → V}
    {timeOf : V → DateTime} (stamped : ∀ value, timeOf (edit value) = time) (other : String) :
    (upsert map key fresh edit)[other]?.map timeOf =
      if other = key then some time else map[other]?.map timeOf := by
  rw [getElem?_upsert]
  by_cases same : key = other
  · rw [if_pos same, if_pos same.symm, Option.map_some, stamped]
  · rw [if_neg same, if_neg (Ne.symm same)]

theorem map_getElem?_modify {V : Type} {map : Map String V} {edit : V → V}
    {timeOf : V → DateTime} (kept : ∀ value, timeOf (edit value) = timeOf value) (other : String) :
    (map.modify key edit)[other]?.map timeOf = map[other]?.map timeOf := by
  rw [getElem?_modify_eq]
  split
  · rw [Option.map_map]
    exact congrArg (Option.map · _) (funext kept)
  · rfl

theorem Stamps.upsertOrgs {fresh : IndexedOrg} {edit : IndexedOrg → IndexedOrg}
    (stamped : ∀ org, (edit org).lastEventAt = time) :
    Stamps index { index with orgs := upsert index.orgs key fresh edit } time [⟨.org, key⟩] := by
  rintro ⟨kind, id⟩
  cases kind with
  | org => simpa [TraceIndex.lastEventAt] using map_getElem?_upsert stamped id
  | _ => simp [TraceIndex.lastEventAt]

theorem Stamps.upsertProjects {fresh : IndexedProject} {edit : IndexedProject → IndexedProject}
    (stamped : ∀ project, (edit project).lastEventAt = time) :
    Stamps index { index with projects := upsert index.projects key fresh edit } time
      [⟨.project, key⟩] := by
  rintro ⟨kind, id⟩
  cases kind with
  | project => simpa [TraceIndex.lastEventAt] using map_getElem?_upsert stamped id
  | _ => simp [TraceIndex.lastEventAt]

theorem Stamps.upsertMissions {fresh : IndexedMission} {edit : IndexedMission → IndexedMission}
    (stamped : ∀ mission, (edit mission).lastEventAt = time) :
    Stamps index { index with missions := upsert index.missions key fresh edit } time
      [⟨.mission, key⟩] := by
  rintro ⟨kind, id⟩
  cases kind with
  | mission => simpa [TraceIndex.lastEventAt] using map_getElem?_upsert stamped id
  | _ => simp [TraceIndex.lastEventAt]

theorem Stamps.upsertSessions {fresh : IndexedSession} {edit : IndexedSession → IndexedSession}
    (stamped : ∀ session, (edit session).lastEventAt = time) :
    Stamps index { index with sessions := upsert index.sessions key fresh edit } time
      [⟨.session, key⟩] := by
  rintro ⟨kind, id⟩
  cases kind with
  | session => simpa [TraceIndex.lastEventAt] using map_getElem?_upsert stamped id
  | _ => simp [TraceIndex.lastEventAt]

theorem Stamps.ofArtifacts {fresh : IndexedArtifact} {edit : IndexedArtifact → IndexedArtifact}
    (orgs : next.orgs = index.orgs) (projects : next.projects = index.projects)
    (missions : next.missions = index.missions) (sessions : next.sessions = index.sessions)
    (artifacts : next.artifacts = upsert index.artifacts key fresh edit)
    (stamped : ∀ artifact, (edit artifact).lastEventAt = time) :
    Stamps index next time [⟨.artifact, key⟩] := by
  rintro ⟨kind, id⟩
  cases kind with
  | artifact => simpa [TraceIndex.lastEventAt, artifacts] using map_getElem?_upsert stamped id
  | _ => simp [TraceIndex.lastEventAt, orgs, projects, missions, sessions]

theorem Stamps.upsertArtifacts {fresh : IndexedArtifact}
    {edit : IndexedArtifact → IndexedArtifact}
    (stamped : ∀ artifact, (edit artifact).lastEventAt = time) :
    Stamps index { index with artifacts := upsert index.artifacts key fresh edit } time
      [⟨.artifact, key⟩] :=
  Stamps.ofArtifacts rfl rfl rfl rfl rfl stamped

theorem Stamps.modifyOrgs {edit : IndexedOrg → IndexedOrg}
    (kept : ∀ org, (edit org).lastEventAt = org.lastEventAt) :
    Stamps index { index with orgs := index.orgs.modify key edit } time [] := by
  rintro ⟨kind, id⟩
  cases kind with
  | org => simpa [TraceIndex.lastEventAt] using map_getElem?_modify kept id
  | _ => simp [TraceIndex.lastEventAt]

theorem Stamps.modifyMissions {edit : IndexedMission → IndexedMission}
    (kept : ∀ mission, (edit mission).lastEventAt = mission.lastEventAt) :
    Stamps index { index with missions := index.missions.modify key edit } time [] := by
  rintro ⟨kind, id⟩
  cases kind with
  | mission => simpa [TraceIndex.lastEventAt] using map_getElem?_modify kept id
  | _ => simp [TraceIndex.lastEventAt]

theorem Stamps.modifySessions {edit : IndexedSession → IndexedSession}
    (kept : ∀ session, (edit session).lastEventAt = session.lastEventAt) :
    Stamps index { index with sessions := index.sessions.modify key edit } time [] := by
  rintro ⟨kind, id⟩
  cases kind with
  | session => simpa [TraceIndex.lastEventAt] using map_getElem?_modify kept id
  | _ => simp [TraceIndex.lastEventAt]

theorem Stamps.modifyArtifacts {edit : IndexedArtifact → IndexedArtifact}
    (kept : ∀ artifact, (edit artifact).lastEventAt = artifact.lastEventAt) :
    Stamps index { index with artifacts := index.artifacts.modify key edit } time [] := by
  rintro ⟨kind, id⟩
  cases kind with
  | artifact => simpa [TraceIndex.lastEventAt] using map_getElem?_modify kept id
  | _ => simp [TraceIndex.lastEventAt]

/-- An edit touches an artifact that is known. -/
theorem Stamps.stampArtifact {edit : IndexedArtifact → IndexedArtifact}
    (stamped : ∀ artifact, (edit artifact).lastEventAt = time)
    (known : (index.lastEventAt ⟨.artifact, key⟩).isSome) :
    Stamps index { index with artifacts := index.artifacts.modify key edit } time
      [⟨.artifact, key⟩] := by
  rintro ⟨kind, id⟩
  cases kind with
  | artifact =>
      simp only [TraceIndex.lastEventAt, getElem?_modify_eq, List.mem_singleton, Entity.mk.injEq,
        true_and]
      by_cases same : key = id
      · subst same
        obtain ⟨held, isHeld⟩ := Option.isSome_iff_exists.mp known
        obtain ⟨artifact, found, -⟩ := Option.map_eq_some_iff.mp isHeld
        simp [found, stamped]
      · rw [if_neg same, if_neg (Ne.symm same)]
  | _ => simp [TraceIndex.lastEventAt]

theorem Stamps.modifyUnknownArtifact {edit : IndexedArtifact → IndexedArtifact}
    (unknown : ¬ (index.lastEventAt ⟨.artifact, key⟩).isSome) :
    Stamps index { index with artifacts := index.artifacts.modify key edit } time [] := by
  rintro ⟨kind, id⟩
  cases kind with
  | artifact =>
      simp only [TraceIndex.lastEventAt, getElem?_modify_eq, List.not_mem_nil, if_false]
      by_cases same : key = id
      · subst same
        have absent : index.artifacts[key]? = none := by
          simpa [TraceIndex.lastEventAt] using unknown
        simp [absent]
      · rw [if_neg same]
  | _ => simp [TraceIndex.lastEventAt]

/-! ## Edges of the graph -/

variable {event : TraceEvent}

theorem linkProjectToOrg_stamps (index : TraceIndex) (projectId : ProjectId) (orgId : OrgId)
    (event : TraceEvent) :
    Stamps index (index.linkProjectToOrg projectId orgId event) event.recordedAt
      [⟨.org, orgId.text⟩, ⟨.project, projectId.text⟩] := by
  rintro ⟨kind, id⟩
  cases kind with
  | org =>
      simpa [TraceIndex.lastEventAt, TraceIndex.linkProjectToOrg] using
        map_getElem?_upsert (fun _ => by rfl) id
  | project =>
      simpa [TraceIndex.lastEventAt, TraceIndex.linkProjectToOrg] using
        map_getElem?_upsert (fun _ => by rfl) id
  | _ => simp [TraceIndex.lastEventAt, TraceIndex.linkProjectToOrg]

theorem linkMissionToProject_stamps (index : TraceIndex) (missionId : MissionId)
    (projectId : ProjectId) (event : TraceEvent) :
    Stamps index (index.linkMissionToProject missionId projectId event) event.recordedAt
      [⟨.project, projectId.text⟩, ⟨.mission, missionId.text⟩] := by
  rintro ⟨kind, id⟩
  cases kind with
  | project =>
      simpa [TraceIndex.lastEventAt, TraceIndex.linkMissionToProject] using
        map_getElem?_upsert (fun _ => by rfl) id
  | mission =>
      simpa [TraceIndex.lastEventAt, TraceIndex.linkMissionToProject] using
        map_getElem?_upsert (fun _ => by rfl) id
  | _ => simp [TraceIndex.lastEventAt, TraceIndex.linkMissionToProject]

theorem linkSessionToMission_stamps (index : TraceIndex) (sessionId : SessionId)
    (missionId : MissionId) (event : TraceEvent) :
    Stamps index (index.linkSessionToMission sessionId missionId event) event.recordedAt
      [⟨.mission, missionId.text⟩, ⟨.session, sessionId.text⟩] := by
  rintro ⟨kind, id⟩
  cases kind with
  | mission =>
      simpa [TraceIndex.lastEventAt, TraceIndex.linkSessionToMission] using
        map_getElem?_upsert (fun _ => by rfl) id
  | session =>
      simpa [TraceIndex.lastEventAt, TraceIndex.linkSessionToMission] using
        map_getElem?_upsert (fun _ => by rfl) id
  | _ => simp [TraceIndex.lastEventAt, TraceIndex.linkSessionToMission]

theorem linkArtifactToMission_stamps (index : TraceIndex) (artifactId : ArtifactId)
    (missionId : MissionId) (event : TraceEvent) :
    Stamps index (index.linkArtifactToMission artifactId missionId event) event.recordedAt
      [⟨.mission, missionId.text⟩, ⟨.artifact, artifactId.text⟩] := by
  rintro ⟨kind, id⟩
  cases kind with
  | mission =>
      simpa [TraceIndex.lastEventAt, TraceIndex.linkArtifactToMission] using
        map_getElem?_upsert (fun _ => by rfl) id
  | artifact =>
      simpa [TraceIndex.lastEventAt, TraceIndex.linkArtifactToMission] using
        map_getElem?_upsert (fun _ => by rfl) id
  | _ => simp [TraceIndex.lastEventAt, TraceIndex.linkArtifactToMission]

theorem linkArtifactToSession_stamps (index : TraceIndex) (artifactId : ArtifactId)
    (sessionId : SessionId) (event : TraceEvent) :
    Stamps index (index.linkArtifactToSession artifactId sessionId event) event.recordedAt
      [⟨.session, sessionId.text⟩, ⟨.artifact, artifactId.text⟩] := by
  rintro ⟨kind, id⟩
  cases kind with
  | session =>
      simpa [TraceIndex.lastEventAt, TraceIndex.linkArtifactToSession] using
        map_getElem?_upsert (fun _ => by rfl) id
  | artifact =>
      simpa [TraceIndex.lastEventAt, TraceIndex.linkArtifactToSession] using
        map_getElem?_upsert (fun _ => by rfl) id
  | _ => simp [TraceIndex.lastEventAt, TraceIndex.linkArtifactToSession]

/-- The entities of an edge between an artifact and what an event may name. -/
def edgeIfNamed {kind : TraceIdKind} (entityKind : EntityKind) (id : Option (TraceId kind))
    (artifactId : ArtifactId) : List Entity :=
  match id with
  | some id => [⟨entityKind, id.text⟩, ⟨.artifact, artifactId.text⟩]
  | none => []

theorem linkSessionIfNamed_stamps (index : TraceIndex) (artifactId : ArtifactId)
    (event : TraceEvent) :
    Stamps index (index.linkSessionIfNamed artifactId event) event.recordedAt
      (edgeIfNamed .session event.sessionId artifactId) := by
  unfold TraceIndex.linkSessionIfNamed edgeIfNamed
  cases event.sessionId with
  | none => exact Stamps.refl index event.recordedAt
  | some sessionId => exact linkArtifactToSession_stamps index artifactId sessionId event

theorem linkMissionIfNamed_stamps (index : TraceIndex) (artifactId : ArtifactId)
    (event : TraceEvent) :
    Stamps index (index.linkMissionIfNamed artifactId event) event.recordedAt
      (edgeIfNamed .mission event.missionId artifactId) := by
  unfold TraceIndex.linkMissionIfNamed edgeIfNamed
  cases event.missionId with
  | none => exact Stamps.refl index event.recordedAt
  | some missionId => exact linkArtifactToMission_stamps index artifactId missionId event

/-- A link to what an event names touches that and the artifact. -/
theorem mem_cons_named {kind : TraceIdKind} (entityKind : EntityKind) (id : Option (TraceId kind))
    (artifactId : ArtifactId) (entity : Entity) :
    entity = ⟨.artifact, artifactId.text⟩ ∨ entity ∈ edgeIfNamed entityKind id artifactId ↔
      entity = ⟨.artifact, artifactId.text⟩ ∨ entity ∈ named entityKind id := by
  cases id with
  | none => rfl
  | some id =>
      simp only [edgeIfNamed, named, Option.map_some, Option.toList_some, List.mem_cons,
        List.not_mem_nil, or_false]
      tauto

/-! ## Events -/

theorem applyOrgCreated_stamps (known : List Entity) (type : event.eventType = .orgCreated)
    (applied : index.applyOrgCreated event = .ok next) :
    Stamps index next event.recordedAt (touched known event) := by
  unfold TraceIndex.applyOrgCreated at applied
  unfold touched
  cases isNamed : event.orgId with
  | none =>
      simp only [isNamed] at applied
      cases applied
      simp only [type]
      exact Stamps.refl index event.recordedAt
  | some orgId =>
      simp only [isNamed] at applied
      obtain ⟨payload, -, applied⟩ := Fallible.bind_eq_ok_iff.mp applied
      cases applied
      simp only [type]
      exact Stamps.upsertOrgs fun _ => by rfl

theorem applyOrgUpdated_stamps (known : List Entity) (type : event.eventType = .orgUpdated)
    (applied : index.applyOrgUpdated event = .ok next) :
    Stamps index next event.recordedAt (touched known event) := by
  unfold TraceIndex.applyOrgUpdated at applied
  unfold touched
  cases isNamed : event.orgId with
  | none =>
      simp only [isNamed] at applied
      cases applied
      simp only [type]
      exact Stamps.refl index event.recordedAt
  | some orgId =>
      simp only [isNamed] at applied
      obtain ⟨payload, -, applied⟩ := Fallible.bind_eq_ok_iff.mp applied
      cases applied
      simp only [type]
      exact Stamps.upsertOrgs fun _ => by rfl

theorem applyProjectCreated_stamps (known : List Entity) (type : event.eventType = .projectCreated)
    (applied : index.applyProjectCreated event = .ok next) :
    Stamps index next event.recordedAt (touched known event) := by
  unfold TraceIndex.applyProjectCreated at applied
  unfold touched
  cases isNamed : event.projectId with
  | none =>
      simp only [isNamed] at applied
      cases applied
      simpa only [type] using Stamps.refl index event.recordedAt
  | some projectId =>
      simp only [isNamed] at applied
      obtain ⟨payload, read, applied⟩ := Fallible.bind_eq_ok_iff.mp applied
      cases applied
      simp only [type, readPayload_eq_ok_iff.mp read]
      refine Stamps.congr (((Stamps.upsertProjects fun _ => by rfl).trans
        (linkProjectToOrg_stamps _ projectId payload.orgId event)).trans
          (Stamps.modifyOrgs fun _ => by rfl)) fun entity => ?_
      simp only [List.mem_append, List.mem_cons, List.not_mem_nil, or_false]
      tauto

theorem applyProjectUpdated_stamps (known : List Entity) (type : event.eventType = .projectUpdated)
    (applied : index.applyProjectUpdated event = .ok next) :
    Stamps index next event.recordedAt (touched known event) := by
  unfold TraceIndex.applyProjectUpdated at applied
  unfold touched
  cases isNamed : event.projectId with
  | none =>
      simp only [isNamed] at applied
      cases applied
      simpa only [type] using Stamps.refl index event.recordedAt
  | some projectId =>
      simp only [isNamed] at applied
      obtain ⟨payload, read, applied⟩ := Fallible.bind_eq_ok_iff.mp applied
      cases applied
      simp only [type, readPayload_eq_ok_iff.mp read]
      cases payload.orgId with
      | none => exact Stamps.upsertProjects fun _ => by rfl
      | some orgId =>
          refine Stamps.congr ((linkProjectToOrg_stamps index projectId orgId event).trans
            (Stamps.upsertProjects fun _ => by rfl)) fun entity => ?_
          simp only [named, Option.map_some, Option.toList_some, List.mem_append, List.mem_cons,
            List.not_mem_nil, or_false]
          tauto

theorem applyMissionCreated_stamps (known : List Entity) (type : event.eventType = .missionCreated)
    (applied : index.applyMissionCreated event = .ok next) :
    Stamps index next event.recordedAt (touched known event) := by
  unfold TraceIndex.applyMissionCreated at applied
  unfold touched
  cases isNamed : event.missionId with
  | none =>
      simp only [isNamed] at applied
      cases applied
      simpa only [type] using Stamps.refl index event.recordedAt
  | some missionId =>
      simp only [isNamed] at applied
      obtain ⟨payload, read, applied⟩ := Fallible.bind_eq_ok_iff.mp applied
      cases applied
      simp only [type, readPayload_eq_ok_iff.mp read]
      refine Stamps.congr ((linkMissionToProject_stamps index missionId payload.projectId
        event).trans (Stamps.upsertMissions fun _ => by rfl)) fun entity => ?_
      simp only [List.mem_append, List.mem_cons, List.not_mem_nil, or_false]
      tauto

theorem applyMissionUpdated_stamps (known : List Entity) (type : event.eventType = .missionUpdated)
    (applied : index.applyMissionUpdated event = .ok next) :
    Stamps index next event.recordedAt (touched known event) := by
  unfold TraceIndex.applyMissionUpdated at applied
  unfold touched
  cases isNamed : event.missionId with
  | none =>
      simp only [isNamed] at applied
      cases applied
      simpa only [type] using Stamps.refl index event.recordedAt
  | some missionId =>
      simp only [isNamed] at applied
      obtain ⟨payload, read, applied⟩ := Fallible.bind_eq_ok_iff.mp applied
      cases applied
      simp only [type, readPayload_eq_ok_iff.mp read]
      cases payload.projectId with
      | none => exact Stamps.upsertMissions fun _ => by rfl
      | some projectId =>
          refine Stamps.congr ((linkMissionToProject_stamps index missionId projectId event).trans
            (Stamps.upsertMissions fun _ => by rfl)) fun entity => ?_
          simp only [named, Option.map_some, Option.toList_some, List.mem_append, List.mem_cons,
            List.not_mem_nil, or_false]
          tauto

theorem applySessionStarted_stamps (known : List Entity) (type : event.eventType = .sessionStarted)
    (applied : index.applySessionStarted event = .ok next) :
    Stamps index next event.recordedAt (touched known event) := by
  unfold TraceIndex.applySessionStarted at applied
  unfold touched
  cases isNamed : event.sessionId with
  | none =>
      simp only [isNamed] at applied
      cases applied
      simpa only [type] using Stamps.refl index event.recordedAt
  | some sessionId =>
      simp only [isNamed] at applied
      obtain ⟨payload, -, applied⟩ := Fallible.bind_eq_ok_iff.mp applied
      cases applied
      simp only [type]
      cases event.missionId with
      | none => exact Stamps.upsertSessions fun _ => by rfl
      | some missionId =>
          refine Stamps.congr ((Stamps.upsertSessions fun _ => by rfl).trans
            (linkSessionToMission_stamps _ sessionId missionId event)) fun entity => ?_
          simp only [named, Option.map_some, Option.toList_some, List.mem_append, List.mem_cons,
            List.not_mem_nil, or_false]
          tauto

theorem applySessionLinked_stamps (known : List Entity)
    (type : event.eventType = .sessionLinkedToMission)
    (applied : index.applySessionLinked event = .ok next) :
    Stamps index next event.recordedAt (touched known event) := by
  unfold TraceIndex.applySessionLinked at applied
  unfold touched
  cases isNamed : event.sessionId with
  | none =>
      simp only [isNamed] at applied
      cases applied
      simpa only [type] using Stamps.refl index event.recordedAt
  | some sessionId =>
      cases missionNamed : event.missionId with
      | none =>
          simp only [isNamed, missionNamed] at applied
          cases applied
          simpa only [type] using Stamps.refl index event.recordedAt
      | some missionId =>
          simp only [isNamed, missionNamed] at applied
          obtain ⟨payload, -, applied⟩ := Fallible.bind_eq_ok_iff.mp applied
          cases applied
          simp only [type]
          refine Stamps.congr (((linkSessionToMission_stamps index sessionId missionId event).trans
            (Stamps.modifySessions fun _ => by rfl)).trans
              (Stamps.modifyMissions fun _ => by rfl)) fun entity => ?_
          simp only [List.mem_append, List.mem_cons, List.not_mem_nil, or_false]
          tauto

theorem applySessionLogUploaded_stamps (known : List Entity)
    (type : event.eventType = .sessionLogUploaded)
    (applied : index.applySessionLogUploaded event = .ok next) :
    Stamps index next event.recordedAt (touched known event) := by
  unfold TraceIndex.applySessionLogUploaded at applied
  unfold touched
  cases isNamed : event.sessionId with
  | none =>
      simp only [isNamed] at applied
      cases applied
      simp only [type]
      exact Stamps.refl index event.recordedAt
  | some sessionId =>
      simp only [isNamed] at applied
      obtain ⟨payload, -, applied⟩ := Fallible.bind_eq_ok_iff.mp applied
      cases applied
      simp only [type]
      rintro ⟨kind, id⟩
      cases kind with
      | session =>
          simpa [TraceIndex.lastEventAt, named] using map_getElem?_upsert (fun _ => by rfl) id
      | _ => simp [TraceIndex.lastEventAt, named]

theorem applyArtifactCreated_stamps (known : List Entity)
    (type : event.eventType = .artifactCreated)
    (applied : index.applyArtifactCreated event = .ok next) :
    Stamps index next event.recordedAt (touched known event) := by
  unfold TraceIndex.applyArtifactCreated at applied
  unfold touched
  cases isNamed : event.artifactId with
  | none =>
      simp only [isNamed] at applied
      cases applied
      simpa only [type] using Stamps.refl index event.recordedAt
  | some artifactId =>
      simp only [isNamed] at applied
      obtain ⟨payload, -, applied⟩ := Fallible.bind_eq_ok_iff.mp applied
      cases applied
      simp only [type]
      refine Stamps.congr (((Stamps.upsertArtifacts fun _ => by rfl).trans
        (linkMissionIfNamed_stamps _ artifactId event)).trans
          (linkSessionIfNamed_stamps _ artifactId event)) fun entity => ?_
      have mission := mem_cons_named .mission event.missionId artifactId entity
      have session := mem_cons_named .session event.sessionId artifactId entity
      simp only [List.mem_append, List.mem_cons, List.not_mem_nil, or_false]
      tauto

theorem applyArtifactUpdated_stamps (known : List Entity)
    (type : event.eventType = .artifactUpdated)
    (applied : index.applyArtifactUpdated event = .ok next) :
    Stamps index next event.recordedAt (touched known event) := by
  unfold TraceIndex.applyArtifactUpdated at applied
  unfold touched
  cases isNamed : event.artifactId with
  | none =>
      simp only [isNamed] at applied
      cases applied
      simpa only [type] using Stamps.refl index event.recordedAt
  | some artifactId =>
      simp only [isNamed] at applied
      obtain ⟨payload, -, applied⟩ := Fallible.bind_eq_ok_iff.mp applied
      cases applied
      simp only [type]
      refine Stamps.congr ((Stamps.upsertArtifacts fun _ => by rfl).trans
        (linkSessionIfNamed_stamps _ artifactId event)) fun entity => ?_
      have session := mem_cons_named .session event.sessionId artifactId entity
      simp only [List.mem_append, List.mem_cons, List.not_mem_nil, or_false]
      tauto

theorem applyArtifactLinked_stamps (known : List Entity)
    (type : event.eventType = .artifactLinkedToMission)
    (applied : index.applyArtifactLinked event = .ok next) :
    Stamps index next event.recordedAt (touched known event) := by
  unfold TraceIndex.applyArtifactLinked at applied
  unfold touched
  cases isNamed : event.artifactId with
  | none =>
      simp only [isNamed] at applied
      cases applied
      simpa only [type] using Stamps.refl index event.recordedAt
  | some artifactId =>
      cases missionNamed : event.missionId with
      | none =>
          simp only [isNamed, missionNamed] at applied
          cases applied
          simpa only [type] using Stamps.refl index event.recordedAt
      | some missionId =>
          simp only [isNamed, missionNamed] at applied
          obtain ⟨payload, -, applied⟩ := Fallible.bind_eq_ok_iff.mp applied
          cases applied
          simp only [type]
          refine Stamps.congr (((linkArtifactToMission_stamps index artifactId missionId
            event).trans (Stamps.modifyArtifacts fun _ => by rfl)).trans
              (Stamps.modifyMissions fun _ => by rfl)) fun entity => ?_
          simp only [List.mem_append, List.mem_cons, List.not_mem_nil, or_false]
          tauto

/-- The index holds a time for the entities that are known, and for no others. -/
def TraceIndex.Knows (index : TraceIndex) (known : List Entity) : Prop :=
  ∀ entity, (index.lastEventAt entity).isSome ↔ entity ∈ known

theorem applyArtifactFileRef_stamps {known : List Entity} (knows : index.Knows known)
    (type : event.eventType = .artifactFileRefRecorded)
    (applied : index.applyArtifactFileRef event = .ok next) :
    Stamps index next event.recordedAt (touched known event) := by
  unfold TraceIndex.applyArtifactFileRef at applied
  unfold touched
  cases isNamed : event.artifactId with
  | none =>
      simp only [isNamed] at applied
      cases applied
      simpa only [type] using Stamps.refl index event.recordedAt
  | some artifactId =>
      simp only [isNamed] at applied
      obtain ⟨payload, -, applied⟩ := Fallible.bind_eq_ok_iff.mp applied
      cases applied
      simp only [type]
      have session := mem_cons_named .session event.sessionId artifactId
      by_cases isKnown : (⟨.artifact, artifactId.text⟩ : Entity) ∈ known
      · refine Stamps.congr ((Stamps.stampArtifact (fun _ => by rfl)
          ((knows _).mpr isKnown)).trans
            (linkSessionIfNamed_stamps _ artifactId event)) fun entity => ?_
        have edge := session entity
        simp only [isKnown, or_true, if_true, List.mem_append, List.mem_cons, List.not_mem_nil,
          or_false]
        tauto
      · refine Stamps.congr ((Stamps.modifyUnknownArtifact
          (mt (knows _).mp isKnown)).trans
            (linkSessionIfNamed_stamps _ artifactId event)) fun entity => ?_
        cases event.sessionId with
        | none => simp [isKnown, edgeIfNamed, named]
        | some sessionId =>
            simp only [edgeIfNamed, named, Option.map_some, Option.toList_some, Option.isSome_some,
              true_or, if_true, List.mem_append, List.mem_cons, List.not_mem_nil, or_false]
            tauto

theorem applyArtifactAttachmentUploaded_stamps (known : List Entity)
    (type : event.eventType = .artifactAttachmentUploaded)
    (applied : index.applyArtifactAttachmentUploaded event = .ok next) :
    Stamps index next event.recordedAt (touched known event) := by
  unfold TraceIndex.applyArtifactAttachmentUploaded at applied
  unfold touched
  cases isNamed : event.artifactId with
  | none =>
      simp only [isNamed] at applied
      cases applied
      simpa only [type] using Stamps.refl index event.recordedAt
  | some artifactId =>
      simp only [isNamed] at applied
      obtain ⟨payload, -, applied⟩ := Fallible.bind_eq_ok_iff.mp applied
      cases applied
      simp only [type]
      refine Stamps.congr ((Stamps.upsertArtifacts fun _ => by rfl).trans
        (linkSessionIfNamed_stamps _ artifactId event)) fun entity => ?_
      have session := mem_cons_named .session event.sessionId artifactId entity
      simp only [List.mem_append, List.mem_cons, List.not_mem_nil, or_false]
      tauto

theorem applyDiffCaptured_stamps {mode : OverflowMode} (known : List Entity)
    (type : event.eventType = .diffCaptured)
    (applied : index.applyDiffCaptured mode event = .ok next) :
    Stamps index next event.recordedAt (touched known event) := by
  unfold TraceIndex.applyDiffCaptured at applied
  unfold touched
  cases isNamed : event.artifactId with
  | none =>
      simp only [isNamed] at applied
      cases applied
      simpa only [type] using Stamps.refl index event.recordedAt
  | some artifactId =>
      simp only [isNamed] at applied
      obtain ⟨payload, -, applied⟩ := Fallible.bind_eq_ok_iff.mp applied
      obtain ⟨additions, -, applied⟩ := Fallible.bind_eq_ok_iff.mp applied
      obtain ⟨deletions, -, applied⟩ := Fallible.bind_eq_ok_iff.mp applied
      cases applied
      simp only [type]
      have recorded : ∀ (diffs : Map String IndexedDiff) (files : Map String IndexedFile)
          (edit : IndexedArtifact → IndexedArtifact),
          (∀ artifact, (edit artifact).lastEventAt = event.recordedAt) →
            Stamps index { index with
              diffs := diffs
              artifacts :=
                upsert index.artifacts artifactId.text (newArtifact artifactId event) edit
              files := files } event.recordedAt [⟨.artifact, artifactId.text⟩] :=
        fun _ _ _ stamped => Stamps.ofArtifacts rfl rfl rfl rfl rfl stamped
      refine Stamps.congr (((recorded _ _ _ fun _ => by rfl).trans
        (linkSessionIfNamed_stamps _ artifactId event)).trans
          (linkMissionIfNamed_stamps _ artifactId event)) fun entity => ?_
      have mission := mem_cons_named .mission event.missionId artifactId entity
      have session := mem_cons_named .session event.sessionId artifactId entity
      simp only [List.mem_append, List.mem_cons, List.not_mem_nil, or_false]
      tauto

theorem applyRepoContextCaptured_stamps (known : List Entity)
    (type : event.eventType = .repoContextCaptured)
    (applied : index.applyRepoContextCaptured event = .ok next) :
    Stamps index next event.recordedAt (touched known event) := by
  unfold TraceIndex.applyRepoContextCaptured at applied
  unfold touched
  cases isNamed : event.repoContextId with
  | none =>
      simp only [isNamed] at applied
      cases applied
      simpa only [type] using Stamps.refl index event.recordedAt
  | some repoContextId =>
      simp only [isNamed] at applied
      obtain ⟨payload, -, applied⟩ := Fallible.bind_eq_ok_iff.mp applied
      cases applied
      simp only [type]
      exact fun _ => (if_neg List.not_mem_nil).symm

/-- One event, whatever its type, stamps what it touches. -/
theorem applyEvent_stamps {mode : OverflowMode} {known : List Entity} (knows : index.Knows known)
    (applied : index.applyEvent mode event = .ok next) :
    Stamps index next event.recordedAt (touched known event) := by
  cases type : event.eventType with
  | artifactFileRefRecorded =>
      exact applyArtifactFileRef_stamps knows type
        (by simpa only [TraceIndex.applyEvent, type] using applied)
  | artifactReviewed | artifactAccepted | externalRefLinked | sourceSessionObserved =>
      simp only [TraceIndex.applyEvent, type] at applied
      cases applied
      simpa only [touched, type] using Stamps.refl index event.recordedAt
  | _ =>
      simp only [TraceIndex.applyEvent, type] at applied
      first
        | exact applyOrgCreated_stamps known type applied
        | exact applyOrgUpdated_stamps known type applied
        | exact applyProjectCreated_stamps known type applied
        | exact applyProjectUpdated_stamps known type applied
        | exact applyMissionCreated_stamps known type applied
        | exact applyMissionUpdated_stamps known type applied
        | exact applySessionStarted_stamps known type applied
        | exact applySessionLinked_stamps known type applied
        | exact applySessionLogUploaded_stamps known type applied
        | exact applyArtifactCreated_stamps known type applied
        | exact applyArtifactUpdated_stamps known type applied
        | exact applyArtifactLinked_stamps known type applied
        | exact applyArtifactAttachmentUploaded_stamps known type applied
        | exact applyDiffCaptured_stamps known type applied
        | exact applyRepoContextCaptured_stamps known type applied

theorem Stamps.knows {known entities : List Entity} (knows : index.Knows known)
    (stamps : Stamps index next time entities) : next.Knows (known ++ entities) := by
  intro entity
  rw [stamps entity, List.mem_append]
  by_cases stamped : entity ∈ entities
  · simp [stamped]
  · simp [stamped, knows entity]

end Steps

/-! ## A build -/

theorem foldlM_lastEventAt {mode : OverflowMode} {events : List TraceEvent}
    {start index : TraceIndex} {known : List Entity} (knows : start.Knows known)
    (built : events.foldlM (TraceIndex.applyEvent mode) start = .ok index) (entity : Entity) :
    index.lastEventAt entity =
      (touchTimes entity known events).getLast?.or (start.lastEventAt entity) := by
  induction events generalizing start known with
  | nil =>
      cases built
      rfl
  | cons event rest ih =>
      obtain ⟨next, applied, later⟩ := Fallible.bind_eq_ok_iff.mp built
      have stamps := applyEvent_stamps knows applied
      rw [ih (stamps.knows knows) later, stamps entity, touchTimes, List.getLast?_append,
        Option.or_assoc]
      split <;> rfl

/-- The index holds for each entity the time of the last event that touches it. -/
theorem build_lastEventAt {mode : OverflowMode} {now : DateTime} {events : List TraceEvent}
    {index : TraceIndex} (built : TraceIndex.build mode now events = .ok index) (entity : Entity) :
    index.lastEventAt entity = (touchTimes entity [] events).getLast? := by
  have blank : ∀ other, (TraceIndex.empty now events.length).lastEventAt other = none := by
    rintro ⟨kind, id⟩
    cases kind <;> simp [TraceIndex.lastEventAt, TraceIndex.empty]
  have knows : (TraceIndex.empty now events.length).Knows [] := by
    intro other
    simp [blank]
  rw [foldlM_lastEventAt knows built, blank, Option.or_none]

/-! ## Newest first -/

/-- The missions that pass the filters, newest first. -/
def newestMissions (index : TraceIndex) (keep : IndexedMission → Bool) (limit : Nat) :
    List IndexedMission :=
  (StableSort.largestFirst (fun mission : IndexedMission => mission.lastEventAt.nanoseconds)
    ((values index.missions).filter keep)).take limit

def IsLatest (time : DateTime) (times : List DateTime) : Prop :=
  time ∈ times ∧ ∀ other ∈ times, other.nanoseconds ≤ time.nanoseconds

/-- The index holds for each entity the latest time at which an event that touches it was
recorded, and a mission stands before those of which no event was recorded later. -/
structure HoldsLatest (index : TraceIndex) (events : List TraceEvent) : Prop where
  entities : ∀ entity time, index.lastEventAt entity = some time →
    IsLatest time (touchTimes entity [] events)
  missions : ∀ keep limit, (newestMissions index keep limit).Pairwise fun first second =>
    ∀ time ∈ touchTimes ⟨.mission, second.missionId⟩ [] events,
      ∃ later ∈ touchTimes ⟨.mission, first.missionId⟩ [] events,
        time.nanoseconds ≤ later.nanoseconds

/-- The last event that touches an entity is recorded no earlier than the others. -/
def LastIsLatest (events : List TraceEvent) (entity : Entity) : Prop :=
  ∀ last ∈ (touchTimes entity [] events).getLast?,
    ∀ time ∈ touchTimes entity [] events, time.nanoseconds ≤ last.nanoseconds

section Latest
variable {mode : OverflowMode} {now : DateTime} {events : List TraceEvent} {index : TraceIndex}

theorem lastEventAt_of_mem (built : TraceIndex.build mode now events = .ok index)
    {mission : IndexedMission} (member : mission ∈ values index.missions) :
    index.lastEventAt ⟨.mission, mission.missionId⟩ = some mission.lastEventAt := by
  obtain ⟨key, held⟩ := (mem_values_iff _ _).mp member
  have own := (build_entitiesKeyed built).missions key mission held
  simp only [TraceIndex.lastEventAt]
  rw [own, held, Option.map_some]

theorem holdsLatest_iff (built : TraceIndex.build mode now events = .ok index) :
    HoldsLatest index events ↔ ∀ entity, LastIsLatest events entity := by
  constructor
  · intro holds entity last isLast
    rw [← build_lastEventAt built] at isLast
    exact (holds.entities entity last isLast).2
  · intro lastIsLatest
    have entities : ∀ entity time, index.lastEventAt entity = some time →
        IsLatest time (touchTimes entity [] events) := by
      intro entity time held
      rw [build_lastEventAt built] at held
      exact ⟨List.mem_of_getLast? held, lastIsLatest entity time held⟩
    refine ⟨entities, fun keep limit => ?_⟩
    unfold newestMissions
    refine List.Pairwise.sublist (List.take_sublist _ _) ?_
    refine StableSort.pairwise_largestFirst.imp_of_mem ?_
    intro first second firstIn secondIn ordered time touches
    have known : ∀ {mission : IndexedMission}, mission ∈ StableSort.largestFirst
        (fun mission : IndexedMission => mission.lastEventAt.nanoseconds)
          ((values index.missions).filter keep) →
        IsLatest mission.lastEventAt (touchTimes ⟨.mission, mission.missionId⟩ [] events) := by
      intro mission member
      have listed := StableSort.largestFirst_perm.mem_iff.mp member
      exact entities _ _ (lastEventAt_of_mem built (List.mem_of_mem_filter listed))
    exact ⟨first.lastEventAt, (known firstIn).1, ((known secondIn).2 time touches).trans ordered⟩

/-! ## An event that was recorded earlier -/

def backdatedUpdate : List TraceEvent :=
  [{ TraceIndex.eventOfMissionIn 1 .missionCreated "project_1" with recordedAt := ⟨10⟩ },
    { TraceIndex.eventOfMissionIn 2 .missionUpdated "project_1" with
      occurredAt := ⟨1⟩, recordedAt := ⟨5⟩ }]

theorem one_event_is_latest :
    ∃ index, TraceIndex.build .checked ⟨0⟩
        [TraceIndex.eventOfMissionIn 1 .missionCreated "project_1"] = .ok index ∧
      HoldsLatest index [TraceIndex.eventOfMissionIn 1 .missionCreated "project_1"] := by
  have builds : ∃ index, TraceIndex.build .checked ⟨0⟩
      [TraceIndex.eventOfMissionIn 1 .missionCreated "project_1"] = .ok index := ⟨_, rfl⟩
  obtain ⟨index, built⟩ := builds
  refine ⟨index, built, (holdsLatest_iff built).mpr fun entity last isLast time touches => ?_⟩
  have only : ∀ other ∈ touchTimes entity []
      [TraceIndex.eventOfMissionIn 1 .missionCreated "project_1"], other = ⟨0⟩ := by
    intro other member
    rw [touchTimes, touchTimes, List.append_nil] at member
    split at member
    · exact List.mem_singleton.mp member
    · exact absurd member List.not_mem_nil
  rw [only time touches, only last (List.mem_of_getLast? isLast)]

/-- The last update of the mission was recorded before its creation. -/
theorem backdated_update_is_held :
    ¬ ∀ (mode : OverflowMode) (now : DateTime) (events : List TraceEvent) (index : TraceIndex),
      TraceIndex.build mode now events = .ok index → HoldsLatest index events := by
  intro claim
  have builds : ∃ index, TraceIndex.build .checked ⟨0⟩ backdatedUpdate = .ok index := ⟨_, rfl⟩
  obtain ⟨index, built⟩ := builds
  have times : touchTimes ⟨.mission, "mission_1"⟩ [] backdatedUpdate = [⟨10⟩, ⟨5⟩] := by
    decide +kernel
  have held := build_lastEventAt built ⟨.mission, "mission_1"⟩
  rw [times] at held
  have latest := (claim .checked ⟨0⟩ backdatedUpdate index built).entities _ _ held
  rw [times] at latest
  exact absurd (latest.2 ⟨10⟩ List.mem_cons_self) (by decide)

end Latest

end BrickTrace
