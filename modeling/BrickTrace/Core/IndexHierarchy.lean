import BrickTrace.Lib.Fallible
import BrickTrace.Lib.Parents
import BrickTrace.Core.Index

/-!
# The hierarchy of the index

Missions point to their project and projects to their org, and the sets at the other
end name them.  An event that names another parent overwrites the pointer and adds to
the new parent's set, and nothing is ever taken out of a set.
-/

set_option autoImplicit false

namespace BrickTrace

open OrderedMap

/-- The mission and the project that an event links. -/
def linkedMission (event : TraceEvent) : Option (String × String) :=
  match event.eventType, event.missionId with
  | .missionCreated, some missionId =>
      (MissionCreatedPayload.decode event.payload).map fun payload =>
        (missionId.text, payload.projectId.text)
  | .missionUpdated, some missionId =>
      (MissionUpdatedPayload.decode event.payload).bind fun payload =>
        payload.projectId.map fun projectId => (missionId.text, projectId.text)
  | _, _ => none

/-- The project and the org that an event links. -/
def linkedProject (event : TraceEvent) : Option (String × String) :=
  match event.eventType, event.projectId with
  | .projectCreated, some projectId =>
      (ProjectCreatedPayload.decode event.payload).map fun payload =>
        (projectId.text, payload.orgId.text)
  | .projectUpdated, some projectId =>
      (ProjectUpdatedPayload.decode event.payload).bind fun payload =>
        payload.orgId.map fun orgId => (projectId.text, orgId.text)
  | _, _ => none

/-- Both levels of the hierarchy after the links made so far. -/
structure TraceIndex.HierarchyTracks (index : TraceIndex)
    (missionLinks projectLinks : List (String × String)) : Prop where
  missions : Tracks IndexedProject.missionIds IndexedMission.projectId index.projects index.missions
    missionLinks
  projects : Tracks IndexedOrg.projectIds IndexedProject.orgId index.orgs index.projects projectLinks

namespace TraceIndex

variable {index next : TraceIndex} {event : TraceEvent}
  {missionLinks projectLinks : List (String × String)}

/-! ## Edits that make no link in the hierarchy -/

/-- The orgs and projects are as they were, and so is the project of every mission. -/
structure HierarchyKept (index next : TraceIndex) : Prop where
  orgs : next.orgs = index.orgs
  projects : next.projects = index.projects
  pointers : ∀ mission, parentIn IndexedMission.projectId next.missions mission =
    parentIn IndexedMission.projectId index.missions mission

theorem HierarchyKept.refl (index : TraceIndex) : HierarchyKept index index := ⟨rfl, rfl, fun _ => rfl⟩

theorem HierarchyKept.trans {middle : TraceIndex} (left : HierarchyKept index middle)
    (right : HierarchyKept middle next) : HierarchyKept index next where
  orgs := right.orgs.trans left.orgs
  projects := right.projects.trans left.projects
  pointers mission := (right.pointers mission).trans (left.pointers mission)

theorem HierarchyTracks.kept (tracks : index.HierarchyTracks missionLinks projectLinks)
    (kept : HierarchyKept index next) : next.HierarchyTracks missionLinks projectLinks where
  missions := by
    rw [HierarchyKept.projects kept]
    exact tracks.missions.congr (fun _ _ => Iff.rfl) kept.pointers
  projects := by
    rw [HierarchyKept.orgs kept, HierarchyKept.projects kept]
    exact tracks.projects

section Links
variable {start : TraceIndex} (kept : HierarchyKept start index)
include kept

theorem HierarchyKept.linkSessionToMission (sessionId : SessionId) (missionId : MissionId)
    (event : TraceEvent) :
    HierarchyKept start (index.linkSessionToMission sessionId missionId event) :=
  kept.trans ⟨rfl, rfl, parentIn_upsert_keep rfl fun _ => rfl⟩

theorem HierarchyKept.linkArtifactToMission (artifactId : ArtifactId) (missionId : MissionId)
    (event : TraceEvent) :
    HierarchyKept start (index.linkArtifactToMission artifactId missionId event) :=
  kept.trans ⟨rfl, rfl, parentIn_upsert_keep rfl fun _ => rfl⟩

theorem HierarchyKept.linkSessionIfNamed (artifactId : ArtifactId) (event : TraceEvent) :
    HierarchyKept start (index.linkSessionIfNamed artifactId event) := by
  unfold TraceIndex.linkSessionIfNamed
  cases event.sessionId with
  | none => exact kept
  | some sessionId => exact kept.trans ⟨rfl, rfl, fun _ => rfl⟩

theorem HierarchyKept.linkMissionIfNamed (artifactId : ArtifactId) (event : TraceEvent) :
    HierarchyKept start (index.linkMissionIfNamed artifactId event) := by
  unfold TraceIndex.linkMissionIfNamed
  cases event.missionId with
  | none => exact kept
  | some missionId => exact kept.linkArtifactToMission artifactId missionId event

end Links

theorem applySessionStarted_kept (applied : index.applySessionStarted event = .ok next) : HierarchyKept index next := by
  unfold applySessionStarted at applied
  cases named : event.sessionId with
  | none =>
      simp only [named] at applied
      cases applied
      exact .refl index
  | some sessionId =>
      simp only [named] at applied
      obtain ⟨payload, _, applied⟩ := Fallible.bind_eq_ok_iff.mp applied
      cases applied
      cases event.missionId with
      | none => exact ⟨rfl, rfl, fun _ => rfl⟩
      | some missionId =>
          apply HierarchyKept.linkSessionToMission
          exact ⟨rfl, rfl, fun _ => rfl⟩

theorem applySessionLinked_kept (applied : index.applySessionLinked event = .ok next) : HierarchyKept index next := by
  unfold applySessionLinked at applied
  cases named : event.sessionId with
  | none =>
      simp only [named] at applied
      cases applied
      exact .refl index
  | some sessionId =>
      cases missionIdNamed : event.missionId with
      | none =>
          simp only [named, missionIdNamed] at applied
          cases applied
          exact .refl index
      | some missionId =>
          simp only [named, missionIdNamed] at applied
          obtain ⟨payload, _, applied⟩ := Fallible.bind_eq_ok_iff.mp applied
          cases applied
          have linked := (HierarchyKept.refl index).linkSessionToMission sessionId missionId event
          exact linked.trans ⟨rfl, rfl, parentIn_modify_keep fun _ => rfl⟩

theorem applySessionLogUploaded_kept (applied : index.applySessionLogUploaded event = .ok next) : HierarchyKept index next := by
  unfold applySessionLogUploaded at applied
  cases named : event.sessionId with
  | none =>
      simp only [named] at applied
      cases applied
      exact .refl index
  | some sessionId =>
      simp only [named] at applied
      obtain ⟨payload, _, applied⟩ := Fallible.bind_eq_ok_iff.mp applied
      cases applied
      exact ⟨rfl, rfl, fun _ => rfl⟩

theorem applyArtifactCreated_kept (applied : index.applyArtifactCreated event = .ok next) : HierarchyKept index next := by
  unfold applyArtifactCreated at applied
  cases named : event.artifactId with
  | none =>
      simp only [named] at applied
      cases applied
      exact .refl index
  | some artifactId =>
      simp only [named] at applied
      obtain ⟨payload, _, applied⟩ := Fallible.bind_eq_ok_iff.mp applied
      cases applied
      apply HierarchyKept.linkSessionIfNamed
      apply HierarchyKept.linkMissionIfNamed
      exact ⟨rfl, rfl, fun _ => rfl⟩

theorem applyArtifactUpdated_kept (applied : index.applyArtifactUpdated event = .ok next) : HierarchyKept index next := by
  unfold applyArtifactUpdated at applied
  cases named : event.artifactId with
  | none =>
      simp only [named] at applied
      cases applied
      exact .refl index
  | some artifactId =>
      simp only [named] at applied
      obtain ⟨payload, _, applied⟩ := Fallible.bind_eq_ok_iff.mp applied
      cases applied
      apply HierarchyKept.linkSessionIfNamed
      exact ⟨rfl, rfl, fun _ => rfl⟩

theorem applyArtifactLinked_kept (applied : index.applyArtifactLinked event = .ok next) : HierarchyKept index next := by
  unfold applyArtifactLinked at applied
  cases named : event.artifactId with
  | none =>
      simp only [named] at applied
      cases applied
      exact .refl index
  | some artifactId =>
      cases missionIdNamed : event.missionId with
      | none =>
          simp only [named, missionIdNamed] at applied
          cases applied
          exact .refl index
      | some missionId =>
          simp only [named, missionIdNamed] at applied
          obtain ⟨payload, _, applied⟩ := Fallible.bind_eq_ok_iff.mp applied
          cases applied
          have linked := (HierarchyKept.refl index).linkArtifactToMission artifactId missionId event
          exact linked.trans ⟨rfl, rfl, parentIn_modify_keep fun _ => rfl⟩

theorem applyArtifactFileRef_kept (applied : index.applyArtifactFileRef event = .ok next) : HierarchyKept index next := by
  unfold applyArtifactFileRef at applied
  cases named : event.artifactId with
  | none =>
      simp only [named] at applied
      cases applied
      exact .refl index
  | some artifactId =>
      simp only [named] at applied
      obtain ⟨payload, _, applied⟩ := Fallible.bind_eq_ok_iff.mp applied
      cases applied
      apply HierarchyKept.linkSessionIfNamed
      exact ⟨rfl, rfl, fun _ => rfl⟩

theorem applyArtifactAttachmentUploaded_kept (applied : index.applyArtifactAttachmentUploaded event = .ok next) : HierarchyKept index next := by
  unfold applyArtifactAttachmentUploaded at applied
  cases named : event.artifactId with
  | none =>
      simp only [named] at applied
      cases applied
      exact .refl index
  | some artifactId =>
      simp only [named] at applied
      obtain ⟨payload, _, applied⟩ := Fallible.bind_eq_ok_iff.mp applied
      cases applied
      apply HierarchyKept.linkSessionIfNamed
      exact ⟨rfl, rfl, fun _ => rfl⟩

theorem applyDiffCaptured_kept {mode : OverflowMode}
    (applied : index.applyDiffCaptured mode event = .ok next) : HierarchyKept index next := by
  unfold applyDiffCaptured at applied
  cases named : event.artifactId with
  | none =>
      simp only [named] at applied
      cases applied
      exact .refl index
  | some artifactId =>
      simp only [named] at applied
      obtain ⟨payload, _, applied⟩ := Fallible.bind_eq_ok_iff.mp applied
      obtain ⟨additions, _, applied⟩ := Fallible.bind_eq_ok_iff.mp applied
      obtain ⟨deletions, _, applied⟩ := Fallible.bind_eq_ok_iff.mp applied
      cases applied
      apply HierarchyKept.linkMissionIfNamed
      apply HierarchyKept.linkSessionIfNamed
      exact ⟨rfl, rfl, fun _ => rfl⟩

theorem applyRepoContextCaptured_kept (applied : index.applyRepoContextCaptured event = .ok next) : HierarchyKept index next := by
  unfold applyRepoContextCaptured at applied
  cases named : event.repoContextId with
  | none =>
      simp only [named] at applied
      cases applied
      exact .refl index
  | some repoContextId =>
      simp only [named] at applied
      obtain ⟨payload, _, applied⟩ := Fallible.bind_eq_ok_iff.mp applied
      cases applied
      exact ⟨rfl, rfl, fun _ => rfl⟩

/-! ## Links in the hierarchy -/

theorem HierarchyTracks.linkProjectToOrg (tracks : index.HierarchyTracks missionLinks projectLinks)
    (projectId : ProjectId) (orgId : OrgId) (event : TraceEvent) :
    (index.linkProjectToOrg projectId orgId event).HierarchyTracks missionLinks
      (projectLinks ++ [(projectId.text, orgId.text)]) where
  missions := by
    refine tracks.missions.congr (points_upsert_keep ?_ fun _ => rfl) fun _ => rfl
    simp [newProject, IndexedProject.blank]
  projects := by
    apply tracks.projects.link
    · apply points_upsert_add
      · simp [newOrg, IndexedOrg.blank]
      · simp
    · exact parentIn_upsert_set orgId.text fun _ => rfl

/-- A link after the project has been described as one of the org already. -/
theorem HierarchyTracks.linkDescribedProject
    (tracks : index.HierarchyTracks missionLinks projectLinks) (projectId : ProjectId)
    (orgId : OrgId) (event : TraceEvent) {edit : IndexedProject → IndexedProject}
    (keeps : ∀ project, (edit project).missionIds = project.missionIds)
    (sets : ∀ project, (edit project).orgId = some orgId.text) :
    (TraceIndex.linkProjectToOrg
      { index with projects := upsert index.projects projectId.text (newProject projectId event) edit }
      projectId orgId event).HierarchyTracks missionLinks
        (projectLinks ++ [(projectId.text, orgId.text)]) where
  missions := by
    refine tracks.missions.congr (fun parent child => ?_) fun _ => rfl
    refine (points_upsert_keep ?_ ?_ parent child).trans (points_upsert_keep ?_ keeps parent child)
    · simp [newProject, IndexedProject.blank]
    · exact fun _ => rfl
    · simp [newProject, IndexedProject.blank]
  projects := by
    apply tracks.projects.link
    · apply points_upsert_add
      · simp [newOrg, IndexedOrg.blank]
      · simp
    · intro child
      refine (parentIn_upsert_set orgId.text ?_ child).trans ?_
      · exact fun _ => rfl
      · by_cases same : projectId.text = child
        · rw [if_pos same, if_pos same]
        · rw [if_neg same, if_neg same]
          exact (parentIn_upsert_set orgId.text sets child).trans (if_neg same)

theorem HierarchyTracks.linkMissionToProject
    (tracks : index.HierarchyTracks missionLinks projectLinks) (missionId : MissionId)
    (projectId : ProjectId) (event : TraceEvent) :
    (index.linkMissionToProject missionId projectId event).HierarchyTracks
      (missionLinks ++ [(missionId.text, projectId.text)]) projectLinks where
  missions := by
    apply tracks.missions.link
    · apply points_upsert_add
      · simp [newProject, IndexedProject.blank]
      · simp
    · exact parentIn_upsert_set projectId.text fun _ => rfl
  projects := tracks.projects.congr (fun _ _ => Iff.rfl) (parentIn_upsert_keep rfl fun _ => rfl)

theorem linkProjectToOrg_points (projectId : ProjectId) (orgId : OrgId) (event : TraceEvent) :
    parentIn IndexedProject.orgId (index.linkProjectToOrg projectId orgId event).projects
      projectId.text = some orgId.text := by
  refine (parentIn_upsert_set orgId.text ?_ projectId.text).trans (if_pos rfl)
  exact fun _ => rfl

theorem linkMissionToProject_points (missionId : MissionId) (projectId : ProjectId)
    (event : TraceEvent) :
    parentIn IndexedMission.projectId (index.linkMissionToProject missionId projectId event).missions
      missionId.text = some projectId.text := by
  refine (parentIn_upsert_set projectId.text ?_ missionId.text).trans (if_pos rfl)
  exact fun _ => rfl

theorem HierarchyTracks.modifyOrg (tracks : index.HierarchyTracks missionLinks projectLinks)
    (orgId : OrgId) {edit : IndexedOrg → IndexedOrg}
    (keeps : ∀ org, (edit org).projectIds = org.projectIds) :
    HierarchyTracks { index with orgs := index.orgs.modify orgId.text edit }
      missionLinks projectLinks where
  missions := tracks.missions
  projects := tracks.projects.congr (points_modify_keep keeps) fun _ => rfl

/-- Org events change what an org is called and nothing else of the hierarchy. -/
theorem HierarchyTracks.describeOrg (tracks : index.HierarchyTracks missionLinks projectLinks)
    (orgId : OrgId) (event : TraceEvent) {edit : IndexedOrg → IndexedOrg}
    (keeps : ∀ org, (edit org).projectIds = org.projectIds) :
    HierarchyTracks { index with orgs := upsert index.orgs orgId.text (newOrg orgId event) edit }
      missionLinks projectLinks where
  missions := tracks.missions
  projects := by
    refine tracks.projects.congr (points_upsert_keep ?_ keeps) fun _ => rfl
    simp [newOrg, IndexedOrg.blank]

theorem HierarchyTracks.describeProject (tracks : index.HierarchyTracks missionLinks projectLinks)
    (projectId : ProjectId) (event : TraceEvent) {edit : IndexedProject → IndexedProject}
    (keeps : ∀ project, (edit project).missionIds = project.missionIds)
    (pointers : ∀ child, parentIn IndexedProject.orgId
      (upsert index.projects projectId.text (newProject projectId event) edit) child =
        parentIn IndexedProject.orgId index.projects child) :
    HierarchyTracks
      { index with projects := upsert index.projects projectId.text (newProject projectId event) edit }
      missionLinks projectLinks where
  missions := by
    refine tracks.missions.congr (points_upsert_keep ?_ keeps) fun _ => rfl
    simp [newProject, IndexedProject.blank]
  projects := tracks.projects.congr (fun _ _ => Iff.rfl) pointers

theorem HierarchyTracks.describeMission (tracks : index.HierarchyTracks missionLinks projectLinks)
    (missionId : MissionId) (event : TraceEvent) {edit : IndexedMission → IndexedMission}
    (pointers : ∀ child, parentIn IndexedMission.projectId
      (upsert index.missions missionId.text (newMission missionId event) edit) child =
        parentIn IndexedMission.projectId index.missions child) :
    HierarchyTracks
      { index with missions := upsert index.missions missionId.text (newMission missionId event) edit }
      missionLinks projectLinks where
  missions := tracks.missions.congr (fun _ _ => Iff.rfl) pointers
  projects := tracks.projects

/-! ## One lemma for each event type that makes a link -/

theorem HierarchyTracks.applyOrgCreated (tracks : index.HierarchyTracks missionLinks projectLinks)
    (applied : index.applyOrgCreated event = .ok next) :
    next.HierarchyTracks missionLinks projectLinks := by
  unfold TraceIndex.applyOrgCreated at applied
  cases named : event.orgId with
  | none =>
      simp only [named] at applied
      cases applied
      exact tracks
  | some orgId =>
      simp only [named] at applied
      obtain ⟨payload, _, applied⟩ := Fallible.bind_eq_ok_iff.mp applied
      cases applied
      exact tracks.describeOrg orgId event fun _ => by rfl

theorem HierarchyTracks.applyOrgUpdated (tracks : index.HierarchyTracks missionLinks projectLinks)
    (applied : index.applyOrgUpdated event = .ok next) :
    next.HierarchyTracks missionLinks projectLinks := by
  unfold TraceIndex.applyOrgUpdated at applied
  cases named : event.orgId with
  | none =>
      simp only [named] at applied
      cases applied
      exact tracks
  | some orgId =>
      simp only [named] at applied
      obtain ⟨payload, _, applied⟩ := Fallible.bind_eq_ok_iff.mp applied
      cases applied
      exact tracks.describeOrg orgId event fun _ => by rfl

theorem readPayload_eq_ok_iff {A : Type} {decode : Json → Option A} {payload : A} :
    readPayload decode event = .ok payload ↔ decode event.payload = some payload := by
  unfold readPayload
  cases decode event.payload with
  | none => simp
  | some decoded => simp

theorem HierarchyTracks.applyProjectCreated
    (tracks : index.HierarchyTracks missionLinks projectLinks)
    (type : event.eventType = .projectCreated)
    (applied : index.applyProjectCreated event = .ok next) :
    next.HierarchyTracks missionLinks (projectLinks ++ (linkedProject event).toList) := by
  unfold TraceIndex.applyProjectCreated at applied
  unfold linkedProject
  rw [type]
  cases named : event.projectId with
  | none =>
      simp only [named] at applied
      cases applied
      simpa using tracks
  | some projectId =>
      simp only [named] at applied
      obtain ⟨payload, read, applied⟩ := Fallible.bind_eq_ok_iff.mp applied
      cases applied
      simp only [readPayload_eq_ok_iff.mp read, Option.map_some, Option.toList_some]
      apply HierarchyTracks.modifyOrg
      · apply tracks.linkDescribedProject projectId payload.orgId event
        · exact fun _ => by rfl
        · exact fun _ => by rfl
      · exact fun _ => by rfl

theorem HierarchyTracks.applyProjectUpdated
    (tracks : index.HierarchyTracks missionLinks projectLinks)
    (type : event.eventType = .projectUpdated)
    (applied : index.applyProjectUpdated event = .ok next) :
    next.HierarchyTracks missionLinks (projectLinks ++ (linkedProject event).toList) := by
  unfold TraceIndex.applyProjectUpdated at applied
  unfold linkedProject
  rw [type]
  cases named : event.projectId with
  | none =>
      simp only [named] at applied
      cases applied
      simpa using tracks
  | some projectId =>
      simp only [named] at applied
      obtain ⟨payload, read, applied⟩ := Fallible.bind_eq_ok_iff.mp applied
      cases applied
      simp only [readPayload_eq_ok_iff.mp read, Option.bind_some]
      cases payload.orgId with
      | none =>
          simp only [Option.map_none, Option.toList_none, List.append_nil]
          refine tracks.describeProject projectId event (fun _ => by rfl) ?_
          exact parentIn_upsert_keep rfl fun _ => by rfl
      | some orgId =>
          have linked := tracks.linkProjectToOrg projectId orgId event
          refine linked.describeProject projectId event (fun _ => by rfl) ?_
          apply parentIn_upsert_same
          · exact fun _ => by rfl
          · exact linkProjectToOrg_points ..

theorem HierarchyTracks.applyMissionCreated
    (tracks : index.HierarchyTracks missionLinks projectLinks)
    (type : event.eventType = .missionCreated)
    (applied : index.applyMissionCreated event = .ok next) :
    next.HierarchyTracks (missionLinks ++ (linkedMission event).toList) projectLinks := by
  unfold TraceIndex.applyMissionCreated at applied
  unfold linkedMission
  rw [type]
  cases named : event.missionId with
  | none =>
      simp only [named] at applied
      cases applied
      simpa using tracks
  | some missionId =>
      simp only [named] at applied
      obtain ⟨payload, read, applied⟩ := Fallible.bind_eq_ok_iff.mp applied
      cases applied
      simp only [readPayload_eq_ok_iff.mp read, Option.map_some]
      have linked := tracks.linkMissionToProject missionId payload.projectId event
      refine linked.describeMission missionId event ?_
      apply parentIn_upsert_same
      · exact fun _ => by rfl
      · exact linkMissionToProject_points ..

theorem HierarchyTracks.applyMissionUpdated
    (tracks : index.HierarchyTracks missionLinks projectLinks)
    (type : event.eventType = .missionUpdated)
    (applied : index.applyMissionUpdated event = .ok next) :
    next.HierarchyTracks (missionLinks ++ (linkedMission event).toList) projectLinks := by
  unfold TraceIndex.applyMissionUpdated at applied
  unfold linkedMission
  rw [type]
  cases named : event.missionId with
  | none =>
      simp only [named] at applied
      cases applied
      simpa using tracks
  | some missionId =>
      simp only [named] at applied
      obtain ⟨payload, read, applied⟩ := Fallible.bind_eq_ok_iff.mp applied
      cases applied
      simp only [readPayload_eq_ok_iff.mp read, Option.bind_some]
      cases payload.projectId with
      | none =>
          simp only [Option.map_none, Option.toList_none, List.append_nil]
          refine tracks.describeMission missionId event ?_
          exact parentIn_upsert_keep rfl fun _ => by rfl
      | some projectId =>
          have linked := tracks.linkMissionToProject missionId projectId event
          refine linked.describeMission missionId event ?_
          apply parentIn_upsert_same
          · exact fun _ => by rfl
          · exact linkMissionToProject_points ..

/-! ## Every event -/

theorem linkedMission_of_ne (created : event.eventType ≠ .missionCreated)
    (updated : event.eventType ≠ .missionUpdated) : linkedMission event = none := by
  unfold linkedMission
  split
  · contradiction
  · contradiction
  · rfl

theorem linkedProject_of_ne (created : event.eventType ≠ .projectCreated)
    (updated : event.eventType ≠ .projectUpdated) : linkedProject event = none := by
  unfold linkedProject
  split
  · contradiction
  · contradiction
  · rfl

/-- An event of another type makes no link. -/
theorem HierarchyTracks.without_links (tracks : index.HierarchyTracks missionLinks projectLinks)
    (noMission : event.eventType ≠ .missionCreated ∧ event.eventType ≠ .missionUpdated)
    (noProject : event.eventType ≠ .projectCreated ∧ event.eventType ≠ .projectUpdated) :
    index.HierarchyTracks (missionLinks ++ (linkedMission event).toList)
      (projectLinks ++ (linkedProject event).toList) := by
  rw [linkedMission_of_ne noMission.1 noMission.2, linkedProject_of_ne noProject.1 noProject.2]
  simpa using tracks

theorem HierarchyTracks.applyEvent {mode : OverflowMode}
    (tracks : index.HierarchyTracks missionLinks projectLinks)
    (applied : index.applyEvent mode event = .ok next) :
    next.HierarchyTracks (missionLinks ++ (linkedMission event).toList)
      (projectLinks ++ (linkedProject event).toList) := by
  unfold TraceIndex.applyEvent at applied
  cases type : event.eventType with
  | projectCreated =>
      rw [linkedMission_of_ne (by simp [type]) (by simp [type]), Option.toList_none, List.append_nil]
      exact tracks.applyProjectCreated type (by simpa only [type] using applied)
  | projectUpdated =>
      rw [linkedMission_of_ne (by simp [type]) (by simp [type]), Option.toList_none, List.append_nil]
      exact tracks.applyProjectUpdated type (by simpa only [type] using applied)
  | missionCreated =>
      rw [linkedProject_of_ne (by simp [type]) (by simp [type]), Option.toList_none, List.append_nil]
      exact tracks.applyMissionCreated type (by simpa only [type] using applied)
  | missionUpdated =>
      rw [linkedProject_of_ne (by simp [type]) (by simp [type]), Option.toList_none, List.append_nil]
      exact tracks.applyMissionUpdated type (by simpa only [type] using applied)
  | orgCreated =>
      simp only [type] at applied
      exact (tracks.applyOrgCreated applied).without_links (by simp [type]) (by simp [type])
  | orgUpdated =>
      simp only [type] at applied
      exact (tracks.applyOrgUpdated applied).without_links (by simp [type]) (by simp [type])
  | sessionStarted =>
      simp only [type] at applied
      exact (tracks.kept (applySessionStarted_kept applied)).without_links (by simp [type]) (by simp [type])
  | sessionLinkedToMission =>
      simp only [type] at applied
      exact (tracks.kept (applySessionLinked_kept applied)).without_links (by simp [type]) (by simp [type])
  | sessionLogUploaded =>
      simp only [type] at applied
      exact (tracks.kept (applySessionLogUploaded_kept applied)).without_links (by simp [type]) (by simp [type])
  | artifactCreated =>
      simp only [type] at applied
      exact (tracks.kept (applyArtifactCreated_kept applied)).without_links (by simp [type]) (by simp [type])
  | artifactUpdated =>
      simp only [type] at applied
      exact (tracks.kept (applyArtifactUpdated_kept applied)).without_links (by simp [type]) (by simp [type])
  | artifactLinkedToMission =>
      simp only [type] at applied
      exact (tracks.kept (applyArtifactLinked_kept applied)).without_links (by simp [type]) (by simp [type])
  | artifactFileRefRecorded =>
      simp only [type] at applied
      exact (tracks.kept (applyArtifactFileRef_kept applied)).without_links (by simp [type]) (by simp [type])
  | artifactAttachmentUploaded =>
      simp only [type] at applied
      exact (tracks.kept (applyArtifactAttachmentUploaded_kept applied)).without_links (by simp [type]) (by simp [type])
  | diffCaptured =>
      simp only [type] at applied
      exact (tracks.kept (applyDiffCaptured_kept applied)).without_links (by simp [type]) (by simp [type])
  | repoContextCaptured =>
      simp only [type] at applied
      exact (tracks.kept (applyRepoContextCaptured_kept applied)).without_links (by simp [type]) (by simp [type])
  | artifactReviewed =>
      simp only [type] at applied
      cases applied
      exact tracks.without_links (by simp [type]) (by simp [type])
  | artifactAccepted =>
      simp only [type] at applied
      cases applied
      exact tracks.without_links (by simp [type]) (by simp [type])
  | externalRefLinked =>
      simp only [type] at applied
      cases applied
      exact tracks.without_links (by simp [type]) (by simp [type])
  | sourceSessionObserved =>
      simp only [type] at applied
      cases applied
      exact tracks.without_links (by simp [type]) (by simp [type])

theorem HierarchyTracks.applyEvents {mode : OverflowMode} {events : List TraceEvent}
    (tracks : index.HierarchyTracks missionLinks projectLinks)
    (applied : events.foldlM (TraceIndex.applyEvent mode) index = .ok next) :
    next.HierarchyTracks (missionLinks ++ events.filterMap linkedMission)
      (projectLinks ++ events.filterMap linkedProject) := by
  induction events generalizing index missionLinks projectLinks with
  | nil =>
      cases applied
      simpa using tracks
  | cons event rest ih =>
      rw [List.foldlM_cons] at applied
      obtain ⟨middle, stepped, applied⟩ := Fallible.bind_eq_ok_iff.mp applied
      have later := ih (tracks.applyEvent stepped) applied
      have split : ∀ link : TraceEvent → Option (String × String),
          (event :: rest).filterMap link = (link event).toList ++ rest.filterMap link := by
        intro link
        cases found : link event with
        | none => simp [found]
        | some pair => simp [found]
      rwa [split, split, ← List.append_assoc, ← List.append_assoc]

theorem build_hierarchyTracks {mode : OverflowMode} {now : DateTime} {events : List TraceEvent}
    (built : TraceIndex.build mode now events = .ok index) :
    index.HierarchyTracks (events.filterMap linkedMission) (events.filterMap linkedProject) := by
  have start : (TraceIndex.empty now events.length).HierarchyTracks [] [] :=
    ⟨tracks_empty, tracks_empty⟩
  simpa using start.applyEvents built

/-- The pointers and the sets of both levels tell the same. -/
structure HierarchyAgrees (index : TraceIndex) : Prop where
  missions : ∀ projectId missionId : String,
    (∃ project, index.projects[projectId]? = some project ∧ missionId ∈ project.missionIds) ↔
      ∃ mission, index.missions[missionId]? = some mission ∧ mission.projectId = some projectId
  projects : ∀ orgId projectId : String,
    (∃ org, index.orgs[orgId]? = some org ∧ projectId ∈ org.projectIds) ↔
      ∃ project, index.projects[projectId]? = some project ∧ project.orgId = some orgId

/-- The hierarchy agrees exactly when no event moves a mission or a project. -/
theorem build_hierarchy_agrees_iff {mode : OverflowMode} {now : DateTime}
    {events : List TraceEvent} {index : TraceIndex}
    (built : TraceIndex.build mode now events = .ok index) :
    index.HierarchyAgrees ↔
      OneParentEach (events.filterMap linkedMission) ∧
        OneParentEach (events.filterMap linkedProject) := by
  have tracks := build_hierarchyTracks built
  rw [← tracks.missions.agree_iff, ← tracks.projects.agree_iff]
  simp only [parentIn, Option.bind_eq_some_iff]
  constructor
  · intro agrees
    exact ⟨agrees.missions, agrees.projects⟩
  · rintro ⟨missions, projects⟩
    exact ⟨missions, projects⟩

/-! ## A mission that is moved -/

/-- An event of one mission that names a project. -/
def eventOfMissionIn (number : Nat) (eventType : EventType) (project : String) : TraceEvent where
  eventId := ⟨Fin.ofNat _ number⟩
  eventType := eventType
  schemaVersion := 1
  payloadSchemaVersion := 1
  occurredAt := ⟨0⟩
  recordedAt := ⟨0⟩
  actor := ⟨.agent, "agent-1", none⟩
  repoId := none
  orgId := none
  projectId := none
  missionId := some ⟨"mission_1"⟩
  sessionId := none
  artifactId := none
  repoContextId := none
  confidence := .explicit
  payload := .object [("project_id", .string project), ("title", .string "Harden refresh"),
    ("status", .string "active")]

def movedMission : List TraceEvent :=
  [eventOfMissionIn 1 .missionCreated "project_1", eventOfMissionIn 2 .missionUpdated "project_2"]

theorem build_of_unmoved_mission_agrees :
    ∃ index, TraceIndex.build .checked ⟨0⟩ [eventOfMissionIn 1 .missionCreated "project_1"] =
        .ok index ∧
      (index.HierarchyAgrees ↔
        OneParentEach ([eventOfMissionIn 1 .missionCreated "project_1"].filterMap linkedMission) ∧
          OneParentEach
            ([eventOfMissionIn 1 .missionCreated "project_1"].filterMap linkedProject)) := by
  have builds : ∃ index, TraceIndex.build .checked ⟨0⟩
      [eventOfMissionIn 1 .missionCreated "project_1"] = .ok index := ⟨_, rfl⟩
  obtain ⟨index, built⟩ := builds
  exact ⟨index, built, build_hierarchy_agrees_iff built⟩

/-- The project that the mission has left still names it. -/
theorem build_of_moved_mission_disagrees :
    ¬ ∀ (mode : OverflowMode) (now : DateTime) (events : List TraceEvent) (index : TraceIndex),
      TraceIndex.build mode now events = .ok index → index.HierarchyAgrees := by
  intro claim
  have builds : ∃ index, TraceIndex.build .checked ⟨0⟩ movedMission = .ok index := ⟨_, rfl⟩
  obtain ⟨index, built⟩ := builds
  have tracks := build_hierarchyTracks built
  have listed := (tracks.missions.listed "project_1" "mission_1").mpr (by decide +kernel)
  have pointed := tracks.missions.pointed "mission_1"
  have last : LastWrite.lastWrite (parentWrite "mission_1") (movedMission.filterMap linkedMission) =
      some "project_2" := by decide +kernel
  have agrees := claim .checked ⟨0⟩ movedMission index built
  obtain ⟨mission, held, points⟩ := (agrees.missions "project_1" "mission_1").mp listed
  simp [parentIn, held, points, last] at pointed

end TraceIndex

end BrickTrace
