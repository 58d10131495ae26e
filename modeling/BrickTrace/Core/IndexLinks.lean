import BrickTrace.Lib.Fallible
import BrickTrace.Lib.Links
import BrickTrace.Core.Index

/-!
# Links of the index

Missions, sessions and artifacts name each other in sets of ids.  Every
projection keeps both ends of each link, whether or not the event that creates
the other entity has been seen.
-/

set_option autoImplicit false

namespace BrickTrace

open OrderedMap

/-- The three many-to-many relations, each kept at both ends. -/
structure EntityLinks (missions : Map String IndexedMission) (sessions : Map String IndexedSession)
    (artifacts : Map String IndexedArtifact) : Prop where
  missionSessions : Mirrored IndexedMission.sessionIds IndexedSession.missionIds missions sessions
  missionArtifacts :
    Mirrored IndexedMission.artifactIds IndexedArtifact.missionIds missions artifacts
  sessionArtifacts :
    Mirrored IndexedSession.artifactIds IndexedArtifact.sessionIds sessions artifacts

def TraceIndex.LinksMirrored (index : TraceIndex) : Prop :=
  EntityLinks index.missions index.sessions index.artifacts

/-! ## Edits that change no link -/

section Edits
variable {missions : Map String IndexedMission} {sessions : Map String IndexedSession}
  {artifacts : Map String IndexedArtifact} {key : String}

theorem EntityLinks.upsertMissions (links : EntityLinks missions sessions artifacts)
    {fresh : IndexedMission} {edit : IndexedMission → IndexedMission}
    (blankSessions : fresh.sessionIds = ∅) (blankArtifacts : fresh.artifactIds = ∅)
    (keepsSessions : ∀ mission, (edit mission).sessionIds = mission.sessionIds)
    (keepsArtifacts : ∀ mission, (edit mission).artifactIds = mission.artifactIds) :
    EntityLinks (upsert missions key fresh edit) sessions artifacts where
  missionSessions := by
    refine links.missionSessions.congr (points_upsert_keep ?_ keepsSessions) fun _ _ => Iff.rfl
    simp [blankSessions]
  missionArtifacts := by
    refine links.missionArtifacts.congr (points_upsert_keep ?_ keepsArtifacts) fun _ _ => Iff.rfl
    simp [blankArtifacts]
  sessionArtifacts := links.sessionArtifacts

theorem EntityLinks.upsertSessions (links : EntityLinks missions sessions artifacts)
    {fresh : IndexedSession} {edit : IndexedSession → IndexedSession}
    (blankMissions : fresh.missionIds = ∅) (blankArtifacts : fresh.artifactIds = ∅)
    (keepsMissions : ∀ session, (edit session).missionIds = session.missionIds)
    (keepsArtifacts : ∀ session, (edit session).artifactIds = session.artifactIds) :
    EntityLinks missions (upsert sessions key fresh edit) artifacts where
  missionSessions := by
    refine links.missionSessions.congr (fun _ _ => Iff.rfl) (points_upsert_keep ?_ keepsMissions)
    simp [blankMissions]
  missionArtifacts := links.missionArtifacts
  sessionArtifacts := by
    refine links.sessionArtifacts.congr (points_upsert_keep ?_ keepsArtifacts) fun _ _ => Iff.rfl
    simp [blankArtifacts]

theorem EntityLinks.upsertArtifacts (links : EntityLinks missions sessions artifacts)
    {fresh : IndexedArtifact} {edit : IndexedArtifact → IndexedArtifact}
    (blankMissions : fresh.missionIds = ∅) (blankSessions : fresh.sessionIds = ∅)
    (keepsMissions : ∀ artifact, (edit artifact).missionIds = artifact.missionIds)
    (keepsSessions : ∀ artifact, (edit artifact).sessionIds = artifact.sessionIds) :
    EntityLinks missions sessions (upsert artifacts key fresh edit) where
  missionSessions := links.missionSessions
  missionArtifacts := by
    refine links.missionArtifacts.congr (fun _ _ => Iff.rfl) (points_upsert_keep ?_ keepsMissions)
    simp [blankMissions]
  sessionArtifacts := by
    refine links.sessionArtifacts.congr (fun _ _ => Iff.rfl) (points_upsert_keep ?_ keepsSessions)
    simp [blankSessions]

theorem EntityLinks.modifyMissions (links : EntityLinks missions sessions artifacts)
    {edit : IndexedMission → IndexedMission}
    (keepsSessions : ∀ mission, (edit mission).sessionIds = mission.sessionIds)
    (keepsArtifacts : ∀ mission, (edit mission).artifactIds = mission.artifactIds) :
    EntityLinks (missions.modify key edit) sessions artifacts where
  missionSessions :=
    links.missionSessions.congr (points_modify_keep keepsSessions) fun _ _ => Iff.rfl
  missionArtifacts :=
    links.missionArtifacts.congr (points_modify_keep keepsArtifacts) fun _ _ => Iff.rfl
  sessionArtifacts := links.sessionArtifacts

theorem EntityLinks.modifySessions (links : EntityLinks missions sessions artifacts)
    {edit : IndexedSession → IndexedSession}
    (keepsMissions : ∀ session, (edit session).missionIds = session.missionIds)
    (keepsArtifacts : ∀ session, (edit session).artifactIds = session.artifactIds) :
    EntityLinks missions (sessions.modify key edit) artifacts where
  missionSessions :=
    links.missionSessions.congr (fun _ _ => Iff.rfl) (points_modify_keep keepsMissions)
  missionArtifacts := links.missionArtifacts
  sessionArtifacts :=
    links.sessionArtifacts.congr (points_modify_keep keepsArtifacts) fun _ _ => Iff.rfl

theorem EntityLinks.modifyArtifacts (links : EntityLinks missions sessions artifacts)
    {edit : IndexedArtifact → IndexedArtifact}
    (keepsMissions : ∀ artifact, (edit artifact).missionIds = artifact.missionIds)
    (keepsSessions : ∀ artifact, (edit artifact).sessionIds = artifact.sessionIds) :
    EntityLinks missions sessions (artifacts.modify key edit) where
  missionSessions := links.missionSessions
  missionArtifacts :=
    links.missionArtifacts.congr (fun _ _ => Iff.rfl) (points_modify_keep keepsMissions)
  sessionArtifacts :=
    links.sessionArtifacts.congr (fun _ _ => Iff.rfl) (points_modify_keep keepsSessions)

end Edits

namespace TraceIndex

/-! ## Links are made at both ends -/

section Links
variable {index : TraceIndex}

theorem LinksMirrored.describeMission (links : index.LinksMirrored) (missionId : MissionId)
    (event : TraceEvent) {edit : IndexedMission → IndexedMission}
    (keepsSessions : ∀ mission, (edit mission).sessionIds = mission.sessionIds)
    (keepsArtifacts : ∀ mission, (edit mission).artifactIds = mission.artifactIds) :
    LinksMirrored { index with
      missions := upsert index.missions missionId.text (newMission missionId event) edit } :=
  EntityLinks.upsertMissions links rfl rfl keepsSessions keepsArtifacts

theorem LinksMirrored.describeSession (links : index.LinksMirrored) (sessionId : SessionId)
    (event : TraceEvent) {edit : IndexedSession → IndexedSession}
    (keepsMissions : ∀ session, (edit session).missionIds = session.missionIds)
    (keepsArtifacts : ∀ session, (edit session).artifactIds = session.artifactIds) :
    LinksMirrored { index with
      sessions := upsert index.sessions sessionId.text (newSession sessionId event) edit } :=
  EntityLinks.upsertSessions links rfl rfl keepsMissions keepsArtifacts

theorem LinksMirrored.describeArtifact (links : index.LinksMirrored) (artifactId : ArtifactId)
    (event : TraceEvent) {edit : IndexedArtifact → IndexedArtifact}
    (keepsMissions : ∀ artifact, (edit artifact).missionIds = artifact.missionIds)
    (keepsSessions : ∀ artifact, (edit artifact).sessionIds = artifact.sessionIds) :
    LinksMirrored { index with
      artifacts := upsert index.artifacts artifactId.text (newArtifact artifactId event) edit } :=
  EntityLinks.upsertArtifacts links rfl rfl keepsMissions keepsSessions

theorem LinksMirrored.linkMissionToProject (links : index.LinksMirrored) (missionId : MissionId)
    (projectId : ProjectId) (event : TraceEvent) :
    (index.linkMissionToProject missionId projectId event).LinksMirrored := by
  unfold TraceIndex.linkMissionToProject LinksMirrored
  dsimp only
  apply EntityLinks.upsertMissions links
  · rfl
  · rfl
  · exact fun _ => rfl
  · exact fun _ => rfl

theorem LinksMirrored.linkSessionToMission (links : index.LinksMirrored) (sessionId : SessionId)
    (missionId : MissionId) (event : TraceEvent) :
    (index.linkSessionToMission sessionId missionId event).LinksMirrored where
  missionSessions := by
    apply links.missionSessions.link missionId.text sessionId.text
    · apply points_upsert_add
      · simp [newMission, IndexedMission.blank]
      · simp
    · apply points_upsert_add
      · simp [newSession, IndexedSession.blank]
      · simp
  missionArtifacts := by
    refine links.missionArtifacts.congr (points_upsert_keep ?_ fun _ => rfl) fun _ _ => Iff.rfl
    simp [newMission, IndexedMission.blank]
  sessionArtifacts := by
    refine links.sessionArtifacts.congr (points_upsert_keep ?_ fun _ => rfl) fun _ _ => Iff.rfl
    simp [newSession, IndexedSession.blank]

theorem LinksMirrored.linkArtifactToMission (links : index.LinksMirrored)
    (artifactId : ArtifactId) (missionId : MissionId) (event : TraceEvent) :
    (index.linkArtifactToMission artifactId missionId event).LinksMirrored where
  missionSessions := by
    refine links.missionSessions.congr (points_upsert_keep ?_ fun _ => rfl) fun _ _ => Iff.rfl
    simp [newMission, IndexedMission.blank]
  missionArtifacts := by
    apply links.missionArtifacts.link missionId.text artifactId.text
    · apply points_upsert_add
      · simp [newMission, IndexedMission.blank]
      · simp
    · apply points_upsert_add
      · simp [newArtifact, IndexedArtifact.blank]
      · simp
  sessionArtifacts := by
    refine links.sessionArtifacts.congr (fun _ _ => Iff.rfl) (points_upsert_keep ?_ fun _ => rfl)
    simp [newArtifact, IndexedArtifact.blank]

theorem LinksMirrored.linkArtifactToSession (links : index.LinksMirrored)
    (artifactId : ArtifactId) (sessionId : SessionId) (event : TraceEvent) :
    (index.linkArtifactToSession artifactId sessionId event).LinksMirrored where
  missionSessions := by
    refine links.missionSessions.congr (fun _ _ => Iff.rfl) (points_upsert_keep ?_ fun _ => rfl)
    simp [newSession, IndexedSession.blank]
  missionArtifacts := by
    refine links.missionArtifacts.congr (fun _ _ => Iff.rfl) (points_upsert_keep ?_ fun _ => rfl)
    simp [newArtifact, IndexedArtifact.blank]
  sessionArtifacts := by
    apply links.sessionArtifacts.link sessionId.text artifactId.text
    · apply points_upsert_add
      · simp [newSession, IndexedSession.blank]
      · simp
    · apply points_upsert_add
      · simp [newArtifact, IndexedArtifact.blank]
      · simp

theorem LinksMirrored.linkSessionIfNamed (links : index.LinksMirrored) (artifactId : ArtifactId)
    (event : TraceEvent) : (index.linkSessionIfNamed artifactId event).LinksMirrored := by
  unfold TraceIndex.linkSessionIfNamed
  cases event.sessionId with
  | none => exact links
  | some sessionId => exact links.linkArtifactToSession artifactId sessionId event

theorem LinksMirrored.linkMissionIfNamed (links : index.LinksMirrored) (artifactId : ArtifactId)
    (event : TraceEvent) : (index.linkMissionIfNamed artifactId event).LinksMirrored := by
  unfold TraceIndex.linkMissionIfNamed
  cases event.missionId with
  | none => exact links
  | some missionId => exact links.linkArtifactToMission artifactId missionId event

end Links

/-! ## Every projection keeps both ends -/

section Events
variable {mode : OverflowMode} {index next : TraceIndex} {event : TraceEvent}

theorem LinksMirrored.applyOrgCreated (links : index.LinksMirrored)
    (applied : index.applyOrgCreated event = .ok next) : next.LinksMirrored := by
  unfold TraceIndex.applyOrgCreated at applied
  cases named : event.orgId with
  | none =>
      simp only [named] at applied
      cases applied
      exact links
  | some orgId =>
      simp only [named] at applied
      obtain ⟨payload, _, applied⟩ := Fallible.bind_eq_ok_iff.mp applied
      cases applied
      exact links


theorem LinksMirrored.applyOrgUpdated (links : index.LinksMirrored)
    (applied : index.applyOrgUpdated event = .ok next) : next.LinksMirrored := by
  unfold TraceIndex.applyOrgUpdated at applied
  cases named : event.orgId with
  | none =>
      simp only [named] at applied
      cases applied
      exact links
  | some orgId =>
      simp only [named] at applied
      obtain ⟨payload, _, applied⟩ := Fallible.bind_eq_ok_iff.mp applied
      cases applied
      exact links


theorem LinksMirrored.applyProjectCreated (links : index.LinksMirrored)
    (applied : index.applyProjectCreated event = .ok next) : next.LinksMirrored := by
  unfold TraceIndex.applyProjectCreated at applied
  cases named : event.projectId with
  | none =>
      simp only [named] at applied
      cases applied
      exact links
  | some projectId =>
      simp only [named] at applied
      obtain ⟨payload, _, applied⟩ := Fallible.bind_eq_ok_iff.mp applied
      cases applied
      exact links


theorem LinksMirrored.applyProjectUpdated (links : index.LinksMirrored)
    (applied : index.applyProjectUpdated event = .ok next) : next.LinksMirrored := by
  unfold TraceIndex.applyProjectUpdated at applied
  cases named : event.projectId with
  | none =>
      simp only [named] at applied
      cases applied
      exact links
  | some projectId =>
      simp only [named] at applied
      obtain ⟨payload, _, applied⟩ := Fallible.bind_eq_ok_iff.mp applied
      cases applied
      cases payload.orgId with
      | none => exact links
      | some orgId => exact links


theorem LinksMirrored.applyMissionCreated (links : index.LinksMirrored)
    (applied : index.applyMissionCreated event = .ok next) : next.LinksMirrored := by
  unfold TraceIndex.applyMissionCreated at applied
  cases named : event.missionId with
  | none =>
      simp only [named] at applied
      cases applied
      exact links
  | some missionId =>
      simp only [named] at applied
      obtain ⟨payload, _, applied⟩ := Fallible.bind_eq_ok_iff.mp applied
      cases applied
      have linked := links.linkMissionToProject missionId payload.projectId event
      exact linked.describeMission missionId event (fun _ => by rfl) fun _ => by rfl


theorem LinksMirrored.applyMissionUpdated (links : index.LinksMirrored)
    (applied : index.applyMissionUpdated event = .ok next) : next.LinksMirrored := by
  unfold TraceIndex.applyMissionUpdated at applied
  cases named : event.missionId with
  | none =>
      simp only [named] at applied
      cases applied
      exact links
  | some missionId =>
      simp only [named] at applied
      obtain ⟨payload, _, applied⟩ := Fallible.bind_eq_ok_iff.mp applied
      cases applied
      cases payload.projectId with
      | none => exact links.describeMission missionId event (fun _ => by rfl) fun _ => by rfl
      | some projectId =>
          have linked := links.linkMissionToProject missionId projectId event
          exact linked.describeMission missionId event (fun _ => by rfl) fun _ => by rfl


theorem LinksMirrored.applySessionStarted (links : index.LinksMirrored)
    (applied : index.applySessionStarted event = .ok next) : next.LinksMirrored := by
  unfold TraceIndex.applySessionStarted at applied
  cases named : event.sessionId with
  | none =>
      simp only [named] at applied
      cases applied
      exact links
  | some sessionId =>
      simp only [named] at applied
      obtain ⟨payload, _, applied⟩ := Fallible.bind_eq_ok_iff.mp applied
      cases applied
      cases event.missionId with
      | none => exact links.describeSession sessionId event (fun _ => by rfl) fun _ => by rfl
      | some missionId =>
          apply LinksMirrored.linkSessionToMission
          exact links.describeSession sessionId event (fun _ => by rfl) fun _ => by rfl

theorem LinksMirrored.applySessionLinked (links : index.LinksMirrored)
    (applied : index.applySessionLinked event = .ok next) : next.LinksMirrored := by
  unfold TraceIndex.applySessionLinked at applied
  cases named : event.sessionId with
  | none =>
      simp only [named] at applied
      cases applied
      exact links
  | some sessionId =>
      cases missionNamed : event.missionId with
      | none =>
          simp only [named, missionNamed] at applied
          cases applied
          exact links
      | some missionId =>
          simp only [named, missionNamed] at applied
          obtain ⟨payload, _, applied⟩ := Fallible.bind_eq_ok_iff.mp applied
          cases applied
          have linked := links.linkSessionToMission sessionId missionId event
          unfold LinksMirrored at linked ⊢
          dsimp only
          exact (linked.modifySessions (fun _ => by rfl) fun _ => by rfl).modifyMissions
            (fun _ => by rfl) fun _ => by rfl


theorem LinksMirrored.applySessionLogUploaded (links : index.LinksMirrored)
    (applied : index.applySessionLogUploaded event = .ok next) : next.LinksMirrored := by
  unfold TraceIndex.applySessionLogUploaded at applied
  cases named : event.sessionId with
  | none =>
      simp only [named] at applied
      cases applied
      exact links
  | some sessionId =>
      simp only [named] at applied
      obtain ⟨payload, _, applied⟩ := Fallible.bind_eq_ok_iff.mp applied
      cases applied
      exact links.describeSession sessionId event (fun _ => by rfl) fun _ => by rfl


theorem LinksMirrored.applyArtifactCreated (links : index.LinksMirrored)
    (applied : index.applyArtifactCreated event = .ok next) : next.LinksMirrored := by
  unfold TraceIndex.applyArtifactCreated at applied
  cases named : event.artifactId with
  | none =>
      simp only [named] at applied
      cases applied
      exact links
  | some artifactId =>
      simp only [named] at applied
      obtain ⟨payload, _, applied⟩ := Fallible.bind_eq_ok_iff.mp applied
      cases applied
      apply LinksMirrored.linkSessionIfNamed
      apply LinksMirrored.linkMissionIfNamed
      exact links.describeArtifact artifactId event (fun _ => by rfl) fun _ => by rfl


theorem LinksMirrored.applyArtifactUpdated (links : index.LinksMirrored)
    (applied : index.applyArtifactUpdated event = .ok next) : next.LinksMirrored := by
  unfold TraceIndex.applyArtifactUpdated at applied
  cases named : event.artifactId with
  | none =>
      simp only [named] at applied
      cases applied
      exact links
  | some artifactId =>
      simp only [named] at applied
      obtain ⟨payload, _, applied⟩ := Fallible.bind_eq_ok_iff.mp applied
      cases applied
      apply LinksMirrored.linkSessionIfNamed
      exact links.describeArtifact artifactId event (fun _ => by rfl) fun _ => by rfl


theorem LinksMirrored.applyArtifactLinked (links : index.LinksMirrored)
    (applied : index.applyArtifactLinked event = .ok next) : next.LinksMirrored := by
  unfold TraceIndex.applyArtifactLinked at applied
  cases named : event.artifactId with
  | none =>
      simp only [named] at applied
      cases applied
      exact links
  | some artifactId =>
      cases missionNamed : event.missionId with
      | none =>
          simp only [named, missionNamed] at applied
          cases applied
          exact links
      | some missionId =>
          simp only [named, missionNamed] at applied
          obtain ⟨payload, _, applied⟩ := Fallible.bind_eq_ok_iff.mp applied
          cases applied
          have linked := links.linkArtifactToMission artifactId missionId event
          unfold LinksMirrored at linked ⊢
          dsimp only
          exact (linked.modifyArtifacts (fun _ => by rfl) fun _ => by rfl).modifyMissions
            (fun _ => by rfl) fun _ => by rfl


theorem LinksMirrored.applyArtifactFileRef (links : index.LinksMirrored)
    (applied : index.applyArtifactFileRef event = .ok next) : next.LinksMirrored := by
  unfold TraceIndex.applyArtifactFileRef at applied
  cases named : event.artifactId with
  | none =>
      simp only [named] at applied
      cases applied
      exact links
  | some artifactId =>
      simp only [named] at applied
      obtain ⟨payload, _, applied⟩ := Fallible.bind_eq_ok_iff.mp applied
      cases applied
      apply LinksMirrored.linkSessionIfNamed
      unfold LinksMirrored
      dsimp only
      exact EntityLinks.modifyArtifacts links (fun _ => by rfl) fun _ => by rfl


theorem LinksMirrored.applyArtifactAttachmentUploaded (links : index.LinksMirrored)
    (applied : index.applyArtifactAttachmentUploaded event = .ok next) : next.LinksMirrored := by
  unfold TraceIndex.applyArtifactAttachmentUploaded at applied
  cases named : event.artifactId with
  | none =>
      simp only [named] at applied
      cases applied
      exact links
  | some artifactId =>
      simp only [named] at applied
      obtain ⟨payload, _, applied⟩ := Fallible.bind_eq_ok_iff.mp applied
      cases applied
      apply LinksMirrored.linkSessionIfNamed
      exact links.describeArtifact artifactId event (fun _ => by rfl) fun _ => by rfl


theorem LinksMirrored.applyDiffCaptured (links : index.LinksMirrored)
    (applied : index.applyDiffCaptured mode event = .ok next) : next.LinksMirrored := by
  unfold TraceIndex.applyDiffCaptured at applied
  cases named : event.artifactId with
  | none =>
      simp only [named] at applied
      cases applied
      exact links
  | some artifactId =>
      simp only [named] at applied
      obtain ⟨payload, _, applied⟩ := Fallible.bind_eq_ok_iff.mp applied
      obtain ⟨additions, _, applied⟩ := Fallible.bind_eq_ok_iff.mp applied
      obtain ⟨deletions, _, applied⟩ := Fallible.bind_eq_ok_iff.mp applied
      cases applied
      apply LinksMirrored.linkMissionIfNamed
      apply LinksMirrored.linkSessionIfNamed
      exact links.describeArtifact artifactId event (fun _ => by rfl) fun _ => by rfl


theorem LinksMirrored.applyRepoContextCaptured (links : index.LinksMirrored)
    (applied : index.applyRepoContextCaptured event = .ok next) : next.LinksMirrored := by
  unfold TraceIndex.applyRepoContextCaptured at applied
  cases named : event.repoContextId with
  | none =>
      simp only [named] at applied
      cases applied
      exact links
  | some repoContextId =>
      simp only [named] at applied
      obtain ⟨payload, _, applied⟩ := Fallible.bind_eq_ok_iff.mp applied
      cases applied
      exact links


theorem LinksMirrored.applyEvent (links : index.LinksMirrored)
    (applied : index.applyEvent mode event = .ok next) : next.LinksMirrored := by
  unfold TraceIndex.applyEvent at applied
  split at applied
  · exact links.applyOrgCreated applied
  · exact links.applyOrgUpdated applied
  · exact links.applyProjectCreated applied
  · exact links.applyProjectUpdated applied
  · exact links.applyMissionCreated applied
  · exact links.applyMissionUpdated applied
  · exact links.applySessionStarted applied
  · exact links.applySessionLinked applied
  · exact links.applySessionLogUploaded applied
  · exact links.applyArtifactCreated applied
  · exact links.applyArtifactUpdated applied
  · exact links.applyArtifactLinked applied
  · exact links.applyArtifactFileRef applied
  · exact links.applyArtifactAttachmentUploaded applied
  · exact links.applyDiffCaptured applied
  · exact links.applyRepoContextCaptured applied
  · cases applied
    exact links
  · cases applied
    exact links
  · cases applied
    exact links
  · cases applied
    exact links

end Events

/-! ## The links of a built index -/

/-- Every id that a set of links names is a key of the map of its kind. -/
structure LinksTotal (index : TraceIndex) : Prop where
  missions : ∀ (missionId : String) mission, index.missions[missionId]? = some mission →
    (∀ sessionId ∈ mission.sessionIds, sessionId ∈ index.sessions) ∧
      ∀ artifactId ∈ mission.artifactIds, artifactId ∈ index.artifacts
  sessions : ∀ (sessionId : String) session, index.sessions[sessionId]? = some session →
    (∀ missionId ∈ session.missionIds, missionId ∈ index.missions) ∧
      ∀ artifactId ∈ session.artifactIds, artifactId ∈ index.artifacts
  artifacts : ∀ (artifactId : String) artifact, index.artifacts[artifactId]? = some artifact →
    (∀ missionId ∈ artifact.missionIds, missionId ∈ index.missions) ∧
      ∀ sessionId ∈ artifact.sessionIds, sessionId ∈ index.sessions

theorem LinksMirrored.total {index : TraceIndex} (links : index.LinksMirrored) :
    index.LinksTotal where
  missions _ mission held :=
    ⟨fun _ named => links.missionSessions.total ⟨mission, held, named⟩,
      fun _ named => links.missionArtifacts.total ⟨mission, held, named⟩⟩
  sessions _ session held :=
    ⟨fun _ named => links.missionSessions.symm.total ⟨session, held, named⟩,
      fun _ named => links.sessionArtifacts.total ⟨session, held, named⟩⟩
  artifacts _ artifact held :=
    ⟨fun _ named => links.missionArtifacts.symm.total ⟨artifact, held, named⟩,
      fun _ named => links.sessionArtifacts.symm.total ⟨artifact, held, named⟩⟩

theorem build_linksMirrored {mode : OverflowMode} {now : DateTime} {events : List TraceEvent}
    {index : TraceIndex} (built : TraceIndex.build mode now events = .ok index) :
    index.LinksMirrored := by
  have start : (TraceIndex.empty now events.length).LinksMirrored :=
    ⟨mirrored_empty, mirrored_empty, mirrored_empty⟩
  exact Fallible.foldlM_invariant (fun _ _ _ kept applied => kept.applyEvent applied) start built

/-- In every index that builds, the links are symmetric and total. -/
theorem build_links_symmetric_and_total {mode : OverflowMode} {now : DateTime}
    {events : List TraceEvent} {index : TraceIndex}
    (built : TraceIndex.build mode now events = .ok index) :
    ((∀ missionId sessionId : String,
        (∃ mission, index.missions[missionId]? = some mission ∧ sessionId ∈ mission.sessionIds) ↔
          ∃ session, index.sessions[sessionId]? = some session ∧
            missionId ∈ session.missionIds) ∧
      (∀ missionId artifactId : String,
        (∃ mission, index.missions[missionId]? = some mission ∧ artifactId ∈ mission.artifactIds) ↔
          ∃ artifact, index.artifacts[artifactId]? = some artifact ∧
            missionId ∈ artifact.missionIds) ∧
      ∀ sessionId artifactId : String,
        (∃ session, index.sessions[sessionId]? = some session ∧ artifactId ∈ session.artifactIds) ↔
          ∃ artifact, index.artifacts[artifactId]? = some artifact ∧
            sessionId ∈ artifact.sessionIds) ∧
      index.LinksTotal := by
  have links := build_linksMirrored built
  exact ⟨⟨links.missionSessions, links.missionArtifacts, links.sessionArtifacts⟩, links.total⟩

/-- A session linked to a mission that no event has created yet. -/
def linkBeforeCreation : TraceEvent where
  eventId := ⟨1⟩
  eventType := .sessionLinkedToMission
  schemaVersion := 1
  payloadSchemaVersion := 1
  occurredAt := ⟨0⟩
  recordedAt := ⟨0⟩
  actor := ⟨.agent, "agent-1", none⟩
  repoId := none
  orgId := none
  projectId := none
  missionId := some ⟨"mission-1"⟩
  sessionId := some ⟨"session-1"⟩
  artifactId := none
  repoContextId := none
  confidence := .explicit
  payload := .object [("relationship", .string "contributes")]

theorem linkBeforeCreation_symmetric_and_total :
    ∃ index, TraceIndex.build .checked ⟨0⟩ [linkBeforeCreation] = .ok index ∧
      (∀ missionId sessionId : String,
        (∃ mission, index.missions[missionId]? = some mission ∧ sessionId ∈ mission.sessionIds) ↔
          ∃ session, index.sessions[sessionId]? = some session ∧
            missionId ∈ session.missionIds) ∧
      index.LinksTotal := by
  have builds : ∃ index, TraceIndex.build .checked ⟨0⟩ [linkBeforeCreation] = .ok index := ⟨_, rfl⟩
  obtain ⟨index, built⟩ := builds
  have linked := build_links_symmetric_and_total built
  exact ⟨index, built, linked.1.1, linked.2⟩

end TraceIndex

end BrickTrace
