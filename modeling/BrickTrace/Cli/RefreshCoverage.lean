import BrickTrace.Cli.RefreshRuns
import BrickTrace.Core.LocalEventIds

/-!
# Sessions that a refresh makes readable

After a refresh of a repo, the events of the repo should tell of every session that it
scanned, with the fingerprint that is on record.  An event whose id is stored already is
ignored, whatever repo it is stored under, so this holds of the sessions whose event is
new, and of those that the repo tells of already.
-/

set_option autoImplicit false

namespace BrickTrace

/-! ## Coverage -/

/-- An observation of a session as it was with a fingerprint. -/
structure TraceEvent.Observes (event : TraceEvent) (sourceId externalSessionId : String)
    (fingerprint : Option String) : Prop where
  eventType : event.eventType = .sourceSessionObserved
  sourceId : event.textField "source_id" = some sourceId
  externalSessionId : event.textField "external_session_id" = some externalSessionId
  fingerprint : event.textField "source_fingerprint" = fingerprint

/-- The events of a repo tell of a session as it is on record. -/
def Covered (repoId : String) (state : HistoryState) (sourceId externalSessionId : String) : Prop :=
  ∃ record, state.metadataDb.getSourceSession sourceId externalSessionId = some record ∧
    ∃ event ∈ state.eventStore.readEventsForRepo (some repoId),
      event.Observes sourceId externalSessionId record.sourceFingerprint

section Coverage
variable (rfc3339 : DateTime → String) (newV5 : String → Uuid)

/-- After a refresh that succeeds, its repo covers every session that was scanned. -/
def CoversScanned (state : HistoryState) (run : RefreshRun) : Prop :=
  (run.refresh rfc3339 newV5 state).1 = .ok () →
    ∀ reached profile,
      Loops.Reaches (refreshProfile rfc3339 newV5 run.env run.repoId (some sourceIndexRefreshLimit))
        (.start state) (run.scannedProfiles state) reached profile →
      ∀ sessions, scannedSessions run.env reached profile = some sessions → ∀ session ∈ sessions,
        Covered run.repoId (nextHistory rfc3339 newV5 state run) profile.name session.externalSessionId

/-- The id of a session's event is not stored yet, or the repo that is refreshed tells of the
session as it is now. -/
def NewOrObserved : SessionCondition := fun env repoId profile progress session =>
  let upsert := sourceSessionUpsert rfc3339 env profile session
  sourceSessionEventId newV5 upsert ∉ progress.eventStore.storedIds ∨
    ∃ event ∈ progress.eventStore.readEventsForRepo (some repoId),
      event.Observes upsert.sourceId upsert.externalSessionId upsert.sourceFingerprint

end Coverage

theorem TellsOf.observes {event : TraceEvent} {record : SourceSessionUpsert}
    (tells : TellsOf event record) :
    event.Observes record.sourceId record.externalSessionId record.sourceFingerprint :=
  ⟨tells.eventType, tells.sourceId, tells.externalSessionId, tells.fingerprint⟩

/-- What covers a session goes on to cover it while its record stays. -/
theorem Covered.grow {repoId sourceId externalSessionId : String} {state grown : HistoryState}
    (covered : Covered repoId state sourceId externalSessionId)
    (sessions : grown.metadataDb.getSourceSession sourceId externalSessionId =
      state.metadataDb.getSourceSession sourceId externalSessionId)
    (rows : state.eventStore.events.rows ⊆ grown.eventStore.events.rows) :
    Covered repoId grown sourceId externalSessionId := by
  obtain ⟨record, found, event, member, observes⟩ := covered
  refine ⟨record, sessions.trans found, event, ?_, observes⟩
  exact LocalEventStore.mem_readEvents_of_rows_subset rows member

section Refresh
variable {rfc3339 : DateTime → String} {newV5 : String → Uuid} {env : RefreshEnv} {repoId : String}
  {profile : SourceProfile} {progress : ProfileRefresh} {session : NativeSourceSession}

/-! ## One turn -/

theorem rows_subset_refreshSession (rfc3339 : DateTime → String) (newV5 : String → Uuid)
    (env : RefreshEnv) (repoId : String) (profile : SourceProfile) (progress : ProfileRefresh)
    (session : NativeSourceSession) :
    progress.eventStore.events.rows ⊆
      (refreshSession rfc3339 newV5 env repoId profile progress session).2.eventStore.events.rows := by
  rcases refreshSession_eventStore rfc3339 newV5 env repoId profile progress session with
    same | ⟨record, chunks, _, appended⟩
  · rw [same]
    exact List.Subset.refl _
  · exact LocalEventStore.rows_subset_appendEvent appended

/-- The turn of a session covers it. -/
theorem covered_refreshSession
    (met : NewOrObserved rfc3339 newV5 env repoId profile progress session)
    (succeeded : (refreshSession rfc3339 newV5 env repoId profile progress session).1 = .ok ()) :
    Covered repoId (refreshSession rfc3339 newV5 env repoId profile progress session).2.toHistoryState
      profile.name session.externalSessionId := by
  obtain ⟨record, chunks, indexed, found, appended⟩ := refreshSession_of_ok succeeded
  refine ⟨record, found, ?_⟩
  rw [indexed.fingerprint]
  rcases rows_of_append_built appended with ⟨stored, same⟩ | ⟨_, row, grown, ofRepo, tells⟩
  · rw [indexed.eventId] at stored
    obtain ⟨event, member, observes⟩ := met.resolve_left (not_not.mpr stored)
    refine ⟨event, ?_, observes⟩
    apply LocalEventStore.mem_readEvents_of_rows_subset _ member
    exact rows_subset_refreshSession rfc3339 newV5 env repoId profile progress session
  · refine ⟨row.event, ?_, ?_⟩
    · apply LocalEventStore.mem_readEventsForRepo.mpr
      refine ⟨row, ?_, beq_iff_eq.mpr ofRepo, rfl⟩
      rw [grown]
      exact List.mem_append_right _ (List.mem_singleton_self row)
    · have observes := tells.observes
      rw [indexed.sourceId, indexed.externalSessionId, indexed.fingerprint] at observes
      exact observes

/-- The turn of a session leaves the others covered. -/
theorem Covered.refreshSession {sourceId externalSessionId : String}
    (covered : Covered repoId progress.toHistoryState sourceId externalSessionId)
    (met : NewOrObserved rfc3339 newV5 env repoId profile progress session)
    (succeeded : (refreshSession rfc3339 newV5 env repoId profile progress session).1 = .ok ()) :
    Covered repoId (refreshSession rfc3339 newV5 env repoId profile progress session).2.toHistoryState
      sourceId externalSessionId := by
  by_cases same : (sourceId, externalSessionId) = (profile.name, session.externalSessionId)
  · cases same
    exact covered_refreshSession met succeeded
  · exact covered.grow (getSourceSession_refreshSession_of_ne same)
      (rows_subset_refreshSession rfc3339 newV5 env repoId profile progress session)

/-! ## One refresh -/

section Profile
variable {before : RefreshProgress}
  (each : EachSession rfc3339 newV5 (NewOrObserved rfc3339 newV5) env repoId before profile)
  (succeeded : (refreshProfile rfc3339 newV5 env repoId (some sourceIndexRefreshLimit) before
    profile).1 = .ok ())
include each succeeded

theorem covered_refreshProfile {sessions : List NativeSourceSession}
    (scanned : scannedSessions env before profile = some sessions) (member : session ∈ sessions) :
    Covered repoId (refreshProfile rfc3339 newV5 env repoId (some sourceIndexRefreshLimit) before
      profile).2.toHistoryState profile.name session.externalSessionId := by
  rcases refreshProfile_sessions rfc3339 newV5 env repoId before profile with
    unlisted | ⟨listed, found, eventStore, kept, succeeds⟩
  · rw [unlisted] at succeeded
    cases succeeded
  · cases found.symm.trans scanned
    obtain ⟨reached, taken⟩ := Loops.reaches_of_mem member
    have covered : Covered repoId (Loops.forEach (refreshSession rfc3339 newV5 env repoId profile)
        (.start before.toHistoryState) sessions).2.toHistoryState profile.name
        session.externalSessionId := by
      refine Loops.forEach_done (fun _ done (state : ProfileRefresh) =>
        Covered repoId state.toHistoryState profile.name done.externalSessionId) ?_ ?_
        (each sessions scanned) (succeeds succeeded) taken
      · intro state turn met ok
        exact covered_refreshSession met ok
      · intro _ other state turn covered met ok
        exact covered.refreshSession met ok
    apply covered.grow
    · exact getSourceSession_of_sessions kept _ _
    · rw [eventStore]
      exact List.Subset.refl _

theorem Covered.refreshProfile {sourceId externalSessionId : String}
    (covered : Covered repoId before.toHistoryState sourceId externalSessionId) :
    Covered repoId (refreshProfile rfc3339 newV5 env repoId (some sourceIndexRefreshLimit) before
      profile).2.toHistoryState sourceId externalSessionId := by
  rcases refreshProfile_sessions rfc3339 newV5 env repoId before profile with
    unlisted | ⟨listed, found, eventStore, kept, succeeds⟩
  · rw [unlisted] at succeeded
    cases succeeded
  · have later := Loops.forEach_ok
      (fun state : ProfileRefresh => Covered repoId state.toHistoryState sourceId externalSessionId)
      (fun _ _ covered met ok => covered.refreshSession met ok) covered (each listed found)
      (succeeds succeeded)
    apply later.grow
    · exact getSourceSession_of_sessions kept _ _
    · rw [eventStore]
      exact List.Subset.refl _

end Profile

theorem coversScanned_of_each {state : HistoryState} {run : RefreshRun}
    (visits : EachScanned rfc3339 newV5 (NewOrObserved rfc3339 newV5) state run) :
    CoversScanned rfc3339 newV5 state run := by
  intro succeeded reached profile taken sessions scanned session member
  obtain ⟨final, succeeds⟩ := refresh_profiles rfc3339 newV5 run state
  unfold nextHistory
  rw [final]
  refine Loops.forEach_done (fun reached profile (later : RefreshProgress) =>
    ∀ sessions, scannedSessions run.env reached profile = some sessions → ∀ session ∈ sessions,
      Covered run.repoId later.toHistoryState profile.name session.externalSessionId) ?_ ?_ visits
    (succeeds succeeded) taken sessions scanned session member
  · intro before source each ok listed found turn inList
    exact covered_refreshProfile each ok found inList
  · intro _ other before source done each ok listed found turn inList
    exact (done listed found turn inList).refreshProfile each ok

/-- Along every sequence of refreshes, from whatever repos, each one that succeeds covers what
it scanned, as long as the event of every session is new or the repo tells of it already. -/
theorem refreshes_cover_scanned {state : HistoryState} {runs : List RefreshRun}
    (met : Runs.Meets (nextHistory rfc3339 newV5)
      (EachScanned rfc3339 newV5 (NewOrObserved rfc3339 newV5)) state runs) :
    Runs.Meets (nextHistory rfc3339 newV5) (CoversScanned rfc3339 newV5) state runs := by
  apply Runs.meets_mono (nextHistory rfc3339 newV5) _ met
  intro reached run visits
  exact coversScanned_of_each visits

end Refresh

/-! ## A session that two repos scan -/

theorem first_refresh_covers :
    Runs.Meets (nextHistory clockText sessionUuid) (CoversScanned clockText sessionUuid) emptyHistory
      [refreshFrom "repo-a" 60 (sessionIn "/work/a")] := by
  apply refreshes_cover_scanned
  refine ⟨eachScanned_refreshFrom (Or.inl ?_), trivial⟩
  exact fun stored => nomatch stored

def firstRefresh : RefreshRun := refreshFrom "repo-a" 60 (sessionIn "/work/a")

def secondRefresh : RefreshRun := refreshFrom "repo-b" 120 (sessionIn "/work/a")

def afterFirstRefresh : HistoryState := nextHistory clockText sessionUuid emptyHistory firstRefresh

theorem second_repo_does_not_cover :
    ¬ Runs.Meets (nextHistory clockText sessionUuid) (CoversScanned clockText sessionUuid) emptyHistory
      [firstRefresh, secondRefresh] := by
  intro meets
  have covers : CoversScanned clockText sessionUuid afterFirstRefresh secondRefresh := meets.2.1
  have due : isDue secondRefresh.env afterFirstRefresh.metadataDb claudeCode = true := by
    decide +kernel
  have succeeds : (secondRefresh.refresh clockText sessionUuid afterFirstRefresh).1.isOk = true := by
    decide +kernel
  have repos : (nextHistory clockText sessionUuid afterFirstRefresh
      secondRefresh).eventStore.events.rows.map (·.repoId) = ["repo-a"] := by
    decide +kernel
  have profiles : secondRefresh.scannedProfiles afterFirstRefresh = [claudeCode] :=
    scannedProfiles_refreshFrom due
  have scanned : scannedSessions secondRefresh.env (.start afterFirstRefresh) claudeCode =
      some [sessionIn "/work/a"] := rfl
  obtain ⟨_, _, event, member, _⟩ := covers (Fallible.eq_ok_of_isOk succeeds) (.start afterFirstRefresh)
    claudeCode ⟨[], [], profiles, rfl⟩ _ scanned _ (List.mem_singleton_self _)
  obtain ⟨row, held, ofRepo, _⟩ := LocalEventStore.mem_readEventsForRepo.mp member
  have listed : row.repoId ∈ ["repo-a"] := by
    rw [← repos]
    exact List.mem_map_of_mem held
  rw [beq_iff_eq.mp ofRepo] at listed
  exact absurd listed (by decide)

end BrickTrace
