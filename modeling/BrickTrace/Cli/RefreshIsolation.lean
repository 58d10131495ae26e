import BrickTrace.Cli.RefreshRuns
import BrickTrace.Core.ChunkRoundTrip
import BrickTrace.Sync.Client

/-!
# Sessions under the repos that they belong to

A repo should hold, and upload, the observations of its own sessions.  A refresh
appends every session it scans under the repo it was started from, so this comes down
to the sessions that a refresh finds new: each has to belong to that repo.
-/

set_option autoImplicit false

namespace BrickTrace

/-! ## Isolation -/

section Isolation
variable (belongs : String → String → Prop)

/-- An event of a session whose repo path belongs to a repo. -/
def TraceEvent.ComesFrom (event : TraceEvent) (repoId : String) : Prop :=
  ∃ path, event.textField "repo_path" = some path ∧ belongs path repoId

/-- Every observed session that is stored or uploaded under a repo belongs to it. -/
structure Isolated (store : LocalEventStore) : Prop where
  stored : ∀ row ∈ store.events.rows, row.event.eventType = .sourceSessionObserved →
    row.event.ComesFrom belongs row.repoId
  uploaded : ∀ repoId, ∀ event ∈ collectPushEvents store (some repoId),
    event.eventType = .sourceSessionObserved → event.ComesFrom belongs repoId

/-- A session that is new to the event store belongs to the repo that is refreshed, by the
repo path it is on record with. -/
def BelongsIfNew (rfc3339 : DateTime → String) (newV5 : String → Uuid) : SessionCondition :=
  fun env repoId profile progress session =>
    let upsert := sourceSessionUpsert rfc3339 env profile session
    sourceSessionEventId newV5 upsert ∈ progress.eventStore.storedIds ∨
      ∃ path, recordedRepoPath progress.metadataDb upsert = some path ∧ belongs path repoId

end Isolation

variable {belongs : String → String → Prop}

theorem eventType_reattachChunks (store : LocalEventStore) (event : TraceEvent) :
    (store.reattachChunks event).eventType = event.eventType := by
  unfold LocalEventStore.reattachChunks
  split
  · rfl
  · split <;> rfl

/-- What is uploaded is what is stored, as far as a repo path tells. -/
theorem isolated_of_stored {store : LocalEventStore}
    (stored : ∀ row ∈ store.events.rows, row.event.eventType = .sourceSessionObserved →
      row.event.ComesFrom belongs row.repoId) : Isolated belongs store := by
  refine ⟨stored, ?_⟩
  intro repoId event member observed
  obtain ⟨row, held, ofRepo, rfl⟩ := LocalEventStore.mem_readEventsForRepoWithChunks.mp member
  rw [eventType_reattachChunks] at observed
  obtain ⟨path, recorded, owned⟩ := stored row held observed
  refine ⟨path, ?_, ?_⟩
  · rw [textField_reattachChunks _ _ (by decide)]
    exact recorded
  · rw [← beq_iff_eq.mp ofRepo]
    exact owned

theorem isolated_new (path : String) : Isolated belongs (.new path) :=
  isolated_of_stored fun _ member => nomatch member

section Refresh
variable {rfc3339 : DateTime → String} {newV5 : String → Uuid}

/-- A session that belongs to the repo, or is stored already, keeps the store isolated. -/
theorem Isolated.refreshSession {env : RefreshEnv} {repoId : String} {profile : SourceProfile}
    {progress : ProfileRefresh} {session : NativeSourceSession}
    (isolated : Isolated belongs progress.eventStore)
    (met : BelongsIfNew belongs rfc3339 newV5 env repoId profile progress session) :
    Isolated belongs
      (refreshSession rfc3339 newV5 env repoId profile progress session).2.eventStore := by
  rcases refreshSession_eventStore rfc3339 newV5 env repoId profile progress session with
    same | ⟨record, chunks, indexed, appended⟩
  · rw [same]
    exact isolated
  · apply isolated_of_stored
    rcases rows_of_append_built appended with ⟨_, same⟩ | ⟨new, row, grown, ofRepo, tells⟩
    · rw [same]
      exact isolated.stored
    · rw [grown]
      have arrived : row.event.ComesFrom belongs row.repoId := by
        rw [indexed.eventId] at new
        obtain ⟨path, recorded, owned⟩ := met.resolve_left new
        refine ⟨path, ?_, ?_⟩
        · rw [tells.repoPath, indexed.repoPath]
          exact recorded
        · rw [ofRepo]
          exact owned
      intro held member observed
      rcases List.mem_append.mp member with earlier | added
      · exact isolated.stored held earlier observed
      · rw [List.mem_singleton.mp added]
        exact arrived

/-- Refreshes keep every repo to its own sessions as long as each session that is new to the
event store belongs to the repo that is refreshed. -/
theorem refreshes_keep_isolation {state : HistoryState} {runs : List RefreshRun}
    (start : Isolated belongs state.eventStore)
    (met : Runs.Meets (nextHistory rfc3339 newV5)
      (EachScanned rfc3339 newV5 (BelongsIfNew belongs rfc3339 newV5)) state runs) :
    Runs.Always (nextHistory rfc3339 newV5) (fun reached => Isolated belongs reached.eventStore) state
      runs := by
  have step : ∀ reached run, Isolated belongs reached.eventStore →
      EachScanned rfc3339 newV5 (BelongsIfNew belongs rfc3339 newV5) reached run →
        Isolated belongs (nextHistory rfc3339 newV5 reached run).eventStore := by
    intro reached run isolated visits
    apply refresh_keeps _ isolated visits
    intro env repoId profile progress session kept condition
    exact kept.refreshSession condition
  exact Runs.always_of_meets _ step start met

end Refresh

/-! ## A session of another repo -/

/-- Two repos, each with one checkout. -/
def CheckedOut (path repoId : String) : Prop :=
  path = "/work/a" ∧ repoId = "repo-a" ∨ path = "/work/b" ∧ repoId = "repo-b"

theorem own_session_is_isolated :
    Runs.Always (nextHistory clockText sessionUuid)
      (fun reached => Isolated CheckedOut reached.eventStore) emptyHistory
      [refreshFrom "repo-a" 60 (sessionIn "/work/a")] := by
  apply refreshes_keep_isolation (isolated_new _)
  refine ⟨eachScanned_refreshFrom (Or.inr ⟨"/work/a", ?_, ?_⟩), trivial⟩
  · rfl
  · exact Or.inl ⟨rfl, rfl⟩

theorem session_of_another_repo_is_stored :
    ¬ Runs.Always (nextHistory clockText sessionUuid)
      (fun reached => Isolated CheckedOut reached.eventStore) emptyHistory
      [refreshFrom "repo-a" 60 (sessionIn "/work/b")] := by
  intro always
  have isolated := Runs.always_last _ always
  generalize reached : Runs.run (nextHistory clockText sessionUuid) emptyHistory
    [refreshFrom "repo-a" 60 (sessionIn "/work/b")] = final at isolated
  have rows : final.eventStore.events.rows.map
      (fun row => (row.repoId, row.event.eventType, row.event.textField "repo_path")) =
        [("repo-a", .sourceSessionObserved, some "/work/b")] := by
    rw [← reached]
    decide +kernel
  obtain ⟨row, single, shown⟩ := List.map_eq_singleton_iff.mp rows
  obtain ⟨path, recorded, owned⟩ := isolated.stored row (single ▸ List.mem_singleton_self row)
    (congrArg (·.2.1) shown)
  rw [show row.event.textField "repo_path" = _ from congrArg (·.2.2) shown] at recorded
  rw [show row.repoId = _ from congrArg Prod.fst shown] at owned
  cases recorded
  exact absurd owned (by unfold CheckedOut; decide)

end BrickTrace
