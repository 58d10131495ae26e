import BrickTrace.Cli.ComposerSessions
import BrickTrace.Cli.RefreshRuns

/-!
# Sessions that a refresh finds again

A session that did not change between two refreshes should not be observed again.  The
id of its event is made of the time and the size of the file that it is in, so this comes
down to the events that are stored: whether there is one of the session as its file is
now.
-/

set_option autoImplicit false

namespace BrickTrace

/-! ## What is asked -/

/-- Whether a row is an observation of a session. -/
def BrickEventRow.observesSession (sourceId externalSessionId : String) (row : BrickEventRow) : Bool :=
  row.event.eventType == .sourceSessionObserved &&
    (row.event.textField "source_id" == some sourceId &&
      row.event.textField "external_session_id" == some externalSessionId)

/-- The observations of a session, in the order they were appended. -/
def LocalEventStore.observations (store : LocalEventStore) (sourceId externalSessionId : String) :
    List BrickEventRow :=
  store.events.rows.filter (BrickEventRow.observesSession sourceId externalSessionId)

/-- A session has the records and the transcript that it had: whenever the source lists it now,
it did so before. -/
def RecordsUnchanged (before now : RefreshEnv) (sourceId externalSessionId : String) : Prop :=
  ∀ profile limit since sessions, profile.name = sourceId →
    now.listSourceSessions profile limit since = some sessions →
    ∀ session ∈ sessions, session.externalSessionId = externalSessionId →
      (∃ limit since sessions, before.listSourceSessions profile limit since = some sessions ∧
        ∃ earlier ∈ sessions, earlier.ownRecords = session.ownRecords) ∧
      now.formatSourceSessionChunks sourceId externalSessionId (some session.path) =
        before.formatSourceSessionChunks sourceId externalSessionId (some session.path)

section Condition
variable (rfc3339 : DateTime → String) (newV5 : String → Uuid)

/-- Two refreshes that succeed, one after the other, between which a session did not change. -/
structure ConsecutiveRefreshes (state : HistoryState) (first second : RefreshRun)
    (sourceId externalSessionId : String) : Prop where
  firstSucceeds : (first.refresh rfc3339 newV5 state).1 = .ok ()
  secondSucceeds : (second.refresh rfc3339 newV5 (nextHistory rfc3339 newV5 state first)).1 = .ok ()
  unchanged : RecordsUnchanged first.env second.env sourceId externalSessionId

/-- An event of the session, as its file is listed, is stored when its turn comes. -/
def StoredIfScanned (sourceId externalSessionId : String) : SessionCondition :=
  fun env _ profile progress session =>
    profile.name = sourceId → session.externalSessionId = externalSessionId →
      sourceSessionEventId newV5 (sourceSessionUpsert rfc3339 env profile session) ∈
        progress.eventStore.storedIds

end Condition

/-! ## One turn -/

theorem TellsOf.observesSession {row : BrickEventRow} {record : SourceSessionUpsert}
    (tells : TellsOf row.event record) (sourceId externalSessionId : String) :
    row.observesSession sourceId externalSessionId =
      (record.sourceId == sourceId && record.externalSessionId == externalSessionId) := by
  unfold BrickEventRow.observesSession
  rw [tells.eventType, tells.sourceId, tells.externalSessionId]
  rfl

section Turn
variable {rfc3339 : DateTime → String} {newV5 : String → Uuid} {env : RefreshEnv} {repoId : String}
  {profile : SourceProfile} {progress : ProfileRefresh} {session : NativeSourceSession}
  {sourceId externalSessionId : String}

/-- What a turn does to the event store: nothing, or one observation of its session, which had
none of its id. -/
theorem refreshSession_rows (rfc3339 : DateTime → String) (newV5 : String → Uuid)
    (env : RefreshEnv) (repoId : String) (profile : SourceProfile) (progress : ProfileRefresh)
    (session : NativeSourceSession) :
    let final := (refreshSession rfc3339 newV5 env repoId profile progress session).2
    final.eventStore.events = progress.eventStore.events ∨
      sourceSessionEventId newV5 (sourceSessionUpsert rfc3339 env profile session) ∉
          progress.eventStore.storedIds ∧
        ∃ row : BrickEventRow,
          final.eventStore.events.rows = progress.eventStore.events.rows ++ [row] ∧
          ∀ sourceId externalSessionId, row.observesSession sourceId externalSessionId =
            (profile.name == sourceId && session.externalSessionId == externalSessionId) := by
  dsimp only
  rcases refreshSession_eventStore rfc3339 newV5 env repoId profile progress session with
    same | ⟨record, chunks, indexed, appended⟩
  · exact Or.inl (congrArg LocalEventStore.events same)
  · rcases rows_of_append_built appended with ⟨_, same⟩ | ⟨new, row, grown, _, tells⟩
    · exact Or.inl same
    · rw [indexed.eventId] at new
      refine Or.inr ⟨new, row, grown, ?_⟩
      intro sourceId externalSessionId
      rw [tells.observesSession, indexed.sourceId, indexed.externalSessionId]
      rfl

/-- A turn that succeeds leaves an event of its session's id. -/
theorem refreshSession_stores
    (succeeded : (refreshSession rfc3339 newV5 env repoId profile progress session).1 = .ok ()) :
    sourceSessionEventId newV5 (sourceSessionUpsert rfc3339 env profile session) ∈
      (refreshSession rfc3339 newV5 env repoId profile progress session).2.eventStore.storedIds := by
  obtain ⟨record, chunks, indexed, _, appended⟩ := refreshSession_of_ok succeeded
  obtain ⟨payload, rows, done⟩ := LocalEventStore.appended_of_ok appended
  rw [← indexed.eventId]
  exact (done.mem_storedIds _).mpr (Or.inl rfl)

/-- An event that is stored stays so. -/
theorem storedIds_subset_refreshSession (rfc3339 : DateTime → String) (newV5 : String → Uuid)
    (env : RefreshEnv) (repoId : String) (profile : SourceProfile) (progress : ProfileRefresh)
    (session : NativeSourceSession) :
    progress.eventStore.storedIds ⊆
      (refreshSession rfc3339 newV5 env repoId profile progress session).2.eventStore.storedIds := by
  unfold LocalEventStore.storedIds
  rcases refreshSession_rows rfc3339 newV5 env repoId profile progress session with
    same | ⟨_, row, grown, _⟩
  · rw [same]
    exact List.Subset.refl _
  · rw [grown, List.map_append]
    exact List.subset_append_left _ _

/-- A turn that meets the condition adds no observation of the session. -/
theorem observations_refreshSession_of_stored
    (met : StoredIfScanned rfc3339 newV5 sourceId externalSessionId env repoId profile progress session) :
    (refreshSession rfc3339 newV5 env repoId profile progress session).2.eventStore.observations
        sourceId externalSessionId =
      progress.eventStore.observations sourceId externalSessionId := by
  unfold LocalEventStore.observations
  rcases refreshSession_rows rfc3339 newV5 env repoId profile progress session with
    same | ⟨new, row, grown, observes⟩
  · rw [same]
  · have other : row.observesSession sourceId externalSessionId = false := by
      rw [observes]
      by_contra both
      rw [Bool.not_eq_false, Bool.and_eq_true, beq_iff_eq, beq_iff_eq] at both
      exact new (met both.1 both.2)
    rw [grown, List.filter_append, List.filter_singleton, other]
    exact List.append_nil _

theorem observations_le_refreshSession (rfc3339 : DateTime → String) (newV5 : String → Uuid)
    (env : RefreshEnv) (repoId : String) (profile : SourceProfile) (progress : ProfileRefresh)
    (session : NativeSourceSession) :
    (progress.eventStore.observations sourceId externalSessionId).length ≤
      ((refreshSession rfc3339 newV5 env repoId profile progress session).2.eventStore.observations
        sourceId externalSessionId).length := by
  unfold LocalEventStore.observations
  rcases refreshSession_rows rfc3339 newV5 env repoId profile progress session with
    same | ⟨_, row, grown, _⟩
  · rw [same]
  · rw [grown, List.filter_append, List.length_append]
    exact Nat.le_add_right _ _

/-- A turn that succeeds without meeting the condition adds an observation. -/
theorem observations_lt_refreshSession
    (succeeded : (refreshSession rfc3339 newV5 env repoId profile progress session).1 = .ok ())
    (failed : ¬ StoredIfScanned rfc3339 newV5 sourceId externalSessionId env repoId profile progress
      session) :
    (progress.eventStore.observations sourceId externalSessionId).length <
      ((refreshSession rfc3339 newV5 env repoId profile progress session).2.eventStore.observations
        sourceId externalSessionId).length := by
  obtain ⟨ofSource, ofSession, new⟩ : profile.name = sourceId ∧
      session.externalSessionId = externalSessionId ∧
      sourceSessionEventId newV5 (sourceSessionUpsert rfc3339 env profile session) ∉
        progress.eventStore.storedIds := by
    unfold StoredIfScanned at failed
    rw [Classical.not_imp, Classical.not_imp] at failed
    exact failed
  have stores := refreshSession_stores succeeded
  unfold LocalEventStore.observations
  rcases refreshSession_rows rfc3339 newV5 env repoId profile progress session with
    same | ⟨_, row, grown, observes⟩
  · unfold LocalEventStore.storedIds at stores new
    rw [same] at stores
    exact absurd stores new
  · have own : row.observesSession sourceId externalSessionId = true := by
      rw [observes, ofSource, ofSession]
      simp
    rw [grown, List.filter_append, List.filter_singleton, own, List.length_append]
    exact Nat.lt_succ_self _

end Turn

/-! ## A whole refresh -/

section Refresh
variable {rfc3339 : DateTime → String} {newV5 : String → Uuid} {sourceId externalSessionId : String}

theorem observations_le_refreshProfile (env : RefreshEnv) (repoId : String) (before : RefreshProgress)
    (profile : SourceProfile) :
    (before.eventStore.observations sourceId externalSessionId).length ≤
      ((refreshProfile rfc3339 newV5 env repoId (some sourceIndexRefreshLimit) before
        profile).2.eventStore.observations sourceId externalSessionId).length := by
  rcases refreshProfile_sessions rfc3339 newV5 env repoId before profile with
    unlisted | ⟨sessions, _, eventStore, _, _⟩
  · rw [unlisted]
  · rw [eventStore]
    exact Loops.size_le_forEach
      (fun progress : ProfileRefresh =>
        (progress.eventStore.observations sourceId externalSessionId).length)
      (observations_le_refreshSession rfc3339 newV5 env repoId profile)
      (.start before.toHistoryState) sessions

/-- A source that is refreshed without a new observation met the condition throughout. -/
theorem eachSession_of_unmoved {env : RefreshEnv} {repoId : String} {before : RefreshProgress}
    {profile : SourceProfile}
    (succeeded : (refreshProfile rfc3339 newV5 env repoId (some sourceIndexRefreshLimit) before
      profile).1 = .ok ())
    (unmoved : ((refreshProfile rfc3339 newV5 env repoId (some sourceIndexRefreshLimit) before
        profile).2.eventStore.observations sourceId externalSessionId).length =
      (before.eventStore.observations sourceId externalSessionId).length) :
    EachSession rfc3339 newV5 (StoredIfScanned rfc3339 newV5 sourceId externalSessionId) env repoId
      before profile := by
  intro sessions scanned
  rcases refreshProfile_sessions rfc3339 newV5 env repoId before profile with
    unlisted | ⟨listed, found, eventStore, _, succeeds⟩
  · rw [unlisted] at succeeded
    cases succeeded
  · cases found.symm.trans scanned
    rw [eventStore] at unmoved
    exact Loops.visits_of_unmoved
      (fun progress : ProfileRefresh =>
        (progress.eventStore.observations sourceId externalSessionId).length)
      (observations_le_refreshSession rfc3339 newV5 env repoId profile)
      (fun progress session ok failed => observations_lt_refreshSession ok failed)
      (succeeds succeeded) unmoved

/-- A refresh that succeeds adds no observation of a session exactly when an event of the session
is stored whenever the refresh scans it. -/
theorem observations_eq_iff {state : HistoryState} {run : RefreshRun}
    (succeeded : (run.refresh rfc3339 newV5 state).1 = .ok ()) :
    (nextHistory rfc3339 newV5 state run).eventStore.observations sourceId externalSessionId =
        state.eventStore.observations sourceId externalSessionId ↔
      EachScanned rfc3339 newV5 (StoredIfScanned rfc3339 newV5 sourceId externalSessionId) state
        run := by
  constructor
  · intro same
    obtain ⟨final, succeeds⟩ := refresh_profiles rfc3339 newV5 run state
    unfold nextHistory at same
    rw [final] at same
    apply Loops.visits_of_unmoved (fun progress : RefreshProgress =>
      (progress.eventStore.observations sourceId externalSessionId).length)
    · exact fun before profile => observations_le_refreshProfile run.env run.repoId before profile
    · intro before profile ok failed
      apply lt_of_le_of_ne (observations_le_refreshProfile run.env run.repoId before profile)
      intro unmoved
      exact failed (eachSession_of_unmoved ok unmoved.symm)
    · exact succeeds succeeded
    · exact congrArg List.length same
  · intro visits
    let sameObservations (store : LocalEventStore) : Prop :=
      store.observations sourceId externalSessionId =
        state.eventStore.observations sourceId externalSessionId
    have keeps : ∀ env repoId profile (progress : ProfileRefresh) session,
        sameObservations progress.eventStore →
        StoredIfScanned rfc3339 newV5 sourceId externalSessionId env repoId profile progress session →
          sameObservations
            (refreshSession rfc3339 newV5 env repoId profile progress session).2.eventStore := by
      intro env repoId profile progress session kept met
      exact (observations_refreshSession_of_stored met).trans kept
    exact refresh_keeps keeps rfl visits

/-! ## A session whose file did not change -/

theorem storedIds_subset_refreshProfile (rfc3339 : DateTime → String) (newV5 : String → Uuid)
    (env : RefreshEnv) (repoId : String) (before : RefreshProgress) (profile : SourceProfile) :
    before.eventStore.storedIds ⊆
      (refreshProfile rfc3339 newV5 env repoId (some sourceIndexRefreshLimit) before
        profile).2.eventStore.storedIds := by
  intro eventId stored
  rcases refreshProfile_sessions rfc3339 newV5 env repoId before profile with
    unlisted | ⟨sessions, _, eventStore, _, _⟩
  · rw [unlisted]
    exact stored
  · rw [eventStore]
    exact Loops.forEach_keeps (fun progress : ProfileRefresh => eventId ∈ progress.eventStore.storedIds)
      (fun progress session held =>
        storedIds_subset_refreshSession rfc3339 newV5 env repoId profile progress session held)
      stored

/-- While a session is listed in the file of an event that is stored, it is not observed again. -/
theorem eachScanned_of_sameFile {state : HistoryState} {run : RefreshRun} {eventId : Uuid}
    (stored : eventId ∈ state.eventStore.storedIds)
    (sameFile : ∀ profile limit since sessions, profile.name = sourceId →
      run.env.listSourceSessions profile limit since = some sessions → ∀ session ∈ sessions,
        session.externalSessionId = externalSessionId →
          sourceSessionEventId newV5 (sourceSessionUpsert rfc3339 run.env profile session) = eventId) :
    EachScanned rfc3339 newV5 (StoredIfScanned rfc3339 newV5 sourceId externalSessionId) state run := by
  apply Loops.visits_of_invariant fun progress : RefreshProgress =>
    eventId ∈ progress.eventStore.storedIds
  · intro before profile held
    exact storedIds_subset_refreshProfile rfc3339 newV5 run.env run.repoId before profile held
  · intro before profile _ held sessions scanned
    obtain ⟨newest, _, listed⟩ := Option.bind_eq_some_iff.mp scanned
    apply Loops.visits_of_invariant fun progress : ProfileRefresh =>
      eventId ∈ progress.eventStore.storedIds
    · intro progress session kept
      exact storedIds_subset_refreshSession rfc3339 newV5 run.env run.repoId profile progress session
        kept
    · intro progress session member kept ofSource ofSession
      rw [sameFile profile _ _ sessions ofSource listed session member ofSession]
      exact kept
    · exact held
  · exact stored

/-- Of two refreshes that succeed, the second observes a session that did not change between them
again, unless an event of the session as its file is then is stored. -/
theorem unchanged_session_observed_once_iff {state : HistoryState} {first second : RefreshRun}
    (refreshes : ConsecutiveRefreshes rfc3339 newV5 state first second sourceId externalSessionId) :
    let between := nextHistory rfc3339 newV5 state first
    (nextHistory rfc3339 newV5 between second).eventStore.observations sourceId externalSessionId =
        between.eventStore.observations sourceId externalSessionId ↔
      EachScanned rfc3339 newV5 (StoredIfScanned rfc3339 newV5 sourceId externalSessionId) between
        second :=
  observations_eq_iff refreshes.secondSucceeds

end Refresh

/-! ## A database that two sessions share -/

def cursorIde : SourceProfile where
  name := "cursor_ide"
  appId := none
  actorId := none
  actorType := none
  sessionDbPath := none
  sessionLogPath := none
  evidenceRoot := none
  cursorStateDbPath := some "/home/user/state.vscdb"

/-- A database that was changed at some minute, with a session that has no name and another one. -/
def sharedDb (minute : Int) (otherName : String) : StateDb where
  path := "/home/user/state.vscdb"
  modifiedAt := some ⟨minute * 60000000000⟩
  sizeBytes := 4096
  values := [(Composer.composerHeadersKey, some (.object
    [("allComposers", .object
      [("composer-a", .object []), ("composer-b", .object [("name", .string otherName)])])]))]

/-- A refresh that finds the database as it is, without any bubbles. -/
def sharedDbRefresh (minute : Int) (db : StateDb) : RefreshRun where
  repoId := "repo-a"
  sources := ⟨some [cursorIde], []⟩
  env := {
    now := ⟨minute * 60000000000⟩
    freshSessionId := ⟨"session-1"⟩
    listSourceSessions := fun profile limit since =>
      Composer.listCursorSessions (fun _ => some db) profile limit id (Composer.sinceToSystemTime since)
    formatSourceSessionChunks := fun _ _ _ => some []
    storesPlans := fun _ => true }

/-- The UUIDs of the names that these refreshes make one of. -/
def composerUuid (name : String) : Uuid :=
  let named := [("composer-a:1970-01-01T00:00", 0x7f01cf134ee55f03b9f20e5a02355bc8),
    ("composer-a:1970-01-01T00:01", 0xccea7386f5c25f5ca0a4eeec5cf2a9b7),
    ("composer-b:1970-01-01T00:00", 0xe9e56f901ea258ccb27325969a0aa092)].map
      fun (start, value) => ("brick:source-session-observed-v2:cursor_ide:" ++ start ++
        ":00+00:00:4096:cursor-ide-composer-headers-v1:cursor-ide-composer-headers-v1",
          (⟨value⟩ : Uuid))
  (named.lookup name).getD ⟨0x1bcaa2298bdc58c39c1f2c0560ded5c4⟩

theorem readRecord_sharedDb (minute : Int) (otherName : String) {composerId : String}
    (headed : composerId ∈ ["composer-a", "composer-b"]) :
    (sharedDb minute otherName).readValue (Composer.composerDataKeyStart ++ composerId) = none := by
  rcases List.mem_cons.mp headed with rfl | others
  · rfl
  · rw [List.mem_singleton.mp others]
    rfl

/-- The session without a name is listed with the stamp that its database has. -/
theorem headed_of_sharedDb {minute : Int} {otherName : String} {profile : SourceProfile}
    {limit : Option Nat} {since : Option DateTime} {sessions : List NativeSourceSession}
    (listed : Composer.listCursorSessions (fun _ => some (sharedDb minute otherName)) profile limit id
      since = some sessions)
    {session : NativeSourceSession} (member : session ∈ sessions)
    (unnamed : session.externalSessionId = "composer-a") :
    Composer.composerHeaderSession (sharedDb minute otherName) (profile.appId.getD "cursor_ide")
      Composer.cursorHeadersOptions "composer-a" (.object []) = some session := by
  rcases Composer.mem_of_mem_listCursorSessions listed member with
    ⟨headed, headers, isHeaded⟩ | ⟨recorded, records, isRecorded⟩
  · obtain ⟨db, value, composers, found, read, named, composer, isComposer, known, header, rfl⟩ :=
      Composer.header_of_listed headers isHeaded
    obtain ⟨path, _, opened⟩ := Option.bind_eq_some_iff.mp found
    cases opened
    have values : (sharedDb minute otherName).readValue Composer.composerHeadersKey =
        some (some (.object [("allComposers", .object
          [("composer-a", .object []), ("composer-b", .object [("name", .string otherName)])])])) := rfl
    cases values.symm.trans read
    cases named
    have isKnown := Composer.externalSessionId_of_header header
    have plain : Composer.withRecordFlags (sharedDb minute otherName) known = known := by
      apply Composer.withRecordFlags_of_no_record
      rw [isKnown]
      apply readRecord_sharedDb
      rcases List.mem_cons.mp isComposer with rfl | others
      · exact List.mem_cons_self ..
      · rw [List.mem_singleton.mp others]
        exact List.mem_cons_of_mem _ (List.mem_singleton_self _)
    rw [plain] at unnamed ⊢
    rw [isKnown] at unnamed
    rcases List.mem_cons.mp isComposer with rfl | others
    · exact header
    · have differs : "composer-b" ≠ "composer-a" := by decide
      rw [List.mem_singleton.mp others] at unnamed
      exact absurd unnamed differs
  · obtain ⟨path, _, opened⟩ := Option.bind_eq_some_iff.mp records
    obtain ⟨db, found, read⟩ := Option.bind_eq_some_iff.mp opened
    cases found
    obtain ⟨none, each, answer⟩ := Option.bind_eq_some_iff.mp read
    have noRecords : (sharedDb minute otherName).values.filter
        (fun value => startsWith value.1 Composer.composerDataKeyStart) = [] := by
      have isHeaders : startsWith Composer.composerHeadersKey Composer.composerDataKeyStart = false := by
        decide +kernel
      simp [sharedDb, isHeaders]
    rw [noRecords] at each
    cases each
    cases answer
    exact nomatch Composer.mem_of_mem_ordered isRecorded

/-- The other session does not change what the database says of the one without a name. -/
theorem sharedDb_recordsUnchanged (before now first second : Int) (beforeName nowName : String) :
    RecordsUnchanged (sharedDbRefresh first (sharedDb before beforeName)).env
      (sharedDbRefresh second (sharedDb now nowName)).env "cursor_ide" "composer-a" := by
  intro profile limit since sessions _ listed session member unnamed
  have header := headed_of_sharedDb listed member unnamed
  refine ⟨?_, rfl⟩
  obtain ⟨path, known⟩ : ∃ path, cursorFamilyStateDbPath profile = some path := by
    cases path : cursorFamilyStateDbPath profile with
    | none =>
        obtain ⟨headed, headers, _⟩ := Option.bind_eq_some_iff.mp listed
        unfold Composer.listSessionsFromComposerHeaders at headers
        rw [path] at headers
        cases headers
    | some known => exact ⟨known, rfl⟩
  obtain ⟨earlier, earlierHeader⟩ : ∃ earlier,
      Composer.composerHeaderSession (sharedDb before beforeName) (profile.appId.getD "cursor_ide")
        Composer.cursorHeadersOptions "composer-a" (.object []) = some earlier := ⟨_, rfl⟩
  have found : (cursorFamilyStateDbPath profile).bind (fun _ => some (sharedDb before beforeName)) =
      some (sharedDb before beforeName) := by
    rw [known]
    rfl
  obtain ⟨sessions, earlierListed, isListed⟩ : ∃ sessions,
      Composer.listCursorSessions (fun _ => some (sharedDb before beforeName)) profile none id none =
        some sessions ∧
      Composer.withRecordFlags (sharedDb before beforeName) earlier ∈ sessions :=
    Composer.listed_of_header found rfl rfl (List.mem_cons_self ..) earlierHeader
  have plain : Composer.withRecordFlags (sharedDb before beforeName) earlier = earlier := by
    apply Composer.withRecordFlags_of_no_record
    rw [Composer.externalSessionId_of_header earlierHeader]
    exact readRecord_sharedDb before beforeName (List.mem_cons_self ..)
  rw [plain] at isListed
  exact ⟨none, none, sessions, earlierListed, earlier, isListed,
    Composer.ownRecords_of_header (by rfl) header earlierHeader⟩

def afterFirstLook : HistoryState :=
  nextHistory clockText composerUuid emptyHistory (sharedDbRefresh 1 (sharedDb 0 "first"))

/-- A database that did not change has its sessions observed once. -/
theorem unchanged_database_observed_once :
    (nextHistory clockText composerUuid afterFirstLook
        (sharedDbRefresh 2 (sharedDb 0 "first"))).eventStore.observations "cursor_ide" "composer-a" =
      afterFirstLook.eventStore.observations "cursor_ide" "composer-a" := by
  obtain ⟨first, second, stored⟩ :
      ((sharedDbRefresh 1 (sharedDb 0 "first")).refresh clockText composerUuid emptyHistory).1.isOk =
          true ∧
        ((sharedDbRefresh 2 (sharedDb 0 "first")).refresh clockText composerUuid
          afterFirstLook).1.isOk = true ∧
        (⟨0x7f01cf134ee55f03b9f20e5a02355bc8⟩ : Uuid) ∈ afterFirstLook.eventStore.storedIds := by
    decide +kernel
  have unchanged := sharedDb_recordsUnchanged 0 0 1 2 "first" "first"
  apply (unchanged_session_observed_once_iff
    ⟨Fallible.eq_ok_of_isOk first, Fallible.eq_ok_of_isOk second, unchanged⟩).mpr
  apply eachScanned_of_sameFile stored
  intro profile limit since sessions named listed session member unnamed
  have header := headed_of_sharedDb listed member unnamed
  cases header
  unfold sourceSessionEventId sourceSessionEventKey sourceSessionUpsert
  dsimp only
  rw [named]
  decide +kernel

/-- Another session changes its database, and a session that did not change is observed again. -/
theorem unchanged_composer_observed_again :
    ConsecutiveRefreshes clockText composerUuid emptyHistory (sharedDbRefresh 1 (sharedDb 0 "first"))
        (sharedDbRefresh 2 (sharedDb 1 "second")) "cursor_ide" "composer-a" ∧
      (nextHistory clockText composerUuid afterFirstLook
          (sharedDbRefresh 2 (sharedDb 1 "second"))).eventStore.observations "cursor_ide" "composer-a" ≠
        afterFirstLook.eventStore.observations "cursor_ide" "composer-a" := by
  obtain ⟨first, second, twice, once⟩ :
      ((sharedDbRefresh 1 (sharedDb 0 "first")).refresh clockText composerUuid emptyHistory).1.isOk =
          true ∧
        ((sharedDbRefresh 2 (sharedDb 1 "second")).refresh clockText composerUuid
          afterFirstLook).1.isOk = true ∧
        ((nextHistory clockText composerUuid afterFirstLook
            (sharedDbRefresh 2 (sharedDb 1 "second"))).eventStore.observations "cursor_ide"
              "composer-a").length = 2 ∧
          (afterFirstLook.eventStore.observations "cursor_ide" "composer-a").length = 1 := by
    decide +kernel
  have unchanged := sharedDb_recordsUnchanged 0 1 1 2 "first" "second"
  refine ⟨⟨Fallible.eq_ok_of_isOk first, Fallible.eq_ok_of_isOk second, unchanged⟩, ?_⟩
  intro same
  rw [same] at twice
  omega

end BrickTrace
