import BrickTrace.Core.SourceSessionChunks
import BrickTrace.Cli.History

/-!
# What a refresh does, session by session

Every session that a refresh scans ends up in the metadata database as it is listed,
and its event is appended for the repo of the refresh.  A condition on each session,
in the state it is scanned in, is followed through the loops over sessions and sources.
-/

set_option autoImplicit false

namespace BrickTrace

open KeyedRows (KeyedTable)

/-! ## Indexing a session -/

/-- The repo path that is on record for a session once it is indexed. -/
def recordedRepoPath (db : MetadataDb) (upsert : SourceSessionUpsert) : Option String :=
  match db.getSourceSession upsert.sourceId upsert.externalSessionId with
  | none => upsert.repoPath
  | some record => if unchanged (some record) upsert then record.repoPath else upsert.repoPath

structure IndexedAs (db : MetadataDb) (upsert : SourceSessionUpsert) (record : SourceSessionRecord) :
    Prop where
  sourceId : record.sourceId = upsert.sourceId
  externalSessionId : record.externalSessionId = upsert.externalSessionId
  fingerprint : record.sourceFingerprint = upsert.sourceFingerprint
  parserVersion : record.parserVersion = upsert.parserVersion
  repoPath : record.repoPath = recordedRepoPath db upsert

section Index
variable {env : RefreshEnv} {db written : MetadataDb} {upsert : SourceSessionUpsert}
  {chunks : List ActivityChunk}

theorem MetadataDb.sessions_of_upsertChunks {sourceId externalSessionId : String}
    (done : db.upsertSourceSessionChunks sourceId externalSessionId chunks = some written) :
    written.sessions = db.sessions := by
  obtain ⟨rows, _, rfl⟩ := MetadataDb.upsertSourceSessionChunks_ok done
  rfl

theorem sessions_of_backfill (env : RefreshEnv) (db : MetadataDb) (session : SourceSessionUpsert) :
    (sourceSessionChunksOrBackfill env db session).2.sessions = db.sessions := by
  unfold sourceSessionChunksOrBackfill
  dsimp only
  split
  · cases formatted : env.formatSourceSessionChunks session.sourceId session.externalSessionId
        session.sourcePath with
    | none => rfl
    | some chunks =>
        dsimp only
        split
        · rfl
        · cases done : db.upsertSourceSessionChunks session.sourceId session.externalSessionId
              chunks with
          | none => rfl
          | some written => exact MetadataDb.sessions_of_upsertChunks done
  · rfl

theorem getSourceSession_of_sessions {first second : MetadataDb}
    (same : first.sessions = second.sessions) (sourceId externalSessionId : String) :
    first.getSourceSession sourceId externalSessionId =
      second.getSourceSession sourceId externalSessionId := by
  unfold MetadataDb.getSourceSession
  rw [same]

/-- The sessions after a reindex, whether or not the transcript could be written. -/
theorem sessions_of_reindex (env : RefreshEnv) (db : MetadataDb) (session : SourceSessionUpsert) :
    (∃ indexed, db.upsertSourceSession env.now session = some indexed ∧
        (reindexSourceSession env db session).2.sessions = indexed.sessions) ∨
      (reindexSourceSession env db session).1 = .error .metadata ∧
        (reindexSourceSession env db session).2 = db := by
  unfold reindexSourceSession
  cases upserted : db.upsertSourceSession env.now session with
  | none => exact Or.inr ⟨rfl, rfl⟩
  | some indexed =>
      refine Or.inl ⟨indexed, rfl, ?_⟩
      dsimp only
      cases formatted : env.formatSourceSessionChunks session.sourceId session.externalSessionId
          session.sourcePath with
      | none => rfl
      | some chunks =>
          dsimp only
          cases done : indexed.upsertSourceSessionChunks session.sourceId session.externalSessionId
              chunks with
          | none => rfl
          | some written => exact MetadataDb.sessions_of_upsertChunks done

/-- The upsert of a session puts it on record as it is. -/
theorem getSourceSession_upsert {now : DateTime}
    (done : db.upsertSourceSession now upsert = some written) :
    (∃ record, written.getSourceSession upsert.sourceId upsert.externalSessionId = some record ∧
        record.toSourceSessionUpsert = upsert) ∧
      ∀ sourceId externalSessionId,
        (sourceId, externalSessionId) ≠ (upsert.sourceId, upsert.externalSessionId) →
          written.getSourceSession sourceId externalSessionId =
            db.getSourceSession sourceId externalSessionId := by
  unfold MetadataDb.upsertSourceSession at done
  split at done
  · cases done
    constructor
    · refine ⟨_, KeyedTable.find_upsert_self, ?_⟩
      cases db.sessions.find
          (SourceSessionRecord.key { upsert with createdAt := now, updatedAt := now }) with
      | none => rfl
      | some _ => rfl
    · intro sourceId externalSessionId differs
      exact KeyedTable.find_upsert_of_ne differs
  · cases done

theorem unchanged_iff {existing : Option SourceSessionRecord} :
    unchanged existing upsert = true ↔
      ∃ record fingerprint, existing = some record ∧ upsert.sourceFingerprint = some fingerprint ∧
        record.sourceFingerprint = some fingerprint ∧ record.parserVersion = upsert.parserVersion := by
  unfold unchanged
  cases existing with
  | none => simp
  | some record => cases upsert.sourceFingerprint <;> simp

theorem recordedRepoPath_of_unchanged {existing : SourceSessionRecord}
    (known : db.getSourceSession upsert.sourceId upsert.externalSessionId = some existing)
    (same : unchanged (some existing) upsert = true) :
    recordedRepoPath db upsert = existing.repoPath := by
  unfold recordedRepoPath
  rw [known]
  exact if_pos same

theorem recordedRepoPath_of_changed
    (changed : ¬ unchanged (db.getSourceSession upsert.sourceId upsert.externalSessionId) upsert =
      true) : recordedRepoPath db upsert = upsert.repoPath := by
  unfold recordedRepoPath
  cases known : db.getSourceSession upsert.sourceId upsert.externalSessionId with
  | none => rfl
  | some existing =>
      rw [known] at changed
      exact if_neg changed

theorem getSourceSession_touch_self {now lastSeenAt : DateTime} {sourceId externalSessionId : String} :
    (db.touchSourceSessionLastSeen now sourceId externalSessionId lastSeenAt).getSourceSession sourceId
        externalSessionId =
      (db.getSourceSession sourceId externalSessionId).map fun held =>
        { held with lastSeenAt := lastSeenAt, updatedAt := now } := by
  unfold MetadataDb.touchSourceSessionLastSeen MetadataDb.getSourceSession
  dsimp only
  exact KeyedTable.find_modify_self

/-- A session that is indexed is on record as it is listed; only the repo path of one that
did not change is the earlier one. -/
theorem indexed_of_ok (done : indexSourceSession env db upsert = (.ok chunks, written)) :
    ∃ record, written.getSourceSession upsert.sourceId upsert.externalSessionId = some record ∧
      IndexedAs db upsert record := by
  unfold indexSourceSession at done
  by_cases same : unchanged (db.getSourceSession upsert.sourceId upsert.externalSessionId) upsert = true
  · rw [if_pos same] at done
    obtain ⟨existing, fingerprint, known, listed, indexed, parsed⟩ := unchanged_iff.mp same
    have kept := sessions_of_backfill env (db.touchSourceSessionLastSeen env.now upsert.sourceId
      upsert.externalSessionId upsert.lastSeenAt) upsert
    rw [done] at kept
    have key : existing.key = (upsert.sourceId, upsert.externalSessionId) :=
      (KeyedTable.find_eq_some_iff.mp known).2
    have recorded := recordedRepoPath_of_unchanged known (known ▸ same)
    refine ⟨{ existing with lastSeenAt := upsert.lastSeenAt, updatedAt := env.now }, ?_, ?_⟩
    · rw [getSourceSession_of_sessions kept, getSourceSession_touch_self, known]
      rfl
    · exact ⟨congrArg Prod.fst key, congrArg Prod.snd key, indexed.trans listed.symm, parsed,
        recorded.symm⟩
  · rw [if_neg same] at done
    have recorded := recordedRepoPath_of_changed same
    rcases sessions_of_reindex env db upsert with ⟨indexed, upserted, kept⟩ | ⟨failed, _⟩
    · rw [done] at kept
      obtain ⟨⟨record, found, listed⟩, _⟩ := getSourceSession_upsert upserted
      refine ⟨record, ?_, ?_⟩
      · rw [getSourceSession_of_sessions kept]
        exact found
      · rw [← listed] at recorded ⊢
        exact ⟨rfl, rfl, rfl, rfl, recorded.symm⟩
    · rw [done] at failed
      cases failed

/-- Indexing a session leaves the record of every other one. -/
theorem getSourceSession_index_of_ne (env : RefreshEnv) (db : MetadataDb)
    {upsert : SourceSessionUpsert} {sourceId externalSessionId : String}
    (differs : (sourceId, externalSessionId) ≠ (upsert.sourceId, upsert.externalSessionId)) :
    (indexSourceSession env db upsert).2.getSourceSession sourceId externalSessionId =
      db.getSourceSession sourceId externalSessionId := by
  unfold indexSourceSession
  split
  · rw [getSourceSession_of_sessions (sessions_of_backfill ..)]
    unfold MetadataDb.touchSourceSessionLastSeen MetadataDb.getSourceSession
    dsimp only
    exact KeyedTable.find_modify_of_ne differs
  · rcases sessions_of_reindex env db upsert with ⟨indexed, upserted, kept⟩ | ⟨_, same⟩
    · rw [getSourceSession_of_sessions kept]
      exact (getSourceSession_upsert upserted).2 _ _ differs
    · rw [same]

end Index

/-! ## A turn of the loop over sessions -/

section Turn
variable {rfc3339 : DateTime → String} {newV5 : String → Uuid} {env : RefreshEnv} {repoId : String}
  {profile : SourceProfile} {progress : ProfileRefresh} {session : NativeSourceSession}

/-- A turn that succeeds has indexed its session, and appended the event of the record with
the chunks that indexing gave. -/
theorem refreshSession_indexes_of_ok
    (succeeded : (refreshSession rfc3339 newV5 env repoId profile progress session).1 = .ok ()) :
    let final := (refreshSession rfc3339 newV5 env repoId profile progress session).2
    let upsert := sourceSessionUpsert rfc3339 env profile session
    ∃ record chunks,
      indexSourceSession env progress.metadataDb upsert = (.ok chunks, final.metadataDb) ∧
      final.metadataDb.getSourceSession upsert.sourceId upsert.externalSessionId = some record ∧
      progress.eventStore.appendEvent rfc3339 repoId
        (buildSourceSessionEventWithChunks rfc3339 newV5 env.now env.freshSessionId
          (sourceActor profile) record.toSourceSessionUpsert repoId chunks) = .ok final.eventStore := by
  unfold refreshSession at succeeded ⊢
  dsimp only at succeeded ⊢
  cases indexing : indexSourceSession env progress.metadataDb
      (sourceSessionUpsert rfc3339 env profile session) with
  | mk result written =>
      cases result with
      | error failure =>
          rw [indexing] at succeeded
          cases succeeded
      | ok chunks =>
          obtain ⟨record, found, _⟩ := indexed_of_ok indexing
          rw [indexing] at succeeded
          dsimp only at succeeded ⊢
          rw [found] at succeeded ⊢
          dsimp only at succeeded ⊢
          cases appended : progress.eventStore.appendEvent rfc3339 repoId
              (buildSourceSessionEventWithChunks rfc3339 newV5 env.now env.freshSessionId
                (sourceActor profile) record.toSourceSessionUpsert repoId chunks) with
          | error failure =>
              unfold ProfileRefresh.scan at succeeded
              dsimp only at succeeded
              rw [appended] at succeeded
              cases succeeded
          | ok grown =>
              unfold ProfileRefresh.scan
              dsimp only
              rw [appended]
              exact ⟨record, chunks, rfl, found, appended⟩

/-- What a turn that succeeds has done: the session is on record, and the event of the record
has been appended. -/
theorem refreshSession_of_ok
    (succeeded : (refreshSession rfc3339 newV5 env repoId profile progress session).1 = .ok ()) :
    let final := (refreshSession rfc3339 newV5 env repoId profile progress session).2
    let upsert := sourceSessionUpsert rfc3339 env profile session
    ∃ record chunks, IndexedAs progress.metadataDb upsert record ∧
      final.metadataDb.getSourceSession upsert.sourceId upsert.externalSessionId = some record ∧
      progress.eventStore.appendEvent rfc3339 repoId
        (buildSourceSessionEventWithChunks rfc3339 newV5 env.now env.freshSessionId
          (sourceActor profile) record.toSourceSessionUpsert repoId chunks) = .ok final.eventStore := by
  obtain ⟨record, chunks, indexing, found, appended⟩ := refreshSession_indexes_of_ok succeeded
  obtain ⟨held, heldFound, indexed⟩ := indexed_of_ok indexing
  cases found.symm.trans heldFound
  exact ⟨record, chunks, indexed, found, appended⟩

/-- A turn that fails has appended nothing. -/
theorem refreshSession_of_error {failure : RefreshError}
    (failed : (refreshSession rfc3339 newV5 env repoId profile progress session).1 = .error failure) :
    (refreshSession rfc3339 newV5 env repoId profile progress session).2.eventStore =
      progress.eventStore := by
  unfold refreshSession at failed ⊢
  dsimp only at failed ⊢
  cases indexing : indexSourceSession env progress.metadataDb
      (sourceSessionUpsert rfc3339 env profile session) with
  | mk result written =>
      cases result with
      | error reason => rfl
      | ok chunks =>
          obtain ⟨record, found, _⟩ := indexed_of_ok indexing
          rw [indexing] at failed
          dsimp only at failed ⊢
          rw [found] at failed ⊢
          dsimp only at failed ⊢
          split
          · rfl
          · rename_i appended
            rw [appended] at failed
            cases failed

/-- What a turn does to the event store: nothing, or the append of the event of the record
that it has indexed. -/
theorem refreshSession_eventStore (rfc3339 : DateTime → String) (newV5 : String → Uuid)
    (env : RefreshEnv) (repoId : String) (profile : SourceProfile) (progress : ProfileRefresh)
    (session : NativeSourceSession) :
    let final := (refreshSession rfc3339 newV5 env repoId profile progress session).2
    final.eventStore = progress.eventStore ∨
      ∃ record chunks, IndexedAs progress.metadataDb (sourceSessionUpsert rfc3339 env profile session)
        record ∧
      progress.eventStore.appendEvent rfc3339 repoId
        (buildSourceSessionEventWithChunks rfc3339 newV5 env.now env.freshSessionId
          (sourceActor profile) record.toSourceSessionUpsert repoId chunks) = .ok final.eventStore := by
  dsimp only
  cases result : (refreshSession rfc3339 newV5 env repoId profile progress session).1 with
  | error failure => exact Or.inl (refreshSession_of_error result)
  | ok _ =>
      obtain ⟨record, chunks, indexed, _, appended⟩ := refreshSession_of_ok result
      exact Or.inr ⟨record, chunks, indexed, appended⟩

theorem getSourceSession_refreshSession_of_ne {sourceId externalSessionId : String}
    (differs : (sourceId, externalSessionId) ≠ (profile.name, session.externalSessionId)) :
    (refreshSession rfc3339 newV5 env repoId profile progress
        session).2.metadataDb.getSourceSession sourceId externalSessionId =
      progress.metadataDb.getSourceSession sourceId externalSessionId := by
  have kept : (indexSourceSession env progress.metadataDb (sourceSessionUpsert rfc3339 env profile
      session)).2.getSourceSession sourceId externalSessionId =
        progress.metadataDb.getSourceSession sourceId externalSessionId :=
    getSourceSession_index_of_ne env progress.metadataDb differs
  unfold refreshSession
  dsimp only
  cases indexing : indexSourceSession env progress.metadataDb
      (sourceSessionUpsert rfc3339 env profile session) with
  | mk result written =>
      rw [indexing] at kept
      cases result with
      | error failure => exact kept
      | ok chunks =>
          dsimp only
          split
          · exact kept
          · split <;> exact kept

/-- An indexed session's event has the id that its listing gives. -/
theorem IndexedAs.eventId {db : MetadataDb} {upsert : SourceSessionUpsert}
    {record : SourceSessionRecord} (indexed : IndexedAs db upsert record) :
    sourceSessionEventId newV5 record.toSourceSessionUpsert = sourceSessionEventId newV5 upsert := by
  unfold sourceSessionEventId sourceSessionEventKey
  rw [indexed.sourceId, indexed.externalSessionId, indexed.fingerprint, indexed.parserVersion]

end Turn

/-! ## Through both loops -/

section Loop
variable (rfc3339 : DateTime → String) (newV5 : String → Uuid)

/-- A condition on a session, as a refresh scans it. -/
def SessionCondition : Type :=
  RefreshEnv → String → SourceProfile → ProfileRefresh → NativeSourceSession → Prop

/-- The sessions that a refresh scans for a source. -/
def scannedSessions (env : RefreshEnv) (progress : RefreshProgress) (profile : SourceProfile) :
    Option (List NativeSourceSession) :=
  (env.listSourceSessions profile (some 1) none).bind fun newest =>
    env.listSourceSessions profile (some sourceIndexRefreshLimit)
      (sinceWatermark progress.metadataDb profile newest)

/-- The sources that a refresh scans. -/
def RefreshRun.scannedProfiles (run : RefreshRun) (state : HistoryState) : List SourceProfile :=
  match run.sources.stored with
  | none => []
  | some _ => dueProfiles run.env state.metadataDb run.sources

def ProfileRefresh.start (state : HistoryState) : ProfileRefresh :=
  { toHistoryState := state, stats := .zero, maxUpdatedAt := none }

def RefreshProgress.start (state : HistoryState) : RefreshProgress :=
  { toHistoryState := state, totals := .zero }

/-- Every session of a source meets the condition when its turn comes. -/
def EachSession (condition : SessionCondition) (env : RefreshEnv) (repoId : String)
    (progress : RefreshProgress) (profile : SourceProfile) : Prop :=
  ∀ sessions, scannedSessions env progress profile = some sessions →
    Loops.Visits (refreshSession rfc3339 newV5 env repoId profile) (condition env repoId profile)
      (.start progress.toHistoryState) sessions

/-- Every session that a refresh scans meets the condition when its turn comes. -/
def EachScanned (condition : SessionCondition) (state : HistoryState) (run : RefreshRun) : Prop :=
  Loops.Visits (refreshProfile rfc3339 newV5 run.env run.repoId (some sourceIndexRefreshLimit))
    (EachSession rfc3339 newV5 condition run.env run.repoId) (.start state)
    (run.scannedProfiles state)

end Loop

section Through
variable {rfc3339 : DateTime → String} {newV5 : String → Uuid}

theorem refreshSingleProfile_sessions (rfc3339 : DateTime → String) (newV5 : String → Uuid)
    {env : RefreshEnv} (repoId : String) {profile : SourceProfile} {limit : Option Nat}
    {since : Option String} {sessions : List NativeSourceSession}
    (listed : env.listSourceSessions profile limit since = some sessions) (state : HistoryState) :
    let turns := Loops.forEach (refreshSession rfc3339 newV5 env repoId profile) (.start state) sessions
    let final := refreshSingleProfile rfc3339 newV5 env repoId profile limit since state
    final.2 = turns.2.toHistoryState ∧ ∀ counted, final.1 = .ok counted → turns.1 = .ok () := by
  unfold refreshSingleProfile
  rw [listed]
  dsimp only [ProfileRefresh.start]
  generalize Loops.forEach (refreshSession rfc3339 newV5 env repoId profile) _ sessions = turns
  obtain ⟨result, reached⟩ := turns
  cases result with
  | error failure => exact ⟨rfl, fun _ succeeded => nomatch succeeded⟩
  | ok _ =>
      dsimp only
      split
      · exact ⟨rfl, fun _ _ => rfl⟩
      · exact ⟨rfl, fun _ _ => rfl⟩

/-- A source is scanned session by session, unless it cannot be listed. -/
theorem refreshProfile_sessions (rfc3339 : DateTime → String) (newV5 : String → Uuid)
    (env : RefreshEnv) (repoId : String) (progress : RefreshProgress) (profile : SourceProfile) :
    let final := refreshProfile rfc3339 newV5 env repoId (some sourceIndexRefreshLimit) progress
      profile
    final = (.error .listing, progress) ∨
      ∃ sessions, scannedSessions env progress profile = some sessions ∧
        let turns := Loops.forEach (refreshSession rfc3339 newV5 env repoId profile)
          (.start progress.toHistoryState) sessions
        final.2.eventStore = turns.2.eventStore ∧
        final.2.metadataDb.sessions = turns.2.metadataDb.sessions ∧
        (final.1 = .ok () → turns.1 = .ok ()) := by
  unfold refreshProfile scannedSessions
  dsimp only
  cases newest : env.listSourceSessions profile (some 1) none with
  | none => exact Or.inl rfl
  | some newestSessions =>
      dsimp only [Option.bind]
      cases listed : env.listSourceSessions profile (some sourceIndexRefreshLimit)
          (sinceWatermark progress.metadataDb profile newestSessions) with
      | none =>
          unfold refreshSingleProfile
          rw [listed]
          exact Or.inl rfl
      | some sessions =>
          obtain ⟨reached, succeeds⟩ := refreshSingleProfile_sessions rfc3339 newV5 repoId
            listed progress.toHistoryState
          refine Or.inr ⟨sessions, rfl, ?_⟩
          rw [← reached]
          revert succeeds
          generalize refreshSingleProfile rfc3339 newV5 env repoId profile _ _ _ = single
          obtain ⟨result, state⟩ := single
          intro succeeds
          cases result with
          | error failure => exact ⟨rfl, rfl, fun succeeded => nomatch succeeded⟩
          | ok counted => exact ⟨rfl, rfl, fun _ => succeeds counted rfl⟩

/-- A refresh goes through its sources, and nothing else changes the databases. -/
theorem refresh_profiles (rfc3339 : DateTime → String) (newV5 : String → Uuid) (run : RefreshRun)
    (state : HistoryState) :
    let turns := Loops.forEach (refreshProfile rfc3339 newV5 run.env run.repoId
      (some sourceIndexRefreshLimit)) (.start state) (run.scannedProfiles state)
    (run.refresh rfc3339 newV5 state).2 = turns.2.toHistoryState ∧
      ((run.refresh rfc3339 newV5 state).1 = .ok () → turns.1 = .ok ()) := by
  unfold RefreshRun.refresh refreshRepoSources RefreshRun.scannedProfiles
  dsimp only
  cases run.sources.stored with
  | none => exact ⟨rfl, fun succeeded => nomatch succeeded⟩
  | some _ =>
      dsimp only
      split
      · rename_i empty
        rw [List.isEmpty_iff.mp empty]
        exact ⟨rfl, fun _ => rfl⟩
      · unfold refreshProfilesToMetadata
        dsimp only [RefreshProgress.start]
        generalize Loops.forEach (refreshProfile rfc3339 newV5 run.env run.repoId _) _ _ = turns
        obtain ⟨result, reached⟩ := turns
        refine ⟨rfl, ?_⟩
        cases result with
        | error failure => exact fun succeeded => nomatch succeeded
        | ok _ => exact fun _ => rfl

variable {condition : SessionCondition}

/-- What every turn keeps of the event store a whole refresh keeps, also one that fails. -/
theorem refresh_keeps {invariant : LocalEventStore → Prop}
    (keeps : ∀ env repoId profile progress session, invariant progress.eventStore →
      condition env repoId profile progress session →
        invariant (refreshSession rfc3339 newV5 env repoId profile progress session).2.eventStore)
    {state : HistoryState} {run : RefreshRun} (start : invariant state.eventStore)
    (visits : EachScanned rfc3339 newV5 condition state run) :
    invariant (nextHistory rfc3339 newV5 state run).eventStore := by
  have step : ∀ (progress : RefreshProgress) profile, invariant progress.eventStore →
      EachSession rfc3339 newV5 condition run.env run.repoId progress profile →
        invariant (refreshProfile rfc3339 newV5 run.env run.repoId (some sourceIndexRefreshLimit)
          progress profile).2.eventStore := by
    intro progress profile kept each
    rcases refreshProfile_sessions rfc3339 newV5 run.env run.repoId progress profile with
      unlisted | ⟨sessions, scanned, eventStore, _, _⟩
    · rw [unlisted]
      exact kept
    · rw [eventStore]
      exact Loops.forEach_invariant (fun reached => invariant reached.eventStore) (keeps run.env
        run.repoId profile) kept (each sessions scanned)
  unfold nextHistory
  rw [(refresh_profiles rfc3339 newV5 run state).1]
  exact Loops.forEach_invariant (fun reached => invariant reached.eventStore) step start visits

end Through

/-! ## Refreshes of one session -/

def emptyHistory : HistoryState := ⟨.new, .new "brick.sqlite"⟩

def claudeCode : SourceProfile where
  name := "claude_code"
  appId := none
  actorId := none
  actorType := none
  sessionDbPath := none
  sessionLogPath := none
  evidenceRoot := some "/home/user/.claude"
  cursorStateDbPath := none

/-- A session of ten bytes, last modified at the start of time. -/
def sessionIn (repoPath : String) : NativeSourceSession where
  externalSessionId := "session-1"
  sourceAppId := "claude_code"
  title := none
  path := "/home/user/.claude/projects/session-1.jsonl"
  sizeBytes := 10
  modifiedAt := some ⟨0⟩
  parserVersion := "claude-code-jsonl-v4"
  sessionCreatedAt := none
  sessionUpdatedAt := none
  model := none
  inputTokens := none
  outputTokens := none
  repoPath := some repoPath
  branch := none
  filesChanged := none
  linesAdded := none
  linesRemoved := none
  touchedFiles := []
  listable := true
  metadataJson := none

/-- A refresh that finds one session, without a transcript. -/
def refreshFrom (repoId : String) (second : Int) (session : NativeSourceSession) : RefreshRun where
  repoId := repoId
  sources := ⟨some [claudeCode], []⟩
  env := {
    now := ⟨second * 1000000000⟩
    freshSessionId := ⟨"session-1"⟩
    listSourceSessions := fun _ _ _ => some [session]
    formatSourceSessionChunks := fun _ _ _ => some []
    storesPlans := fun _ => true }

theorem scannedProfiles_refreshFrom {repoId : String} {second : Int} {session : NativeSourceSession}
    {state : HistoryState}
    (due : isDue (refreshFrom repoId second session).env state.metadataDb claudeCode = true) :
    (refreshFrom repoId second session).scannedProfiles state = [claudeCode] :=
  List.filter_eq_self.mpr (List.forall_mem_singleton.mpr due)

/-- Such a refresh scans its session at most once, in the state that it starts from. -/
theorem eachScanned_refreshFrom {rfc3339 : DateTime → String} {newV5 : String → Uuid}
    {condition : SessionCondition} {repoId : String} {second : Int} {session : NativeSourceSession}
    {state : HistoryState}
    (met : condition (refreshFrom repoId second session).env repoId claudeCode (.start state) session) :
    EachScanned rfc3339 newV5 condition state (refreshFrom repoId second session) := by
  have profiles : (refreshFrom repoId second session).scannedProfiles state =
      [claudeCode].filter (isDue (refreshFrom repoId second session).env state.metadataDb) := rfl
  have each : EachSession rfc3339 newV5 condition (refreshFrom repoId second session).env repoId
      (.start state) claudeCode := by
    intro sessions scanned
    cases scanned
    exact ⟨met, fun _ => trivial⟩
  unfold EachScanned
  rw [profiles, List.filter_singleton]
  cases isDue (refreshFrom repoId second session).env state.metadataDb claudeCode with
  | true => exact ⟨each, fun _ => trivial⟩
  | false => trivial

/-- How the times of two refreshes, a minute and two after the start of time, are written. -/
def clockText (time : DateTime) : String :=
  if time.nanoseconds = 0 then "1970-01-01T00:00:00+00:00"
  else if time.nanoseconds = 60000000000 then "1970-01-01T00:01:00+00:00"
  else "1970-01-01T00:02:00+00:00"

/-- The UUID of the only name that these refreshes make one of. -/
def sessionUuid (_name : String) : Uuid := ⟨0x3a664148edda54f5989f61ff9d22d65c⟩

end BrickTrace
