import BrickTrace.Cli.NativeSource
import BrickTrace.Cli.RefreshChunks
import BrickTrace.Cli.RefreshFiles

/-!
# Which files have a session of their own

A session that is read from a file is identified by the stem of the file's name.  After a
refresh of everything into an empty database each stem of an included file has one row; a
file has a row of its own when no other included file has its stem.
-/

set_option autoImplicit false

namespace BrickTrace

open KeyedRows (KeyedTable)
open TreeWalk (Node)

/-! ## Other sessions -/

section Index
variable {env : RefreshEnv} {db written : MetadataDb} {upsert : SourceSessionUpsert}
  {chunks : List ActivityChunk}

theorem storedChunks_of_backfill_of_ne {sourceId externalSessionId : String}
    (differs : (sourceId, externalSessionId) ≠ (upsert.sourceId, upsert.externalSessionId)) :
    (sourceSessionChunksOrBackfill env db upsert).2.storedChunks sourceId externalSessionId =
      db.storedChunks sourceId externalSessionId := by
  unfold sourceSessionChunksOrBackfill
  dsimp only
  split
  · cases formatted : env.formatSourceSessionChunks upsert.sourceId upsert.externalSessionId
        upsert.sourcePath with
    | none => rfl
    | some chunks =>
        dsimp only
        split
        · rfl
        · cases done : db.upsertSourceSessionChunks upsert.sourceId upsert.externalSessionId
              chunks with
          | none => rfl
          | some written => exact MetadataDb.storedChunks_of_upsert_of_ne done differs
  · rfl

theorem storedChunks_of_reindex_of_ne {sourceId externalSessionId : String}
    (differs : (sourceId, externalSessionId) ≠ (upsert.sourceId, upsert.externalSessionId)) :
    (reindexSourceSession env db upsert).2.storedChunks sourceId externalSessionId =
      db.storedChunks sourceId externalSessionId := by
  unfold reindexSourceSession
  cases upserted : db.upsertSourceSession env.now upsert with
  | none => rfl
  | some indexed =>
      have kept := MetadataDb.storedChunks_of_chunks (MetadataDb.chunks_of_upsertSourceSession upserted)
        sourceId externalSessionId
      dsimp only
      cases formatted : env.formatSourceSessionChunks upsert.sourceId upsert.externalSessionId
          upsert.sourcePath with
      | none => exact kept
      | some chunks =>
          dsimp only
          cases done : indexed.upsertSourceSessionChunks upsert.sourceId upsert.externalSessionId
              chunks with
          | none => exact kept
          | some written =>
              exact (MetadataDb.storedChunks_of_upsert_of_ne done differs).trans kept

/-- Indexing a session leaves the chunks of every other one. -/
theorem storedChunks_index_of_ne (env : RefreshEnv) (db : MetadataDb) {upsert : SourceSessionUpsert}
    {sourceId externalSessionId : String}
    (differs : (sourceId, externalSessionId) ≠ (upsert.sourceId, upsert.externalSessionId)) :
    (indexSourceSession env db upsert).2.storedChunks sourceId externalSessionId =
      db.storedChunks sourceId externalSessionId := by
  unfold indexSourceSession
  split
  · rw [storedChunks_of_backfill_of_ne differs]
    rfl
  · exact storedChunks_of_reindex_of_ne differs

/-- A session is on record under the path it is listed with, or under the one it had. -/
theorem sourcePath_of_ok (done : indexSourceSession env db upsert = (.ok chunks, written)) :
    ∃ record, written.getSourceSession upsert.sourceId upsert.externalSessionId = some record ∧
      (record.sourcePath = upsert.sourcePath ∨
        ∃ existing, db.getSourceSession upsert.sourceId upsert.externalSessionId = some existing ∧
          record.sourcePath = existing.sourcePath) := by
  unfold indexSourceSession at done
  by_cases same : unchanged (db.getSourceSession upsert.sourceId upsert.externalSessionId) upsert = true
  · rw [if_pos same] at done
    obtain ⟨existing, _, known, _⟩ := unchanged_iff.mp same
    have kept := sessions_of_backfill env (db.touchSourceSessionLastSeen env.now upsert.sourceId
      upsert.externalSessionId upsert.lastSeenAt) upsert
    rw [done] at kept
    refine ⟨{ existing with lastSeenAt := upsert.lastSeenAt, updatedAt := env.now }, ?_,
      Or.inr ⟨existing, known, rfl⟩⟩
    rw [getSourceSession_of_sessions kept, getSourceSession_touch_self, known]
    rfl
  · rw [if_neg same] at done
    rcases sessions_of_reindex env db upsert with ⟨indexed, upserted, kept⟩ | ⟨failed, _⟩
    · rw [done] at kept
      obtain ⟨⟨record, found, listed⟩, _⟩ := getSourceSession_upsert upserted
      refine ⟨record, ?_, Or.inl (congrArg SourceSessionUpsert.sourcePath listed)⟩
      rw [getSourceSession_of_sessions kept]
      exact found
    · rw [done] at failed
      cases failed

end Index

/-! ## The turns of the sessions of a source -/

section Turns
variable {rfc3339 : DateTime → String} {newV5 : String → Uuid} {env : RefreshEnv} {repoId : String}
  {profile : SourceProfile} {progress : ProfileRefresh} {sessions : List NativeSourceSession}
  {session : NativeSourceSession}

/-- Every session on record is a listed one, under a path that it is listed with. -/
def FromSessions (profile : SourceProfile) (sessions : List NativeSourceSession) (db : MetadataDb) :
    Prop :=
  ∀ sourceId externalSessionId record,
    db.getSourceSession sourceId externalSessionId = some record →
      sourceId = profile.name ∧ ∃ session ∈ sessions,
        session.externalSessionId = externalSessionId ∧ record.sourcePath = some session.path

/-- The record of a session, if there is one, has its path, and its transcript is stored. -/
def HeldAs (env : RefreshEnv) (profile : SourceProfile) (session : NativeSourceSession)
    (db : MetadataDb) : Prop :=
  ∀ record, db.getSourceSession profile.name session.externalSessionId = some record →
    record.sourcePath = some session.path ∧
      env.formatSourceSessionChunks profile.name session.externalSessionId (some session.path) =
        some (db.storedChunks profile.name session.externalSessionId)

section Turn
variable (succeeded :
  (refreshSession rfc3339 newV5 env repoId profile progress session).1 = .ok ())
include succeeded

theorem fromSessions_turn (held : FromSessions profile sessions progress.metadataDb)
    (member : session ∈ sessions) :
    FromSessions profile sessions
      (refreshSession rfc3339 newV5 env repoId profile progress session).2.metadataDb := by
  intro sourceId externalSessionId record found
  by_cases own : (sourceId, externalSessionId) = (profile.name, session.externalSessionId)
  · cases own
    obtain ⟨_, _, indexing, _⟩ := refreshSession_indexes_of_ok succeeded
    obtain ⟨final, finalFound, paths⟩ := sourcePath_of_ok indexing
    cases found.symm.trans finalFound
    rcases paths with listed | ⟨existing, known, kept⟩
    · exact ⟨rfl, session, member, rfl, listed⟩
    · rw [kept]
      exact held _ _ existing known
  · rw [getSourceSession_refreshSession_of_ne own] at found
    exact held _ _ record found

/-- A turn keeps what is held of a session that no other one shares its id with. -/
theorem heldAs_turn {kept : NativeSourceSession} (held : HeldAs env profile kept progress.metadataDb)
    (alone : session.externalSessionId = kept.externalSessionId → session = kept) :
    HeldAs env profile kept
      (refreshSession rfc3339 newV5 env repoId profile progress session).2.metadataDb := by
  intro record found
  by_cases own : (profile.name, kept.externalSessionId) = (profile.name, session.externalSessionId)
  · obtain rfl := alone (Prod.mk.inj own).2.symm
    obtain ⟨_, used, indexing, _⟩ := refreshSession_indexes_of_ok succeeded
    obtain ⟨final, finalFound, paths⟩ := sourcePath_of_ok indexing
    cases found.symm.trans finalFound
    obtain ⟨stored, trusted, formatted⟩ := indexed_chunks_of_ok indexing
    refine ⟨?_, ?_⟩
    · rcases paths with listed | ⟨existing, known, same⟩
      · exact listed
      · rw [same]
        exact (held existing known).1
    · by_cases trusts : TrustsStored progress.metadataDb (sourceSessionUpsert rfc3339 env profile
          session)
      · obtain ⟨existing, _, known, _⟩ := unchanged_iff.mp trusts.1
        have before := (held existing known).2
        have same := trusted trusts
        rw [same] at stored
        rw [before]
        exact congrArg some stored.symm
      · have transcript := formatted trusts
        rw [← stored] at transcript
        exact transcript
  · rw [getSourceSession_refreshSession_of_ne own] at found
    obtain ⟨path, transcript⟩ := held record found
    obtain ⟨_, _, indexing, _⟩ := refreshSession_indexes_of_ok succeeded
    have chunksKept : (indexSourceSession env progress.metadataDb (sourceSessionUpsert rfc3339 env
        profile session)).2.storedChunks profile.name kept.externalSessionId =
          progress.metadataDb.storedChunks profile.name kept.externalSessionId :=
      storedChunks_index_of_ne env progress.metadataDb own
    rw [indexing] at chunksKept
    exact ⟨path, transcript.trans (congrArg some chunksKept.symm)⟩

end Turn

variable {state : HistoryState}
  (completed : (Loops.forEach (refreshSession rfc3339 newV5 env repoId profile) (.start state)
    sessions).1 = .ok ())
include completed

theorem fromSessions_turns (held : FromSessions profile sessions state.metadataDb) :
    FromSessions profile sessions (Loops.forEach (refreshSession rfc3339 newV5 env repoId profile)
      (.start state) sessions).2.metadataDb := by
  have visits : Loops.Visits (refreshSession rfc3339 newV5 env repoId profile)
      (fun _ session => session ∈ sessions) (.start state) sessions :=
    Loops.visits_of_mem fun _ member _ => member
  refine Loops.forEach_ok (fun reached => FromSessions profile sessions reached.metadataDb) ?_ held
    visits completed
  intro progress session kept member succeeded
  exact fromSessions_turn succeeded kept member

theorem heldAs_turns {kept : NativeSourceSession} (held : HeldAs env profile kept state.metadataDb)
    (alone : ∀ session ∈ sessions,
      session.externalSessionId = kept.externalSessionId → session = kept) :
    HeldAs env profile kept (Loops.forEach (refreshSession rfc3339 newV5 env repoId profile)
      (.start state) sessions).2.metadataDb := by
  have visits : Loops.Visits (refreshSession rfc3339 newV5 env repoId profile)
      (fun _ session => session ∈ sessions) (.start state) sessions :=
    Loops.visits_of_mem fun _ member _ => member
  refine Loops.forEach_ok (fun reached => HeldAs env profile kept reached.metadataDb) ?_ held
    visits completed
  intro progress session still member succeeded
  exact heldAs_turn succeeded still (alone session member)

/-- Every listed session has a record in the end, its own or that of a session with its id. -/
theorem recorded_turns (member : session ∈ sessions) :
    ∃ record, (Loops.forEach (refreshSession rfc3339 newV5 env repoId profile) (.start state)
      sessions).2.metadataDb.getSourceSession profile.name session.externalSessionId =
        some record := by
  have visits : Loops.Visits (refreshSession rfc3339 newV5 env repoId profile)
      (fun _ _ => True) (.start state) sessions := Loops.visits_of_mem fun _ _ _ => trivial
  have recorded : ∀ (progress : ProfileRefresh) (turn : NativeSourceSession),
      (refreshSession rfc3339 newV5 env repoId profile progress turn).1 = .ok () →
        ∃ record, (refreshSession rfc3339 newV5 env repoId profile progress
          turn).2.metadataDb.getSourceSession profile.name turn.externalSessionId = some record := by
    intro progress turn succeeded
    obtain ⟨record, _, _, found, _⟩ := refreshSession_of_ok succeeded
    exact ⟨record, found⟩
  obtain ⟨reached, taken⟩ : ∃ reached, Loops.Reaches (refreshSession rfc3339 newV5 env repoId profile)
      (.start state) sessions reached session := Loops.reaches_of_mem member
  refine Loops.forEach_done (fun _ done (state : ProfileRefresh) => ∃ record,
    state.metadataDb.getSourceSession profile.name done.externalSessionId = some record) ?_ ?_ visits
      completed taken
  · intro progress turn _ succeeded
    exact recorded progress turn succeeded
  · rintro _ done progress turn ⟨record, found⟩ _ succeeded
    by_cases own : (profile.name, done.externalSessionId) = (profile.name, turn.externalSessionId)
    · rw [(Prod.mk.inj own).2]
      exact recorded progress turn succeeded
    · exact ⟨record, (getSourceSession_refreshSession_of_ne own).trans found⟩

end Turns

/-! ## A refresh of everything -/

/-- A refresh of a source whose sessions are the files below its roots. -/
structure FileTreeRefresh where
  includes : String → Bool
  profile : SourceProfile
  tree : String → Option (Node NativeFile)
  env : RefreshEnv
  repoId : String
  lists : ∀ limit, env.listSourceSessions profile limit none =
    listFileSourceSessions includes profile none limit tree
  apart : ((walkedFiles profile tree).map NativeFile.path).Nodup

namespace FileTreeRefresh
variable (rfc3339 : DateTime → String) (newV5 : String → Uuid) (run : FileTreeRefresh)
  (store : LocalEventStore)

/-- The files that are session files by their names. -/
def files : List NativeFile :=
  (walkedFiles run.profile run.tree).filter fun file => run.includes file.path

/-- The refresh without a limit, into an empty metadata database. -/
def refresh : Except RefreshError RefreshStats × HistoryState :=
  refreshProfilesToMetadata rfc3339 newV5 run.env run.repoId [run.profile] none ⟨.new, store⟩

/-- A row has the path of the file, and the chunks stored with it are those of the file. -/
structure RowOf (db : MetadataDb) (file : NativeFile) (record : SourceSessionRecord) : Prop where
  held : record ∈ db.sessions.rows
  sourceId : record.sourceId = run.profile.name
  path : record.sourcePath = some file.path
  chunks : run.env.formatSourceSessionChunks record.sourceId record.externalSessionId
    record.sourcePath = some (db.storedChunks record.sourceId record.externalSessionId)

structure OneRowPerFile (db : MetadataDb) : Prop where
  ofFile : ∀ file ∈ run.files, ∃! record, run.RowOf db file record
  ofRow : ∀ record ∈ db.sessions.rows, ∃ file ∈ run.files, run.RowOf db file record

/-- No other file has the stem of the file. -/
def Alone (file : NativeFile) : Prop :=
  ∀ other ∈ run.files, externalSessionIdOf other.path = externalSessionIdOf file.path → other = file

variable {rfc3339 newV5 run store}

theorem eq_of_path {first second : NativeFile} (isFirst : first ∈ run.files)
    (isSecond : second ∈ run.files) (same : first.path = second.path) : first = second :=
  List.inj_on_of_nodup_map run.apart (List.mem_filter.mp isFirst).1 (List.mem_filter.mp isSecond).1
    same

/-- Into an empty database all sessions are listed and take their turns. -/
theorem turns_of_ok {stats : RefreshStats}
    (succeeded : (run.refresh rfc3339 newV5 store).1 = .ok stats) :
    ∃ sessions, listFileSourceSessions run.includes run.profile none none run.tree = some sessions ∧
      let turns := Loops.forEach (refreshSession rfc3339 newV5 run.env run.repoId run.profile)
        (.start ⟨.new, store⟩) sessions
      turns.1 = .ok () ∧
        (run.refresh rfc3339 newV5 store).2.metadataDb.sessions = turns.2.metadataDb.sessions ∧
        (run.refresh rfc3339 newV5 store).2.metadataDb.chunks = turns.2.metadataDb.chunks := by
  have unmarked : ∀ newest, sinceWatermark MetadataDb.new run.profile newest = none := by
    intro newest
    unfold sinceWatermark
    dsimp only
    split
    · rfl
    · rfl
  unfold refresh refreshProfilesToMetadata at succeeded ⊢
  rw [Loops.forEach_singleton] at succeeded ⊢
  unfold refreshProfile at succeeded ⊢
  dsimp only at succeeded ⊢
  cases newest : run.env.listSourceSessions run.profile (some 1) none with
  | none =>
      rw [newest] at succeeded
      cases succeeded
  | some found =>
      rw [newest] at succeeded
      dsimp only at succeeded ⊢
      rw [unmarked] at succeeded ⊢
      cases listed : run.env.listSourceSessions run.profile none none with
      | none =>
          unfold refreshSingleProfile at succeeded
          rw [listed] at succeeded
          cases succeeded
      | some sessions =>
          obtain ⟨reached, succeeds⟩ := refreshSingleProfile_sessions rfc3339 newV5 run.repoId listed
            ⟨.new, store⟩
          refine ⟨sessions, (run.lists none).symm.trans listed, ?_⟩
          rw [← reached]
          revert succeeded succeeds
          generalize refreshSingleProfile rfc3339 newV5 run.env run.repoId run.profile none none
            ⟨.new, store⟩ = single
          obtain ⟨result, state⟩ := single
          intro succeeded succeeds
          cases result with
          | error failure => cases succeeded
          | ok counted => exact ⟨succeeds counted rfl, rfl, rfl⟩

theorem key_eq_iff {record : SourceSessionRecord} {sourceId externalSessionId : String} :
    record.key = (sourceId, externalSessionId) ↔
      record.sourceId = sourceId ∧ record.externalSessionId = externalSessionId :=
  Prod.mk.injEq .. ▸ Iff.rfl

theorem getSourceSession_eq_some_iff {db : MetadataDb} {sourceId externalSessionId : String}
    {record : SourceSessionRecord} :
    db.getSourceSession sourceId externalSessionId = some record ↔
      record ∈ db.sessions.rows ∧ record.key = (sourceId, externalSessionId) :=
  KeyedTable.find_eq_some_iff

/-- What is on record under each key. -/
structure RowsByStem (run : FileTreeRefresh) (db : MetadataDb) : Prop where
  fromFile : ∀ record ∈ db.sessions.rows, ∃ file ∈ run.files,
    record.key = (run.profile.name, externalSessionIdOf file.path) ∧
      record.sourcePath = some file.path
  recorded : ∀ file ∈ run.files, ∃ record ∈ db.sessions.rows,
    record.key = (run.profile.name, externalSessionIdOf file.path)
  own : ∀ file ∈ run.files, run.Alone file → ∃ record, run.RowOf db file record

theorem rowsByStem_of_ok {stats : RefreshStats}
    (succeeded : (run.refresh rfc3339 newV5 store).1 = .ok stats) :
    run.RowsByStem (run.refresh rfc3339 newV5 store).2.metadataDb := by
  obtain ⟨sessions, listing, completed, sameSessions, sameChunks⟩ := turns_of_ok succeeded
  generalize (run.refresh rfc3339 newV5 store).2.metadataDb = db at sameSessions sameChunks
  have paths : ∀ first ∈ walkedFiles run.profile run.tree, ∀ second ∈ walkedFiles run.profile run.tree,
      first.path = second.path → first = second :=
    fun first isFirst second isSecond => List.inj_on_of_nodup_map run.apart isFirst isSecond
  obtain ⟨members, reads⟩ := mem_listFileSourceSessions_all paths listing
  have empty : ∀ sourceId externalSessionId record,
      MetadataDb.new.getSourceSession sourceId externalSessionId ≠ some record := by
    intro sourceId externalSessionId record found
    cases found
  have recorded : ∀ session ∈ sessions, ∃ record,
      db.getSourceSession run.profile.name session.externalSessionId = some record := by
    intro session member
    rw [getSourceSession_of_sessions sameSessions]
    exact recorded_turns completed member
  constructor
  · intro record held
    have found : db.getSourceSession record.sourceId record.externalSessionId = some record :=
      getSourceSession_eq_some_iff.mpr ⟨held, rfl⟩
    rw [getSourceSession_of_sessions sameSessions] at found
    have start : FromSessions run.profile sessions MetadataDb.new :=
      fun sourceId externalSessionId record found => absurd found (empty _ _ _)
    obtain ⟨named, session, member, id, path⟩ := fromSessions_turns completed start _ _ record found
    obtain ⟨file, isFile, read⟩ := (members session).mp member
    rw [externalSessionId_of_sessionFromPath read] at id
    rw [path_of_sessionFromPath read] at path
    exact ⟨file, isFile, key_eq_iff.mpr ⟨named, id.symm⟩, path⟩
  · intro file isFile
    obtain ⟨session, read⟩ := reads file isFile
    obtain ⟨record, found⟩ := recorded session ((members session).mpr ⟨file, isFile, read⟩)
    obtain ⟨held, key⟩ := getSourceSession_eq_some_iff.mp found
    rw [externalSessionId_of_sessionFromPath read] at key
    exact ⟨record, held, key⟩
  · intro file isFile alone
    obtain ⟨session, read⟩ := reads file isFile
    have member := (members session).mpr ⟨file, isFile, read⟩
    obtain ⟨record, found⟩ := recorded session member
    obtain ⟨held, key⟩ := getSourceSession_eq_some_iff.mp found
    obtain ⟨named, id⟩ := key_eq_iff.mp key
    have start : HeldAs run.env run.profile session MetadataDb.new :=
      fun record found => absurd found (empty _ _ _)
    have final := heldAs_turns completed start (by
      intro turn isListed ids
      obtain ⟨turnFile, isTurnFile, turnRead⟩ := (members turn).mp isListed
      rw [externalSessionId_of_sessionFromPath turnRead,
        externalSessionId_of_sessionFromPath read] at ids
      rw [alone turnFile isTurnFile ids] at turnRead
      exact Option.some.inj (turnRead.symm.trans read))
    rw [getSourceSession_of_sessions sameSessions] at found
    obtain ⟨path, chunks⟩ := final record found
    rw [path_of_sessionFromPath read] at path chunks
    refine ⟨record, held, named, path, ?_⟩
    rw [named, id, path, MetadataDb.storedChunks_of_chunks sameChunks]
    exact chunks

section Outcome
variable {db : MetadataDb} (byStem : run.RowsByStem db)
include byStem

theorem RowsByStem.key_of_row {record : SourceSessionRecord} (held : record ∈ db.sessions.rows)
    {file : NativeFile} (isFile : file ∈ run.files) (path : record.sourcePath = some file.path) :
    record.key = (run.profile.name, externalSessionIdOf file.path) := by
  obtain ⟨other, isOther, key, otherPath⟩ := byStem.fromFile record held
  rw [key, eq_of_path isOther isFile (Option.some.inj (otherPath.symm.trans path))]

theorem RowsByStem.existsUnique_stem {file : NativeFile} (isFile : file ∈ run.files) :
    ∃! record, record ∈ db.sessions.rows ∧
      record.externalSessionId = externalSessionIdOf file.path := by
  obtain ⟨record, held, key⟩ := byStem.recorded file isFile
  refine ⟨record, ⟨held, (key_eq_iff.mp key).2⟩, ?_⟩
  rintro other ⟨otherHeld, id⟩
  obtain ⟨_, _, otherKey, _⟩ := byStem.fromFile other otherHeld
  refine KeyedTable.eq_of_key_eq otherHeld held ?_
  rw [key]
  exact key_eq_iff.mpr ⟨(key_eq_iff.mp otherKey).1, id⟩

theorem RowsByStem.existsUnique_own {file : NativeFile} (isFile : file ∈ run.files)
    (alone : run.Alone file) : ∃! record, run.RowOf db file record := by
  obtain ⟨record, row⟩ := byStem.own file isFile alone
  refine ⟨record, row, ?_⟩
  intro other otherRow
  refine KeyedTable.eq_of_key_eq otherRow.held row.held ?_
  rw [byStem.key_of_row otherRow.held isFile otherRow.path,
    byStem.key_of_row row.held isFile row.path]

theorem RowsByStem.oneRowPerFile_iff :
    run.OneRowPerFile db ↔ ∀ file ∈ run.files, run.Alone file := by
  constructor
  · intro one file isFile other isOther ids
    obtain ⟨record, row, _⟩ := one.ofFile file isFile
    obtain ⟨otherRecord, otherRow, _⟩ := one.ofFile other isOther
    have same : otherRecord = record := by
      refine KeyedTable.eq_of_key_eq otherRow.held row.held ?_
      rw [byStem.key_of_row otherRow.held isOther otherRow.path,
        byStem.key_of_row row.held isFile row.path, ids]
    refine eq_of_path isOther isFile (Option.some.inj ?_)
    rw [← otherRow.path, ← row.path, same]
  · intro alone
    refine ⟨fun file isFile => byStem.existsUnique_own isFile (alone file isFile), ?_⟩
    intro record held
    obtain ⟨file, isFile, key, path⟩ := byStem.fromFile record held
    obtain ⟨own, row⟩ := byStem.own file isFile (alone file isFile)
    have same : own = record := by
      refine KeyedTable.eq_of_key_eq row.held held ?_
      rw [byStem.key_of_row row.held isFile row.path, key]
    rw [same] at row
    exact ⟨file, isFile, row⟩

end Outcome

/-- Sessions are identified by the stems of their files: after a refresh of everything into an
empty database each stem has one row, a file whose stem no other file has is on record with
its path and its chunks, and there is one row for each file exactly when no stem comes twice. -/
theorem one_row_per_stem {stats : RefreshStats} (rfc3339 : DateTime → String)
    (newV5 : String → Uuid) (run : FileTreeRefresh) (store : LocalEventStore)
    (succeeded : (run.refresh rfc3339 newV5 store).1 = .ok stats) :
    let db := (run.refresh rfc3339 newV5 store).2.metadataDb
    (∀ record ∈ db.sessions.rows, ∃ file ∈ run.files, record.sourceId = run.profile.name ∧
      record.externalSessionId = externalSessionIdOf file.path ∧
      record.sourcePath = some file.path) ∧
    (∀ file ∈ run.files, ∃! record, record ∈ db.sessions.rows ∧
      record.externalSessionId = externalSessionIdOf file.path) ∧
    (∀ file ∈ run.files, run.Alone file → ∃! record, run.RowOf db file record) ∧
    (run.OneRowPerFile db ↔ ∀ file ∈ run.files, run.Alone file) := by
  intro db
  have byStem : run.RowsByStem db := rowsByStem_of_ok succeeded
  refine ⟨?_, fun file isFile => byStem.existsUnique_stem isFile,
    fun file isFile alone => byStem.existsUnique_own isFile alone, byStem.oneRowPerFile_iff⟩
  intro record held
  obtain ⟨file, isFile, key, path⟩ := byStem.fromFile record held
  exact ⟨file, isFile, (key_eq_iff.mp key).1, (key_eq_iff.mp key).2, path⟩

end FileTreeRefresh

/-! ## Two transcripts with one name -/

/-- A refresh that finds two files, each with a message of its own. -/
def pairRefresh (first second : NativeFile) (apart : first.path ≠ second.path) :
    FileTreeRefresh where
  includes := fun _ => true
  profile := claudeCode
  tree := directoryOf [first, second]
  env := {
    now := ⟨120000000000⟩
    freshSessionId := ⟨"session-1"⟩
    listSourceSessions := fun _ limit since =>
      listFileSourceSessions (fun _ => true) claudeCode (since.bind readMinute) limit
        (directoryOf [first, second])
    formatSourceSessionChunks := fun _ _ path =>
      some [messageChunk (if path = some first.path then "chunk-1" else "chunk-2")]
    storesPlans := fun _ => true }
  repoId := "repo-a"
  lists := fun _ => rfl
  apart := by
    rw [walkedFiles_directoryOf]
    simpa using apart

theorem files_pairRefresh {first second : NativeFile} {apart : first.path ≠ second.path} :
    (pairRefresh first second apart).files = [first, second] := by
  unfold FileTreeRefresh.files
  rw [show walkedFiles (pairRefresh first second apart).profile (pairRefresh first second apart).tree =
    [first, second] from walkedFiles_directoryOf _]
  exact List.filter_eq_self.mpr fun _ _ => rfl

def sameStem : FileTreeRefresh :=
  pairRefresh (transcriptFile "a/session-1" 0 0) (transcriptFile "b/session-1" 60 60) (by
    change "/home/user/.claude/projects/a/session-1.jsonl" ≠
      "/home/user/.claude/projects/b/session-1.jsonl"
    decide)

def differentStems : FileTreeRefresh :=
  pairRefresh (transcriptFile "a/session-1" 0 0) (transcriptFile "b/session-2" 60 60) (by
    change "/home/user/.claude/projects/a/session-1.jsonl" ≠
      "/home/user/.claude/projects/b/session-2.jsonl"
    decide)

/-- The UUIDs of the names that these refreshes make one of. -/
def pairUuid (name : String) : Uuid :=
  if name = "brick:source-session-observed-v2:claude_code:session-1:1970-01-01T00:00:00+00:00:10:claude-code-jsonl-v4:claude-code-jsonl-v4"
  then ⟨0x94ec0220d7ea5cf8bd2710030959a380⟩
  else if name = "brick:source-session-observed-v2:claude_code:session-1:1970-01-01T00:01:00+00:00:10:claude-code-jsonl-v4:claude-code-jsonl-v4"
  then ⟨0x9c61ecf1bec254a287893d7ee32b70d0⟩
  else ⟨0xef467546c59d5d45bd9e94d539a25029⟩

theorem different_stems_have_rows_of_their_own :
    differentStems.OneRowPerFile
      (differentStems.refresh minuteText pairUuid (.new "brick.sqlite")).2.metadataDb := by
  have succeeds : (differentStems.refresh minuteText pairUuid (.new "brick.sqlite")).1.isOk = true := by
    decide +kernel
  obtain ⟨stats, counted⟩ := Fallible.exists_ok_of_isOk succeeds
  apply (FileTreeRefresh.one_row_per_stem minuteText pairUuid differentStems (.new "brick.sqlite")
    counted).2.2.2.mpr
  intro file isFile other isOther ids
  unfold differentStems at isFile isOther
  rw [files_pairRefresh] at isFile isOther
  have stems : ([transcriptFile "a/session-1" 0 0, transcriptFile "b/session-2" 60 60].map
      fun file => externalSessionIdOf file.path).Nodup := by
    decide +kernel
  exact List.inj_on_of_nodup_map stems isOther isFile ids

theorem transcripts_with_one_stem_share_a_row :
    ¬ ∀ (rfc3339 : DateTime → String) (newV5 : String → Uuid) (run : FileTreeRefresh)
        (store : LocalEventStore) (stats : RefreshStats),
      (run.refresh rfc3339 newV5 store).1 = .ok stats →
        run.OneRowPerFile (run.refresh rfc3339 newV5 store).2.metadataDb := by
  intro claim
  obtain ⟨succeeds, absent⟩ :
      (sameStem.refresh minuteText pairUuid (.new "brick.sqlite")).1.isOk = true ∧
        ((sameStem.refresh minuteText pairUuid (.new "brick.sqlite")).2.metadataDb.sessions.rows.all
          fun record => record.sourcePath != (transcriptFile "b/session-1" 60 60).path) = true := by
    decide +kernel
  obtain ⟨stats, counted⟩ := Fallible.exists_ok_of_isOk succeeds
  have one := claim minuteText pairUuid sameStem (.new "brick.sqlite") stats counted
  have isFile : transcriptFile "b/session-1" 60 60 ∈ sameStem.files := by
    unfold sameStem
    rw [files_pairRefresh]
    exact List.mem_cons_of_mem _ List.mem_cons_self
  obtain ⟨record, row, _⟩ := one.ofFile _ isFile
  have differs := List.all_eq_true.mp absent record row.held
  exact absurd row.path (bne_iff_ne.mp differs)

end BrickTrace
