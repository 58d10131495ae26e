import BrickTrace.Cli.RefreshFaults

/-!
# The stored chunks of a file that is refreshed

Whatever writes failed before, a refresh that completes should leave the chunks of the
file as it is now, in the metadata database and under the event of the session.  It does
so unless it finds the fingerprint of the file on record and other chunks stored, or does
not look at the file at all.
-/

set_option autoImplicit false

namespace BrickTrace

/-! ## The chunks of an indexed session -/

/-- A session is taken for unchanged, and its stored chunks for those of its transcript. -/
def TrustsStored (db : MetadataDb) (session : SourceSessionUpsert) : Prop :=
  unchanged (db.getSourceSession session.sourceId session.externalSessionId) session = true ∧
    db.storedChunks session.sourceId session.externalSessionId ≠ []

section Index
variable {env : RefreshEnv} {db written : MetadataDb} {session : SourceSessionUpsert}
  {used : List ActivityChunk}

theorem written_chunks_of_ok {chunks : List ActivityChunk}
    (done : writeSourceSessionChunks (fun _ => none) db session chunks = (.ok used, written)) :
    written.storedChunks session.sourceId session.externalSessionId = used ∧ used = chunks := by
  unfold writeSourceSessionChunks at done
  dsimp only at done
  cases stored : db.upsertSourceSessionChunks session.sourceId session.externalSessionId chunks with
  | none =>
      rw [stored] at done
      cases done
  | some replaced =>
      rw [stored] at done
      cases done
      exact ⟨MetadataDb.storedChunks_of_upsert stored, rfl⟩

theorem backfilled_chunks_of_ok
    (done : sourceSessionChunksOrBackfill env db session = (.ok used, written)) :
    written.storedChunks session.sourceId session.externalSessionId = used ∧
      (db.storedChunks session.sourceId session.externalSessionId ≠ [] →
        used = db.storedChunks session.sourceId session.externalSessionId) ∧
      (db.storedChunks session.sourceId session.externalSessionId = [] →
        env.formatSourceSessionChunks session.sourceId session.externalSessionId
          session.sourcePath = some used) := by
  have stored : (db.listSourceSessionChunks session.sourceId session.externalSessionId).filterMap
      (fun row => ActivityChunk.decode row.rawJson) =
        db.storedChunks session.sourceId session.externalSessionId := rfl
  unfold sourceSessionChunksOrBackfill at done
  dsimp only at done
  rw [stored] at done
  cases held : db.storedChunks session.sourceId session.externalSessionId with
  | cons first rest =>
      rw [held] at done
      cases done
      exact ⟨held, fun _ => rfl, fun absent => nomatch absent⟩
  | nil =>
      rw [held] at done
      cases formatted : env.formatSourceSessionChunks session.sourceId session.externalSessionId
          session.sourcePath with
      | none =>
          rw [formatted] at done
          cases done
      | some chunks =>
          rw [formatted] at done
          dsimp only [List.isEmpty_nil, if_true] at done
          cases chunks with
          | nil =>
              cases done
              exact ⟨held, fun some_stored => absurd rfl some_stored, fun _ => rfl⟩
          | cons first rest =>
              obtain ⟨stored, rfl⟩ := written_chunks_of_ok done
              exact ⟨stored, fun some_stored => absurd rfl some_stored, fun _ => rfl⟩

theorem reindexed_chunks_of_ok (done : reindexSourceSession env db session = (.ok used, written)) :
    written.storedChunks session.sourceId session.externalSessionId = used ∧
      env.formatSourceSessionChunks session.sourceId session.externalSessionId
        session.sourcePath = some used := by
  unfold reindexSourceSession at done
  cases upserted : db.upsertSourceSession env.now session with
  | none =>
      rw [upserted] at done
      cases done
  | some indexed =>
      rw [upserted] at done
      dsimp only at done
      cases formatted : env.formatSourceSessionChunks session.sourceId session.externalSessionId
          session.sourcePath with
      | none =>
          rw [formatted] at done
          cases done
      | some chunks =>
          rw [formatted] at done
          obtain ⟨stored, rfl⟩ := written_chunks_of_ok done
          exact ⟨stored, rfl⟩

/-- The chunks of a session that is indexed are the stored ones, when they are trusted, and those
of its transcript otherwise; either way they are stored then. -/
theorem indexed_chunks_of_ok (done : indexSourceSession env db session = (.ok used, written)) :
    written.storedChunks session.sourceId session.externalSessionId = used ∧
      (TrustsStored db session →
        used = db.storedChunks session.sourceId session.externalSessionId) ∧
      (¬ TrustsStored db session →
        env.formatSourceSessionChunks session.sourceId session.externalSessionId
          session.sourcePath = some used) := by
  unfold indexSourceSession at done
  by_cases same : unchanged (db.getSourceSession session.sourceId session.externalSessionId)
      session = true
  · rw [if_pos same] at done
    obtain ⟨stored, trusted, formatted⟩ := backfilled_chunks_of_ok done
    have touched : (db.touchSourceSessionLastSeen env.now session.sourceId
        session.externalSessionId session.lastSeenAt).storedChunks session.sourceId
        session.externalSessionId = db.storedChunks session.sourceId session.externalSessionId := rfl
    rw [touched] at trusted formatted
    refine ⟨stored, fun trusts => trusted trusts.2, ?_⟩
    intro distrusts
    apply formatted
    by_contra held
    exact distrusts ⟨same, held⟩
  · rw [if_neg same] at done
    obtain ⟨stored, formatted⟩ := reindexed_chunks_of_ok done
    exact ⟨stored, fun trusts => absurd trusts.1 same, fun _ => formatted⟩

end Index

/-! ## Refreshes of a file -/

/-- A refresh of the source of one file: the file as it is then, and what of the refresh fails.
The file may be passed over, and formatting it may fail, but nothing else is listed and
nothing else comes of its content. -/
structure FileRefresh (sourceId externalSessionId : String) where
  env : RefreshEnv
  faults : RefreshWrite → Option RefreshError
  repoId : String
  profile : SourceProfile
  limit : Option Nat
  since : Option String
  session : NativeSourceSession
  chunks : List ActivityChunk
  ofSource : profile.name = sourceId
  ofFile : session.externalSessionId = externalSessionId
  lists : ∀ sessions, env.listSourceSessions profile limit since = some sessions →
    sessions = [] ∨ sessions = [session]
  formats : ∀ yielded,
    env.formatSourceSessionChunks sourceId externalSessionId (some session.path) = some yielded →
      yielded = chunks

namespace FileRefresh
variable {sourceId externalSessionId : String}

section Refresh
variable (rfc3339 : DateTime → String) (newV5 : String → Uuid)
  (run : FileRefresh sourceId externalSessionId) (state : HistoryState)

def refresh : Except RefreshError (RefreshStats × Option String) × HistoryState :=
  refreshSingleProfileWith rfc3339 newV5 run.env run.faults run.repoId run.profile run.limit run.since
    state

def Completes : Prop := ∃ counted, (run.refresh rfc3339 newV5 state).1 = .ok counted

def upsert : SourceSessionUpsert := sourceSessionUpsert rfc3339 run.env run.profile run.session

/-- The refresh does not pass the file over. -/
def Lists : Prop := run.env.listSourceSessions run.profile run.limit run.since = some [run.session]

/-- The chunks of the file are stored for its session, and under the event that was appended. -/
structure LeavesCurrent : Prop where
  stored : (run.refresh rfc3339 newV5 state).2.metadataDb.storedChunks sourceId externalSessionId =
    run.chunks
  appended : run.Lists → ∃ record,
    (run.refresh rfc3339 newV5 state).2.metadataDb.getSourceSession sourceId externalSessionId =
      some record ∧
    ((run.refresh rfc3339 newV5 state).2.eventStore.chunkRows
      (sourceSessionEventId newV5 record.toSourceSessionUpsert)).map (·.raw) =
        run.chunks.map ActivityChunk.encode

/-- The stored chunks are those of the file already, or the refresh lists the file and does not
trust them. -/
def FindsCurrent : Prop :=
  state.metadataDb.storedChunks sourceId externalSessionId = run.chunks ∨
    run.Lists ∧ ¬ TrustsStored state.metadataDb (run.upsert rfc3339)

end Refresh

variable {rfc3339 : DateTime → String} {newV5 : String → Uuid}
  {run : FileRefresh sourceId externalSessionId} {state : HistoryState}

/-- A refresh that completes passes the file over and leaves the databases, or takes its turn. -/
theorem completes_cases (completes : run.Completes rfc3339 newV5 state) :
    ¬ run.Lists ∧ (run.refresh rfc3339 newV5 state).2 = state ∨
      run.Lists ∧ (refreshSession rfc3339 newV5 run.env run.repoId run.profile (.start state)
          run.session).1 = .ok () ∧
        (run.refresh rfc3339 newV5 state).2 = (refreshSession rfc3339 newV5 run.env run.repoId
          run.profile (.start state) run.session).2.toHistoryState := by
  obtain ⟨counted, completed⟩ := completes
  unfold Lists
  unfold refresh at completed ⊢
  have plain := refreshSingleProfileWith_of_ok completed
  rw [← plain] at completed ⊢
  cases listed : run.env.listSourceSessions run.profile run.limit run.since with
  | none =>
      unfold refreshSingleProfile at completed
      rw [listed] at completed
      cases completed
  | some sessions =>
      obtain ⟨reached, succeeds⟩ := refreshSingleProfile_sessions rfc3339 newV5 run.repoId listed state
      rcases run.lists sessions listed with rfl | rfl
      · refine Or.inl ⟨(fun same => nomatch same), ?_⟩
        exact reached
      · rw [Loops.forEach_singleton] at reached succeeds
        exact Or.inr ⟨rfl, succeeds counted completed, reached⟩

/-- A refresh that completes leaves the chunks of the file exactly when it found them, or did not
trust what it found. -/
theorem leavesCurrent_iff (completes : run.Completes rfc3339 newV5 state) :
    run.LeavesCurrent rfc3339 newV5 state ↔ run.FindsCurrent rfc3339 state := by
  rcases completes_cases completes with ⟨passedOver, same⟩ | ⟨listed, succeeded, reached⟩
  · constructor
    · intro leaves
      have stored := leaves.stored
      rw [same] at stored
      exact Or.inl stored
    · intro finds
      refine ⟨?_, fun listed => absurd listed passedOver⟩
      rw [same]
      exact finds.resolve_right fun found => passedOver found.1
  · obtain ⟨record, used, indexing, found, appended⟩ := refreshSession_indexes_of_ok succeeded
    obtain ⟨stored, trusted, formatted⟩ := indexed_chunks_of_ok indexing
    have ofSource : (sourceSessionUpsert rfc3339 run.env run.profile run.session).sourceId =
        sourceId := run.ofSource
    have ofFile : (sourceSessionUpsert rfc3339 run.env run.profile run.session).externalSessionId =
        externalSessionId := run.ofFile
    have start : (ProfileRefresh.start state).metadataDb = state.metadataDb := rfl
    rw [ofSource, ofFile] at stored trusted formatted found
    rw [start] at trusted formatted
    constructor
    · intro leaves
      by_cases trusts : TrustsStored state.metadataDb (run.upsert rfc3339)
      · have kept := leaves.stored
        rw [reached] at kept
        exact Or.inl ((trusted trusts).symm.trans (stored.symm.trans kept))
      · exact Or.inr ⟨listed, trusts⟩
    · intro finds
      have current : used = run.chunks := by
        by_cases trusts : TrustsStored state.metadataDb (run.upsert rfc3339)
        · rw [trusted trusts]
          exact finds.resolve_right fun found => found.2 trusts
        · exact run.formats used (formatted trusts)
      have rows := chunkRows_of_append_built appended
      refine ⟨?_, fun _ => ⟨record, ?_, ?_⟩⟩
      · rw [reached]
        exact stored.trans current
      · rw [reached]
        exact found
      · rw [reached, ← current]
        exact rows

/-! ## Sequences of refreshes -/

def next (rfc3339 : DateTime → String) (newV5 : String → Uuid) (state : HistoryState)
    (run : FileRefresh sourceId externalSessionId) : HistoryState :=
  (run.refresh rfc3339 newV5 state).2

/-- Along every sequence of refreshes of a file, whatever fails in them, those that complete leave
the chunks of the file exactly when each of them found those, or did not trust what it found. -/
theorem completed_leave_current_iff (state : HistoryState)
    (runs : List (FileRefresh sourceId externalSessionId)) :
    Runs.Meets (next rfc3339 newV5) (fun reached run =>
        run.Completes rfc3339 newV5 reached → run.LeavesCurrent rfc3339 newV5 reached) state runs ↔
      Runs.Meets (next rfc3339 newV5) (fun reached run =>
        run.Completes rfc3339 newV5 reached → run.FindsCurrent rfc3339 reached) state runs := by
  constructor
  · intro leave
    apply Runs.meets_mono _ _ leave
    intro reached run leaves completes
    exact (leavesCurrent_iff completes).mp (leaves completes)
  · intro find
    apply Runs.meets_mono _ _ find
    intro reached run finds completes
    exact (leavesCurrent_iff completes).mpr (finds completes)

end FileRefresh

/-! ## A transcript that grows while a refresh fails -/

def messageChunk (chunkId : String) : ActivityChunk where
  chunkId := chunkId
  sessionId := "session-1"
  actionType := "assistant"
  function := "message"
  args := .object []
  result := .object [("content", .string chunkId)]
  createdAt := "1970-01-01T00:00:00Z"
  threadId := none
  processId := none
  sourceId := some "claude_code"
  sourcePath := none
  sourceRecordKey := none
  sourceLineNumber := none
  sourceMessageId := none
  sourcePartId := none

/-- A transcript of a message, and the same transcript a minute later with a second one. -/
def shortTranscript : NativeSourceSession := sessionIn "/work/a"

def longTranscript : NativeSourceSession :=
  { sessionIn "/work/a" with modifiedAt := some ⟨60000000000⟩, sizeBytes := 20 }

/-- A refresh that finds a transcript, and can format it or cannot. -/
def transcriptRefresh (second : Int) (session : NativeSourceSession) (chunks : List ActivityChunk)
    (formats : Bool) (ofFile : session.externalSessionId = "session-1") :
    FileRefresh "claude_code" "session-1" where
  env := { (refreshFrom "repo-a" second session).env with
    formatSourceSessionChunks := fun _ _ _ => if formats then some chunks else none }
  faults := fun _ => none
  repoId := "repo-a"
  profile := claudeCode
  limit := some 100
  since := none
  session := session
  chunks := chunks
  ofSource := rfl
  ofFile := ofFile
  lists := fun sessions listed => Or.inr (Option.some.inj listed).symm
  formats := by
    intro yielded formatted
    cases formats with
    | true => exact (Option.some.inj formatted).symm
    | false => cases formatted

def shortRefresh : FileRefresh "claude_code" "session-1" :=
  transcriptRefresh 60 shortTranscript [messageChunk "chunk-1"] true rfl

def longRefresh (second : Int) (formats : Bool) : FileRefresh "claude_code" "session-1" :=
  transcriptRefresh second longTranscript [messageChunk "chunk-1", messageChunk "chunk-2"] formats rfl

/-- The UUIDs of the names that these refreshes make one of. -/
def growingUuid (name : String) : Uuid :=
  if name = "brick:source-session-observed-v2:claude_code:session-1:1970-01-01T00:00:00+00:00:10:claude-code-jsonl-v4:claude-code-jsonl-v4"
  then ⟨0x94ec0220d7ea5cf8bd2710030959a380⟩
  else ⟨0x9f625a53bc6b5d1a92408285d505d6d3⟩

def afterFailedRefresh : HistoryState :=
  Runs.run (FileRefresh.next clockText growingUuid) emptyHistory [shortRefresh, longRefresh 120 false]

theorem failed_formatting_leaves_old_chunks :
    (longRefresh 180 true).Completes clockText growingUuid afterFailedRefresh ∧
      ¬ Runs.Meets (FileRefresh.next clockText growingUuid) (fun reached run =>
          run.Completes clockText growingUuid reached →
            run.LeavesCurrent clockText growingUuid reached) emptyHistory
        [shortRefresh, longRefresh 120 false, longRefresh 180 true] := by
  obtain ⟨succeeds, stored⟩ :
      ((longRefresh 180 true).refresh clockText growingUuid afterFailedRefresh).1.isOk = true ∧
        (((longRefresh 180 true).refresh clockText growingUuid
          afterFailedRefresh).2.metadataDb.storedChunks "claude_code" "session-1").length = 1 := by
    decide +kernel
  have completes : (longRefresh 180 true).Completes clockText growingUuid afterFailedRefresh :=
    Fallible.exists_ok_of_isOk succeeds
  refine ⟨completes, ?_⟩
  intro leave
  have leaves : (longRefresh 180 true).LeavesCurrent clockText growingUuid afterFailedRefresh :=
    leave.2.2.1 completes
  rw [leaves.stored] at stored
  exact absurd stored (by decide)

end BrickTrace
