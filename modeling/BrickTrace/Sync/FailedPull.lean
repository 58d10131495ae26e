import BrickTrace.Lib.Loops
import BrickTrace.Core.EventChunks
import BrickTrace.Core.MetadataDb
import BrickTrace.Sync.Client

/-!
# Pulls that fail

A pull takes the observed sessions into the metadata database one by one, each in
its own transactions, before it appends anything.  When one of them fails, the
sessions before it stay, and so may the row of the failing one; no event has been
appended then, and after the last of them no append can fail.
-/

set_option autoImplicit false

namespace BrickTrace

/-! ## The metadata database of a client -/

section Metadata
variable (parseRfc3339 : String → Option DateTime) (now : DateTime)

def sourceSessionUpsertFromPayload (payload : SourceSessionObservedPayload) :
    SourceSessionUpsert where
  sourceId := payload.sourceId
  externalSessionId := payload.externalSessionId
  title := payload.title
  name := payload.name.or payload.title
  sourcePath := payload.sourcePath
  sourceUri := payload.sourceUri
  sourceMtime := payload.sourceMtime.bind parseRfc3339
  sourceSize := payload.sourceSize
  sourceFingerprint := payload.sourceFingerprint
  parserVersion := payload.parserVersion
  sessionCreatedAt := payload.sessionCreatedAt.bind parseRfc3339
  sessionUpdatedAt := payload.sessionUpdatedAt.bind parseRfc3339
  model := payload.model
  inputTokens := payload.inputTokens
  outputTokens := payload.outputTokens
  repoPath := payload.repoPath
  branch := payload.branch
  filesChanged := payload.filesChanged
  linesAdded := payload.linesAdded
  linesRemoved := payload.linesRemoved
  touchedFilesJson := some (.array (payload.touchedFiles.map .string))
  listable := true
  discoveredAt := now
  lastSeenAt := now
  metadataJson := payload.metadataJson

/-- A chunk that does not decode fails the upsert of the chunks. -/
def brickMetadata : MetadataOps MetadataDb where
  upsertSourceSession payload db :=
    db.upsertSourceSession now (sourceSessionUpsertFromPayload parseRfc3339 now payload)
  upsertSourceSessionChunks payload db :=
    match payload.normalizedChunks.mapM ActivityChunk.decode with
    | none => none
    | some chunks =>
        db.upsertSourceSessionChunks payload.sourceId payload.externalSessionId chunks

end Metadata

/-! ## Ingesting -/

section Ingest
variable {Db : Type} {metadata : MetadataOps Db}

theorem ingestPulledSourceSessions_eq (metadataDb : Db) (events : List TraceEvent) :
    ingestPulledSourceSessions metadata metadataDb events =
      Loops.forEach (ingestSourceSession metadata) metadataDb events := by
  induction events generalizing metadataDb with
  | nil => rfl
  | cons event rest ih =>
      unfold ingestPulledSourceSessions Loops.forEach
      cases ingestSourceSession metadata metadataDb event with
      | mk result written =>
          cases result with
          | error failure => rfl
          | ok _ => exact ih written

/-- Ingesting an event needs its payload to decode, like appending it. -/
theorem storable_of_ingested {metadataDb : Db} {event : TraceEvent}
    (ingested : (ingestSourceSession metadata metadataDb event).1 = .ok ()) : event.Storable := by
  intro type
  unfold ingestSourceSession at ingested
  rw [if_neg (not_not.mpr type)] at ingested
  cases decoded : SourceSessionObservedPayload.decode event.payload with
  | none =>
      rw [decoded] at ingested
      cases ingested
  | some payload => exact ⟨payload, rfl⟩

/-- A session that fails to be ingested leaves its row at most. -/
theorem ingestSourceSession_error {metadataDb written : Db} {event : TraceEvent}
    {failure : SyncError}
    (failed : ingestSourceSession metadata metadataDb event = (.error failure, written)) :
    event.eventType = .sourceSessionObserved ∧
      (written = metadataDb ∨
        ∃ payload, SourceSessionObservedPayload.decode event.payload = some payload ∧
          metadata.upsertSourceSession payload metadataDb = some written) := by
  unfold ingestSourceSession at failed
  split at failed
  · cases failed
  · rename_i type
    refine ⟨not_not.mp type, ?_⟩
    cases decoded : SourceSessionObservedPayload.decode event.payload with
    | none =>
        rw [decoded] at failed
        cases failed
        exact Or.inl rfl
    | some payload =>
        rw [decoded] at failed
        dsimp only at failed
        cases upserted : metadata.upsertSourceSession payload metadataDb with
        | none =>
            rw [upserted] at failed
            cases failed
            exact Or.inl rfl
        | some rowWritten =>
            rw [upserted] at failed
            dsimp only at failed
            split at failed
            · cases failed
            · cases chunks : metadata.upsertSourceSessionChunks payload rowWritten with
              | none =>
                  rw [chunks] at failed
                  cases failed
                  exact Or.inr ⟨payload, rfl, upserted⟩
              | some chunksWritten =>
                  rw [chunks] at failed
                  cases failed

end Ingest

theorem LocalEventStore.appendEvents_ok_of_storable {rfc3339 : DateTime → String}
    {repoId : String} {events : List TraceEvent} (storable : ∀ event ∈ events, event.Storable)
    (store : LocalEventStore) : (store.appendEvents rfc3339 repoId events).1 = .ok () := by
  induction events generalizing store with
  | nil => rfl
  | cons event rest ih =>
      obtain ⟨first, later⟩ := List.forall_mem_cons.mp storable
      obtain ⟨grown, appended⟩ : ∃ grown, store.appendEvent rfc3339 repoId event = .ok grown :=
        LocalEventStore.appendEvent_ok_of_storable first
      unfold appendEvents
      rw [appended]
      exact ih later grown

/-! ## The pull -/

section Pull
variable {rfc3339 : DateTime → String} {repoId : String} {remote : List TraceEvent}
  {failure : SyncError}

/-- A pull can fail only while it ingests. -/
theorem pullEvents_error {Db : Type} {metadata : MetadataOps Db} {replica : Replica Db}
    (failed : (pullEvents rfc3339 metadata replica repoId remote false).1 = .error failure) :
    let ingested := ingestPulledSourceSessions metadata replica.metadataDb
      (replica.eventStore.dedupeRemoteEvents repoId remote)
    ingested.1 = .error failure ∧
      (pullEvents rfc3339 metadata replica repoId remote false).2 =
        { replica with metadataDb := ingested.2 } := by
  unfold pullEvents at failed ⊢
  simp only [Bool.false_eq_true, if_false] at failed ⊢
  generalize replica.eventStore.dedupeRemoteEvents repoId remote = pulled at failed ⊢
  cases ingested : ingestPulledSourceSessions metadata replica.metadataDb pulled with
  | mk result metadataDb =>
      rw [ingested] at failed
      cases result with
      | error reason =>
          cases failed
          exact ⟨rfl, rfl⟩
      | ok _ =>
          -- every payload has been decoded, so the appends go through
          have taken : (Loops.forEach (ingestSourceSession metadata) replica.metadataDb pulled).1 =
              .ok () := by
            rw [← ingestPulledSourceSessions_eq, ingested]
          have storable : ∀ event ∈ pulled, event.Storable :=
            Loops.forEach_all (fun _ _ => storable_of_ingested) taken
          have appends : (replica.eventStore.appendEvents rfc3339 repoId pulled).1 = .ok () :=
            LocalEventStore.appendEvents_ok_of_storable storable replica.eventStore
          dsimp only at failed
          split at failed
          · cases failed
          · unfold LocalEventStore.appendRemoteEvents at failed
            dsimp only at failed
            rw [appends] at failed
            cases failed

/-- A failed pull changes no event.  It leaves the sessions of the events before the
failing one, ingested in order, and of the failing one its row at most. -/
theorem failed_pull_leaves_sessions_before (parseRfc3339 : String → Option DateTime)
    (now : DateTime) {replica : Replica MetadataDb}
    (failed : (pullEvents rfc3339 (brickMetadata parseRfc3339 now) replica repoId remote
      false).1 = .error failure) :
    let final := (pullEvents rfc3339 (brickMetadata parseRfc3339 now) replica repoId remote false).2
    final.eventStore = replica.eventStore ∧
      ∃ before event after,
        replica.eventStore.dedupeRemoteEvents repoId remote = before ++ event :: after ∧
        event.eventType = .sourceSessionObserved ∧
        let ingested := ingestPulledSourceSessions (brickMetadata parseRfc3339 now)
          replica.metadataDb before
        ingested.1 = .ok () ∧
          (final.metadataDb = ingested.2 ∨
            ∃ payload, SourceSessionObservedPayload.decode event.payload = some payload ∧
              ingested.2.upsertSourceSession now
                (sourceSessionUpsertFromPayload parseRfc3339 now payload) =
                  some final.metadataDb ∧
              final.metadataDb.chunks = ingested.2.chunks) := by
  obtain ⟨stopped, became⟩ := pullEvents_error failed
  rw [became]
  dsimp only
  refine ⟨rfl, ?_⟩
  rw [ingestPulledSourceSessions_eq] at stopped ⊢
  obtain ⟨before, event, after, split, taken, failing⟩ := Loops.forEach_error stopped
  obtain ⟨type, written⟩ := ingestSourceSession_error failing
  refine ⟨before, event, after, split, type, ?_⟩
  rw [ingestPulledSourceSessions_eq]
  refine ⟨taken, ?_⟩
  rcases written with same | ⟨payload, decoded, upserted⟩
  · exact Or.inl same
  · exact Or.inr ⟨payload, decoded, upserted, MetadataDb.chunks_of_upsertSourceSession upserted⟩

end Pull

def emptyClient : Replica MetadataDb := ⟨.new "brick.sqlite", .new⟩

/-- A session that decodes, and one whose payload does not. -/
def secondUndecodable : List TraceEvent :=
  [{ observedSession [] with repoId := some "repo-a" },
    { observedSession [] with eventId := ⟨2⟩, repoId := some "repo-a", payload := .null }]

def failingPull : Except SyncError PullOutcome × Replica MetadataDb :=
  pullEvents (fun _ => "2026-06-26T00:00:00+00:00") (brickMetadata (fun _ => none) ⟨0⟩) emptyClient
    "repo-a" secondUndecodable false

theorem failing_pull_keeps_first_session :
    failingPull.1 = .error (.undecodablePayload ⟨2⟩) ∧
      failingPull.2.metadataDb.sessions.rows ≠ emptyClient.metadataDb.sessions.rows :=
  ⟨rfl, List.cons_ne_nil _ _⟩

theorem failing_pull_leaves_events :
    failingPull.1 = .error (.undecodablePayload ⟨2⟩) ∧
      failingPull.2.eventStore = emptyClient.eventStore := by
  have failed : failingPull.1 = .error (.undecodablePayload ⟨2⟩) := rfl
  exact ⟨failed, (failed_pull_leaves_sessions_before (fun _ => none) ⟨0⟩ failed).1⟩

end BrickTrace
