import BrickTrace.Lib.Rfc3339RoundTrip
import BrickTrace.Core.LogOrder
import BrickTrace.Core.SourceSessionEvent
import BrickTrace.Sync.FailedPull

/-!
# Rows on the pulling side

The row of a session goes through the payload of its event and back into a row.  What
the payload does not carry is filled in by the pulling side: every pulled session is
listable there, whatever it was where it was indexed.
-/

set_option autoImplicit false

namespace BrickTrace

open KeyedRows (KeyedTable)

/-! ## Times -/

/-- The instant of a timestamp, to the nanosecond. -/
def parseRfc3339 (text : String) : Option DateTime :=
  (Rfc3339.instant text).map fun seconds =>
    let epoch : Nat := 86400 * Rfc3339.daysBeforeYear 1970
    ⟨((seconds - (epoch : Rat)) * 1000000000).floor⟩

theorem parseRfc3339_toRfc3339 {time : DateTime} (year : time.HasFourDigitYear) :
    parseRfc3339 (toRfc3339 time) = some time := by
  unfold parseRfc3339 toRfc3339
  rw [Rfc3339.instant_printed year]
  dsimp only [Option.map_some]
  rw [add_sub_cancel_right, div_mul_cancel₀ _ (by norm_num), Rat.floor_intCast]

/-- A time that is printed in the payload of an event is the one that is read there. -/
theorem printed_time {time : Option DateTime} (year : ∀ held ∈ time, held.HasFourDigitYear) :
    (time.map toRfc3339).bind parseRfc3339 = time := by
  cases time with
  | none => rfl
  | some held =>
      rw [Option.map_some, Option.bind_some]
      exact parseRfc3339_toRfc3339 (year held rfl)

/-! ## Rows -/

/-- A row that an index can hold: its counts fit their columns, the files that it touched
are texts, and its times are in years of four digits. -/
structure SourceSessionUpsert.Indexed (row : SourceSessionUpsert) : Prop where
  counts : (MetadataDb.counts row).all MetadataDb.fitsInteger = true
  touchedFiles : ∀ json ∈ row.touchedFilesJson, ∃ files : List String,
    json = .array (files.map .string)
  sourceMtime : ∀ time ∈ row.sourceMtime, time.HasFourDigitYear
  sessionCreatedAt : ∀ time ∈ row.sessionCreatedAt, time.HasFourDigitYear
  sessionUpdatedAt : ∀ time ∈ row.sessionUpdatedAt, time.HasFourDigitYear

/-- The rows agree in every column, but for the name of a session that had none and the
times of the bookkeeping.  No files are an empty list of them. -/
def SourceSessionRecord.FaithfulTo (pulled original : SourceSessionRecord) : Prop :=
  pulled =
    { original with
      name := original.name.or pulled.name
      touchedFilesJson := some (original.touchedFilesJson.getD (.array []))
      discoveredAt := pulled.discoveredAt
      lastSeenAt := pulled.lastSeenAt
      createdAt := pulled.createdAt
      updatedAt := pulled.updatedAt }

/-- What a pulling side takes a row for. -/
def pulledUpsert (now : DateTime) (row : SourceSessionUpsert) : SourceSessionUpsert :=
  { row with
    name := row.name.or row.title
    touchedFilesJson := some (row.touchedFilesJson.getD (.array []))
    listable := true
    discoveredAt := now
    lastSeenAt := now
    metadataJson := SourceSessionObservedPayload.notNull row.metadataJson }

theorem notNull_eq_iff (value : Option Json) :
    SourceSessionObservedPayload.notNull value = value ↔ value ≠ some .null := by
  constructor
  · rintro kept rfl
    cases kept
  · intro differs
    unfold SourceSessionObservedPayload.notNull
    split
    · exact absurd rfl differs
    · rfl

theorem pulledUpsert_faithful_iff (now createdAt : DateTime) (original : SourceSessionRecord) :
    SourceSessionRecord.FaithfulTo { pulledUpsert now original.toSourceSessionUpsert with
        createdAt := createdAt, updatedAt := now } original ↔
      original.listable = true ∧ original.metadataJson ≠ some .null := by
  have name : original.name.or (original.name.or original.title) =
      original.name.or original.title := by
    cases original.name <;> rfl
  unfold SourceSessionRecord.FaithfulTo pulledUpsert
  dsimp only
  rw [name, ← notNull_eq_iff]
  constructor
  · intro faithful
    have listable := congrArg (fun record => record.listable) faithful
    have metadata := congrArg (fun record => record.metadataJson) faithful
    exact ⟨listable.symm, metadata⟩
  · rintro ⟨listable, metadata⟩
    rw [metadata, listable]

theorem touchedFiles_read {touched : Option Json}
    (texts : ∀ json ∈ touched, ∃ files : List String, json = .array (files.map .string)) :
    Json.array (((touched.map textItems).getD []).map .string) = touched.getD (.array []) := by
  cases touched with
  | none => rfl
  | some json =>
      obtain ⟨files, rfl⟩ := texts json rfl
      have read : (files.map Json.string).filterMap Json.decodeString = files := by
        rw [List.filterMap_map]
        exact List.filterMap_some
      change Json.array (((files.map Json.string).filterMap Json.decodeString).map .string) = _
      rw [read]
      rfl

theorem sourceSessionUpsertFromPayload_readBack (now : DateTime) {row : SourceSessionUpsert}
    (indexed : row.Indexed) (chunks : List Json) :
    sourceSessionUpsertFromPayload parseRfc3339 now
        { sourceSessionPayload toRfc3339 row with
          normalizedChunks := chunks
          metadataJson := SourceSessionObservedPayload.notNull row.metadataJson } =
      pulledUpsert now row := by
  unfold sourceSessionUpsertFromPayload sourceSessionPayload pulledUpsert
  dsimp only
  rw [printed_time indexed.sourceMtime, printed_time indexed.sessionCreatedAt,
    printed_time indexed.sessionUpdatedAt, touchedFiles_read indexed.touchedFiles]

/-! ## The pull -/

theorem MetadataDb.sessions_of_upsertSourceSessionChunks {sourceId externalSessionId : String}
    {chunks : List ActivityChunk} {db written : MetadataDb}
    (upserted : db.upsertSourceSessionChunks sourceId externalSessionId chunks = some written) :
    written.sessions = db.sessions := by
  unfold upsertSourceSessionChunks at upserted
  split at upserted
  · cases upserted
  · split at upserted
    · dsimp only at upserted
      split at upserted
      · cases upserted
      · cases upserted
        rfl
    · cases upserted

/-- The row that an upsert leaves keeps the time of the first one. -/
theorem MetadataDb.getSourceSession_of_upsert {now : DateTime} {session : SourceSessionUpsert}
    {db written : MetadataDb} (upserted : db.upsertSourceSession now session = some written) :
    ∃ createdAt, written.getSourceSession session.sourceId session.externalSessionId =
      some { session with createdAt := createdAt, updatedAt := now } := by
  unfold upsertSourceSession at upserted
  split at upserted
  · cases upserted
    refine ⟨((db.getSourceSession session.sourceId session.externalSessionId).map
      (·.createdAt)).getD now, ?_⟩
    refine KeyedTable.find_upsert_self.trans ?_
    change some (((db.getSourceSession session.sourceId session.externalSessionId).map _).getD _) = _
    cases db.getSourceSession session.sourceId session.externalSessionId <;> rfl
  · cases upserted

/-- Whatever becomes of its chunks, an ingested session leaves its row. -/
theorem sessions_of_ingested {parseRfc3339 : String → Option DateTime} {now : DateTime}
    {db written : MetadataDb} {event : TraceEvent} {payload : SourceSessionObservedPayload}
    (type : event.eventType = .sourceSessionObserved)
    (decoded : SourceSessionObservedPayload.decode event.payload = some payload)
    (upserted : db.upsertSourceSession now (sourceSessionUpsertFromPayload parseRfc3339 now payload) =
      some written) :
    (ingestPulledSourceSessions (brickMetadata parseRfc3339 now) db [event]).2.sessions =
      written.sessions := by
  have one : (ingestPulledSourceSessions (brickMetadata parseRfc3339 now) db [event]).2 =
      (ingestSourceSession (brickMetadata parseRfc3339 now) db event).2 := by
    unfold ingestPulledSourceSessions
    cases ingestSourceSession (brickMetadata parseRfc3339 now) db event with
    | mk result after => cases result <;> rfl
  have row : (brickMetadata parseRfc3339 now).upsertSourceSession payload db = some written :=
    upserted
  rw [one]
  unfold ingestSourceSession
  rw [if_neg (not_not.mpr type), decoded]
  dsimp only
  rw [row]
  dsimp only
  split
  · rfl
  · cases chunks : (brickMetadata parseRfc3339 now).upsertSourceSessionChunks payload written with
    | none => rfl
    | some after =>
        unfold brickMetadata at chunks
        dsimp only at chunks
        cases decodedChunks : payload.normalizedChunks.mapM ActivityChunk.decode with
        | none =>
            rw [decodedChunks] at chunks
            cases chunks
        | some decodedList =>
            rw [decodedChunks] at chunks
            exact MetadataDb.sessions_of_upsertSourceSessionChunks chunks

section Pull
variable {newV5 : String → Uuid} {builtAt now : DateTime} {freshSessionId : SessionId}
  {actor : ActorRef} {repoId : String} {chunks : List ActivityChunk}

/-- The row that a pull of the event of a session leaves. -/
theorem pulled_row {row : SourceSessionUpsert} (indexed : row.Indexed) (db : MetadataDb) :
    ∃ createdAt, (ingestPulledSourceSessions (brickMetadata parseRfc3339 now) db
      [buildSourceSessionEventWithChunks toRfc3339 newV5 builtAt freshSessionId actor row repoId
        chunks]).2.getSourceSession row.sourceId row.externalSessionId =
      some { pulledUpsert now row with createdAt := createdAt, updatedAt := now } := by
  have decoded := SourceSessionObservedPayload.decode_encode
    { sourceSessionPayload toRfc3339 row with
      normalizedChunks := chunks.map ActivityChunk.encode }
  have read := sourceSessionUpsertFromPayload_readBack now indexed
    (chunks.map ActivityChunk.encode)
  obtain ⟨written, upserted⟩ : ∃ written,
      db.upsertSourceSession now (pulledUpsert now row) = some written :=
    ⟨_, if_pos indexed.counts⟩
  obtain ⟨createdAt, found⟩ := MetadataDb.getSourceSession_of_upsert upserted
  refine ⟨createdAt, ?_⟩
  rw [← read] at upserted
  unfold MetadataDb.getSourceSession at found ⊢
  rw [sessions_of_ingested rfl decoded upserted]
  exact found

end Pull

/-! ## A session that is hidden where it was indexed -/

def indexedRow (listable : Bool) : SourceSessionRecord where
  sourceId := "cursor"
  externalSessionId := "composer-1"
  title := some "Fix the parser"
  name := none
  sourcePath := some "/home/ada/.cursor/state.vscdb"
  sourceUri := none
  sourceMtime := some ⟨1782122400250000000⟩
  sourceSize := some 4096
  sourceFingerprint := some "f1"
  parserVersion := some "1"
  sessionCreatedAt := none
  sessionUpdatedAt := some ⟨1782122400000000000⟩
  model := some "claude"
  inputTokens := some 10
  outputTokens := none
  repoPath := some "/home/ada/repo"
  branch := none
  filesChanged := some 1
  linesAdded := none
  linesRemoved := none
  touchedFilesJson := some (.array [.string "src/main.rs"])
  listable := listable
  discoveredAt := ⟨0⟩
  lastSeenAt := ⟨0⟩
  metadataJson := none
  createdAt := ⟨0⟩
  updatedAt := ⟨0⟩

theorem indexed_indexedRow (listable : Bool) : (indexedRow listable).Indexed where
  counts := by cases listable <;> decide
  touchedFiles := by
    rintro _ ⟨⟩
    exact ⟨["src/main.rs"], rfl⟩
  sourceMtime := by
    rintro _ ⟨⟩
    decide +kernel
  sessionCreatedAt := by
    rintro _ ⟨⟩
  sessionUpdatedAt := by
    rintro _ ⟨⟩
    decide +kernel

def indexingMachine : ActorRef := ⟨.system, "machine", none⟩

def pulledAlone (listable : Bool) : MetadataDb :=
  (ingestPulledSourceSessions (brickMetadata parseRfc3339 ⟨1⟩) .new
    [buildSourceSessionEventWithChunks toRfc3339 (fun _ => ⟨1⟩) ⟨1⟩ ⟨"session_1"⟩ indexingMachine
      (indexedRow listable).toSourceSessionUpsert "repo-a" []]).2

end BrickTrace
