import BrickTrace.Lib.JsonFields
import BrickTrace.Core.SourceSessionEvent

/-!
# The chunks of a session, stored and appended

A chunk is stored as the object that it is written to, and reads back as it was.  The
chunks of a session are replaced as a whole and listed in the order they were written in;
those of its event stand under the event in the same way.
-/

set_option autoImplicit false

namespace BrickTrace

open Json
open KeyedRows (KeyedTable)

/-! ## Chunks as objects -/

namespace ActivityChunk

/-- The fields in the order in which they are written. -/
def fields (chunk : ActivityChunk) : List (String × Option Json) :=
  [("chunk_id", some (.string chunk.chunkId)), ("session_id", some (.string chunk.sessionId)),
    ("action_type", some (.string chunk.actionType)), ("function", some (.string chunk.function)),
    ("args", some chunk.args), ("result", some chunk.result),
    ("created_at", some (.string chunk.createdAt)),
    ("thread_id", chunk.threadId.map .string), ("process_id", chunk.processId.map .string),
    ("source_id", chunk.sourceId.map .string), ("source_path", chunk.sourcePath.map .string),
    ("source_record_key", chunk.sourceRecordKey.map .string),
    ("source_line_number", chunk.sourceLineNumber.map encodeU64),
    ("source_message_id", chunk.sourceMessageId.map .string),
    ("source_part_id", chunk.sourcePartId.map .string)]

theorem encode_eq (chunk : ActivityChunk) :
    chunk.encode = .object (fieldEntries (written chunk.fields)) := rfl

theorem lookup_encode (chunk : ActivityChunk) {name : String} {value : Option Json}
    (member : (name, value) ∈ chunk.fields) :
    (fieldEntries (written chunk.fields)).lookup name = value := by
  have distinct : (chunk.fields.map Prod.fst).Nodup := by
    change List.Nodup ["chunk_id", "session_id", "action_type", "function", "args", "result",
      "created_at", "thread_id", "process_id", "source_id", "source_path", "source_record_key",
      "source_line_number", "source_message_id", "source_part_id"]
    decide
  rw [lookup_fieldEntries (distinct.sublist (names_written_sublist _)), lookup_written distinct member]

theorem requiredIn_encode (chunk : ActivityChunk) {A : Type} {name : String} {json : Json}
    {decode : Json → Option A} {value : A} (member : (name, some json) ∈ chunk.fields)
    (reads : decode json = some value) :
    requiredIn (fieldEntries (written chunk.fields)) name decode = some value := by
  unfold requiredIn
  rw [chunk.lookup_encode member]
  exact reads

theorem optionalIn_encode (chunk : ActivityChunk) {A : Type} {name : String} {encode : A → Json}
    {decode : Json → Option A} {value : Option A}
    (member : (name, value.map encode) ∈ chunk.fields)
    (reads : ∀ value, decodeNullable decode (encode value) = some (some value)) :
    optionalIn (fieldEntries (written chunk.fields)) name decode = some value := by
  unfold optionalIn
  rw [chunk.lookup_encode member]
  cases value with
  | none => rfl
  | some held => exact reads held

/-- A chunk reads back as it was written. -/
theorem decode_encode (chunk : ActivityChunk) : decode chunk.encode = some chunk := by
  have required : ∀ (name text : String), (name, some (.string text)) ∈ chunk.fields →
      requiredIn (fieldEntries (written chunk.fields)) name decodeString = some text :=
    fun _ _ member => chunk.requiredIn_encode member rfl
  have value : ∀ (name : String) (json : Json), (name, some json) ∈ chunk.fields →
      requiredIn (fieldEntries (written chunk.fields)) name decodeValue = some json :=
    fun _ _ member => chunk.requiredIn_encode member rfl
  have optional : ∀ (name : String) (text : Option String),
      (name, text.map .string) ∈ chunk.fields →
        optionalIn (fieldEntries (written chunk.fields)) name decodeString = some text :=
    fun _ _ member => chunk.optionalIn_encode member fun _ => rfl
  have number : ("source_line_number", chunk.sourceLineNumber.map encodeU64) ∈ chunk.fields := by
    simp [fields]
  have lineNumber : optionalIn (fieldEntries (written chunk.fields)) "source_line_number" decodeU64 =
      some chunk.sourceLineNumber :=
    chunk.optionalIn_encode number fun _ => rfl
  rw [encode_eq]
  unfold decode decodeRecord
  dsimp only
  simp only [required_bind_named, optional_bind_named, Option.bind_some, lineNumber,
    required "chunk_id" chunk.chunkId (by simp [fields]),
    required "session_id" chunk.sessionId (by simp [fields]),
    required "action_type" chunk.actionType (by simp [fields]),
    required "function" chunk.function (by simp [fields]),
    value "args" chunk.args (by simp [fields]),
    value "result" chunk.result (by simp [fields]),
    required "created_at" chunk.createdAt (by simp [fields]),
    optional "thread_id" chunk.threadId (by simp [fields]),
    optional "process_id" chunk.processId (by simp [fields]),
    optional "source_id" chunk.sourceId (by simp [fields]),
    optional "source_path" chunk.sourcePath (by simp [fields]),
    optional "source_record_key" chunk.sourceRecordKey (by simp [fields]),
    optional "source_message_id" chunk.sourceMessageId (by simp [fields]),
    optional "source_part_id" chunk.sourcePartId (by simp [fields])]
  rfl

end ActivityChunk

/-! ## Chunks in the metadata database -/

namespace MetadataDb

/-- The stored chunks of a session, as far as they can be read. -/
def storedChunks (db : MetadataDb) (sourceId externalSessionId : String) : List ActivityChunk :=
  (db.listSourceSessionChunks sourceId externalSessionId).filterMap fun row =>
    ActivityChunk.decode row.rawJson

section Stored
variable {db written : MetadataDb} {sourceId externalSessionId : String} {chunks : List ActivityChunk}

/-- Writing the chunks of a session replaces them, and nothing else. -/
theorem upsertSourceSessionChunks_ok
    (done : db.upsertSourceSessionChunks sourceId externalSessionId chunks = some written) :
    ∃ rows, (chunks.mapIdx (chunkRow sourceId externalSessionId)).foldlM KeyedTable.insert
        (db.chunks.deleteWhere fun row =>
          row.sourceId == sourceId && row.externalSessionId == externalSessionId) = .ok rows ∧
      written = { db with chunks := rows } := by
  unfold MetadataDb.upsertSourceSessionChunks at done
  cases found : db.getSourceSession sourceId externalSessionId with
  | none =>
      rw [found] at done
      cases done
  | some record =>
      rw [found] at done
      dsimp only at done
      split at done
      · split at done
        · cases done
        · rename_i rows inserted
          cases done
          exact ⟨rows, inserted, rfl⟩
      · cases done

/-- The chunks that were written are listed in their order. -/
theorem listSourceSessionChunks_of_upsert
    (done : db.upsertSourceSessionChunks sourceId externalSessionId chunks = some written) :
    written.listSourceSessionChunks sourceId externalSessionId =
      chunks.mapIdx (chunkRow sourceId externalSessionId) := by
  obtain ⟨rows, inserted, rfl⟩ := upsertSourceSessionChunks_ok done
  have own : ∀ row ∈ chunks.mapIdx (chunkRow sourceId externalSessionId),
      (row.sourceId == sourceId && row.externalSessionId == externalSessionId) = true := by
    intro row member
    obtain ⟨index, _, rfl⟩ := List.mem_mapIdx.mp member
    simp [chunkRow]
  have sorted : (chunks.mapIdx (chunkRow sourceId externalSessionId)).Pairwise
      SourceSessionChunkRow.notAfter := by
    apply List.pairwise_iff_getElem.mpr
    intro first second firstBound secondBound before
    rw [List.getElem_mapIdx, List.getElem_mapIdx]
    exact Or.inl before
  unfold listSourceSessionChunks
  dsimp only
  rw [KeyedTable.rows_of_foldlM_insert inserted, List.filter_append, List.filter_eq_self.mpr own]
  have replaced : (db.chunks.deleteWhere fun row => row.sourceId == sourceId &&
      row.externalSessionId == externalSessionId).rows.filter (fun row =>
        row.sourceId == sourceId && row.externalSessionId == externalSessionId) = [] := by
    apply List.filter_eq_nil_iff.mpr
    intro row kept
    rw [Bool.not_eq_true, ← Bool.not_eq_true']
    exact (List.mem_filter.mp kept).2
  rw [replaced, List.nil_append]
  exact sorted.insertionSort_eq

/-- Stored chunks are the ones that were written last. -/
theorem storedChunks_of_upsert
    (done : db.upsertSourceSessionChunks sourceId externalSessionId chunks = some written) :
    written.storedChunks sourceId externalSessionId = chunks := by
  unfold storedChunks
  rw [listSourceSessionChunks_of_upsert done]
  clear done
  induction chunks using List.reverseRecOn with
  | nil => rfl
  | append_singleton earlier chunk ih =>
      rw [List.mapIdx_concat, List.filterMap_append, ih, List.filterMap_cons_some]
      · rfl
      · exact chunk.decode_encode

/-- Writing the chunks of a session leaves those of every other one. -/
theorem storedChunks_of_upsert_of_ne
    (done : db.upsertSourceSessionChunks sourceId externalSessionId chunks = some written)
    {otherSource otherSession : String}
    (differs : (otherSource, otherSession) ≠ (sourceId, externalSessionId)) :
    written.storedChunks otherSource otherSession = db.storedChunks otherSource otherSession := by
  obtain ⟨rows, inserted, rfl⟩ := upsertSourceSessionChunks_ok done
  have apart : ∀ row : SourceSessionChunkRow,
      (row.sourceId == otherSource && row.externalSessionId == otherSession) = true →
        (row.sourceId == sourceId && row.externalSessionId == externalSessionId) = false := by
    intro row ofOther
    simp only [Bool.and_eq_true, beq_iff_eq] at ofOther
    rw [Bool.and_eq_false_iff, beq_eq_false_iff_ne, beq_eq_false_iff_ne, ofOther.1, ofOther.2]
    by_contra same
    rw [not_or, not_not, not_not] at same
    exact differs (Prod.ext same.1 same.2)
  have foreign : (chunks.mapIdx (chunkRow sourceId externalSessionId)).filter (fun row =>
      row.sourceId == otherSource && row.externalSessionId == otherSession) = [] := by
    apply List.filter_eq_nil_iff.mpr
    intro row member ofOther
    obtain ⟨index, _, rfl⟩ := List.mem_mapIdx.mp member
    have own := apart _ ofOther
    simp [chunkRow] at own
  unfold storedChunks listSourceSessionChunks
  dsimp only
  rw [KeyedTable.rows_of_foldlM_insert inserted, List.filter_append, foreign, List.append_nil]
  unfold KeyedTable.deleteWhere
  dsimp only
  rw [List.filter_filter]
  congr 2
  apply List.filter_congr
  intro row _
  cases ofOther : (row.sourceId == otherSource && row.externalSessionId == otherSession) with
  | false => rfl
  | true => rw [apart row ofOther]; rfl

theorem storedChunks_of_chunks {first second : MetadataDb} (same : first.chunks = second.chunks)
    (sourceId externalSessionId : String) :
    first.storedChunks sourceId externalSessionId = second.storedChunks sourceId externalSessionId := by
  unfold storedChunks listSourceSessionChunks
  rw [same]

end Stored

end MetadataDb

/-! ## Chunks under an event -/

section Event
variable {rfc3339 : DateTime → String} {newV5 : String → Uuid} {now : DateTime}
  {freshSessionId : SessionId} {actor : ActorRef} {record : SourceSessionUpsert} {repoId : String}
  {chunks : List ActivityChunk} {store grown : LocalEventStore}

/-- The chunks of a payload are read as they were written. -/
theorem SourceSessionObservedPayload.chunks_of_decode_encode
    {payload read : SourceSessionObservedPayload}
    (decoded : SourceSessionObservedPayload.decode payload.encode = some read) :
    read.normalizedChunks = payload.normalizedChunks := by
  rw [decode_encode] at decoded
  cases decoded
  rfl

/-- An append of the event of a session puts its chunks under the event. -/
theorem chunkRows_of_append_built
    (appended : store.appendEvent rfc3339 repoId (buildSourceSessionEventWithChunks rfc3339 newV5 now
      freshSessionId actor record repoId chunks) = .ok grown) :
    (grown.chunkRows (sourceSessionEventId newV5 record)).map (·.raw) =
      chunks.map ActivityChunk.encode := by
  obtain ⟨payload, rows, done⟩ := LocalEventStore.appended_of_ok appended
  obtain ⟨read, decoded, _⟩ := payload_of_compact rfl done.compacted
  have rowsOfEvent := done.chunkRows_self
  rw [show (buildSourceSessionEventWithChunks rfc3339 newV5 now freshSessionId actor record repoId
    chunks).eventId = sourceSessionEventId newV5 record from rfl] at rowsOfEvent
  rw [rowsOfEvent, raw_of_compact done.compacted]
  have observed : ((buildSourceSessionEventWithChunks rfc3339 newV5 now freshSessionId actor record
      repoId chunks).inRepo repoId).observed = some read := (if_pos rfl).trans decoded
  unfold TraceEvent.observedChunks
  rw [observed]
  exact SourceSessionObservedPayload.chunks_of_decode_encode decoded

end Event

end BrickTrace
