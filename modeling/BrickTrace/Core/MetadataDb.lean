import BrickTrace.Lib.KeyedRows
import BrickTrace.Protocol.Payloads
import Mathlib.Data.List.Sort

/-!
# The metadata database

An index of the agent sessions seen on a machine, with the chunks of their
transcripts and a watermark for each source.  Sessions are keyed by source and
external id, whatever repo they were recorded in.  An upsert of a session or of its
chunks is one transaction; it fails on a count that an integer column cannot hold,
on chunks of an unknown session, and on a chunk id that comes twice.
-/

set_option autoImplicit false

namespace BrickTrace

open Json
open KeyedRows (KeyedTable)

/-! ## Activity chunks -/

/-- One normalized chunk of a transcript. -/
structure ActivityChunk where
  chunkId : String
  sessionId : String
  actionType : String
  function : String
  args : Json
  result : Json
  createdAt : String
  threadId : Option String
  processId : Option String
  sourceId : Option String
  sourcePath : Option String
  sourceRecordKey : Option String
  sourceLineNumber : Option UInt64
  sourceMessageId : Option String
  sourcePartId : Option String

def ActivityChunk.decode : Json → Option ActivityChunk := decodeRecord do
  return {
    chunkId := ← required "chunk_id" decodeString
    sessionId := ← required "session_id" decodeString
    actionType := ← required "action_type" decodeString
    function := ← required "function" decodeString
    args := ← required "args" decodeValue
    result := ← required "result" decodeValue
    createdAt := ← required "created_at" decodeString
    threadId := ← optional "thread_id" decodeString
    processId := ← optional "process_id" decodeString
    sourceId := ← optional "source_id" decodeString
    sourcePath := ← optional "source_path" decodeString
    sourceRecordKey := ← optional "source_record_key" decodeString
    sourceLineNumber := ← optional "source_line_number" decodeU64
    sourceMessageId := ← optional "source_message_id" decodeString
    sourcePartId := ← optional "source_part_id" decodeString }

/-- The optional fields are left out when absent. -/
def ActivityChunk.encode (chunk : ActivityChunk) : Json :=
  ofFields
    ([("chunk_id", .string chunk.chunkId), ("session_id", .string chunk.sessionId),
      ("action_type", .string chunk.actionType), ("function", .string chunk.function),
      ("args", chunk.args), ("result", chunk.result), ("created_at", .string chunk.createdAt)] ++
    [("thread_id", chunk.threadId.map .string), ("process_id", chunk.processId.map .string),
      ("source_id", chunk.sourceId.map .string), ("source_path", chunk.sourcePath.map .string),
      ("source_record_key", chunk.sourceRecordKey.map .string),
      ("source_line_number", chunk.sourceLineNumber.map encodeU64),
      ("source_message_id", chunk.sourceMessageId.map .string),
      ("source_part_id", chunk.sourcePartId.map .string)].filterMap
        fun field => field.2.map fun value => (field.1, value))

/-! ## Tables -/

/-- What is known of a session; a path is kept as the text it is displayed as. -/
structure SourceSessionUpsert where
  sourceId : String
  externalSessionId : String
  title : Option String
  name : Option String
  sourcePath : Option String
  sourceUri : Option String
  sourceMtime : Option DateTime
  sourceSize : Option UInt64
  sourceFingerprint : Option String
  parserVersion : Option String
  sessionCreatedAt : Option DateTime
  sessionUpdatedAt : Option DateTime
  model : Option String
  inputTokens : Option UInt64
  outputTokens : Option UInt64
  repoPath : Option String
  branch : Option String
  filesChanged : Option UInt64
  linesAdded : Option UInt64
  linesRemoved : Option UInt64
  touchedFilesJson : Option Json
  listable : Bool
  discoveredAt : DateTime
  lastSeenAt : DateTime
  metadataJson : Option Json

/-- A row of `source_sessions`. -/
structure SourceSessionRecord extends SourceSessionUpsert where
  createdAt : DateTime
  updatedAt : DateTime

def SourceSessionRecord.key (record : SourceSessionRecord) : String × String :=
  (record.sourceId, record.externalSessionId)

/-- A row of `source_session_chunks`, with its session's key in place of the row number. -/
structure SourceSessionChunkRow where
  sourceId : String
  externalSessionId : String
  chunkId : String
  chunkIndex : Nat
  createdAt : String
  rawJson : Json

def SourceSessionChunkRow.key (row : SourceSessionChunkRow) : (String × String) × String :=
  ((row.sourceId, row.externalSessionId), row.chunkId)

/-- A row of `source_index_watermark`. -/
structure SourceWatermark where
  sourceId : String
  lastIndexedUpdatedAt : Option String
  lastRefreshedAt : DateTime

structure MetadataDb where
  sessions : KeyedTable SourceSessionRecord.key
  chunks : KeyedTable SourceSessionChunkRow.key
  watermarks : KeyedTable SourceWatermark.sourceId

namespace MetadataDb

def new : MetadataDb := ⟨.empty, .empty, .empty⟩

/-! ## Sessions -/

/-- Whether a count fits an integer column. -/
def fitsInteger (value : Option UInt64) : Bool := value.all fun number => number.toNat < 2 ^ 63

/-- The counts of a session. -/
def counts (session : SourceSessionUpsert) : List (Option UInt64) :=
  [session.sourceSize, session.inputTokens, session.outputTokens, session.filesChanged,
    session.linesAdded, session.linesRemoved]

def getSourceSession (db : MetadataDb) (sourceId externalSessionId : String) :
    Option SourceSessionRecord :=
  db.sessions.find (sourceId, externalSessionId)

/-- A known session keeps the time of its first upsert. -/
def upsertSourceSession (now : DateTime) (session : SourceSessionUpsert) (db : MetadataDb) :
    Option MetadataDb :=
  if (counts session).all fitsInteger then
    some { db with
      sessions := db.sessions.upsert { session with createdAt := now, updatedAt := now }
        (fun held => { session with createdAt := held.createdAt, updatedAt := now })
        fun _ _ => rfl }
  else none

theorem chunks_of_upsertSourceSession {now : DateTime} {session : SourceSessionUpsert}
    {db written : MetadataDb} (upserted : db.upsertSourceSession now session = some written) :
    written.chunks = db.chunks := by
  unfold upsertSourceSession at upserted
  split at upserted
  · cases upserted
    rfl
  · cases upserted

def touchSourceSessionLastSeen (now : DateTime) (sourceId externalSessionId : String)
    (lastSeenAt : DateTime) (db : MetadataDb) : MetadataDb :=
  { db with
    sessions := db.sessions.modify (sourceId, externalSessionId)
      (fun held => { held with lastSeenAt := lastSeenAt, updatedAt := now }) fun _ same => same }

def sourceHasParserVersionMismatch (db : MetadataDb) (sourceId parserVersion : String) : Bool :=
  db.sessions.rows.any fun record =>
    record.sourceId == sourceId && record.listable &&
      (record.parserVersion.isNone || record.parserVersion != some parserVersion)

/-! ## Chunks -/

def chunkRow (sourceId externalSessionId : String) (index : Nat) (chunk : ActivityChunk) :
    SourceSessionChunkRow where
  sourceId := sourceId
  externalSessionId := externalSessionId
  chunkId := chunk.chunkId
  chunkIndex := index
  createdAt := chunk.createdAt
  rawJson := chunk.encode

/-- The chunks of a session are replaced as a whole. -/
def upsertSourceSessionChunks (sourceId externalSessionId : String)
    (chunks : List ActivityChunk) (db : MetadataDb) : Option MetadataDb :=
  match db.getSourceSession sourceId externalSessionId with
  | none => none
  | some _ =>
      if chunks.all fun chunk => fitsInteger chunk.sourceLineNumber then
        let kept := db.chunks.deleteWhere fun row =>
          row.sourceId == sourceId && row.externalSessionId == externalSessionId
        let rows := chunks.mapIdx (chunkRow sourceId externalSessionId)
        match rows.foldlM KeyedTable.insert kept with
        | .error _ => none
        | .ok written => some { db with chunks := written }
      else none

def SourceSessionChunkRow.notAfter (first second : SourceSessionChunkRow) : Prop :=
  first.chunkIndex < second.chunkIndex ∨ first.chunkIndex = second.chunkIndex ∧
    (first.createdAt < second.createdAt ∨ first.createdAt = second.createdAt ∧
      ¬ second.chunkId < first.chunkId)

instance (first second : SourceSessionChunkRow) :
    Decidable (SourceSessionChunkRow.notAfter first second) :=
  inferInstanceAs (Decidable (_ ∨ _))

def listSourceSessionChunks (db : MetadataDb) (sourceId externalSessionId : String) :
    List SourceSessionChunkRow :=
  (db.chunks.rows.filter fun row =>
    row.sourceId == sourceId && row.externalSessionId == externalSessionId).insertionSort
      SourceSessionChunkRow.notAfter

/-! ## Watermarks -/

def getSourceWatermark (db : MetadataDb) (sourceId : String) : Option SourceWatermark :=
  db.watermarks.find sourceId

/-- A refresh that indexed nothing keeps the mark of an earlier one. -/
def setSourceWatermark (sourceId : String) (lastIndexedUpdatedAt : Option String)
    (lastRefreshedAt : DateTime) (db : MetadataDb) : MetadataDb :=
  { db with
    watermarks := db.watermarks.upsert ⟨sourceId, lastIndexedUpdatedAt, lastRefreshedAt⟩
      (fun held =>
        ⟨sourceId, lastIndexedUpdatedAt.or held.lastIndexedUpdatedAt, lastRefreshedAt⟩)
      fun _ _ => rfl }

end MetadataDb

end BrickTrace
