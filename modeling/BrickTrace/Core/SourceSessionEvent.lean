import BrickTrace.Core.EventChunks
import BrickTrace.Core.MetadataDb
import BrickTrace.Protocol.SourceSessionCodec

/-!
# Events of indexed sessions

An indexed session becomes an event whose id is made of the source, the external
id, the fingerprint and the parser version.  The repo that the event is tagged with
is not part of the id.
-/

set_option autoImplicit false

namespace BrickTrace

def eventSchemaVersion : UInt16 := 1

section Build
variable (rfc3339 : DateTime → String)

def sourceSessionEventKey (record : SourceSessionUpsert) : String :=
  "brick:source-session-observed-v2:" ++ record.sourceId ++ ":" ++ record.externalSessionId ++ ":" ++
    record.sourceFingerprint.getD "" ++ ":" ++ record.parserVersion.getD ""

/-- `newV5` makes a UUID of a name in the URL namespace. -/
def sourceSessionEventId (newV5 : String → Uuid) (record : SourceSessionUpsert) : Uuid :=
  newV5 (sourceSessionEventKey record)

def sessionIdForRecord (freshSessionId : SessionId) (record : SourceSessionUpsert) : SessionId :=
  (parseTraceId .session record.externalSessionId).getD freshSessionId

def textItems : Json → List String
  | .array items => items.filterMap Json.decodeString
  | _ => []

def sourceSessionPayload (record : SourceSessionUpsert) : SourceSessionObservedPayload where
  sourceId := record.sourceId
  externalSessionId := record.externalSessionId
  title := record.title
  name := record.name
  sourcePath := record.sourcePath
  sourceUri := record.sourceUri
  sourceMtime := record.sourceMtime.map rfc3339
  sourceSize := record.sourceSize
  sourceFingerprint := record.sourceFingerprint
  parserVersion := record.parserVersion
  sessionCreatedAt := record.sessionCreatedAt.map rfc3339
  sessionUpdatedAt := record.sessionUpdatedAt.map rfc3339
  model := record.model
  inputTokens := record.inputTokens
  outputTokens := record.outputTokens
  repoPath := record.repoPath
  branch := record.branch
  filesChanged := record.filesChanged
  linesAdded := record.linesAdded
  linesRemoved := record.linesRemoved
  touchedFiles := (record.touchedFilesJson.map textItems).getD []
  metadataJson := record.metadataJson
  normalizedChunks := []

/-- An event as `TraceEvent::source_session_observed` builds it, with the id of the session. -/
def buildSourceSessionEventWithChunks (newV5 : String → Uuid) (now : DateTime)
    (freshSessionId : SessionId) (actor : ActorRef) (record : SourceSessionUpsert) (repoId : String)
    (chunks : List ActivityChunk) : TraceEvent where
  eventId := sourceSessionEventId newV5 record
  eventType := .sourceSessionObserved
  schemaVersion := eventSchemaVersion
  payloadSchemaVersion := eventSchemaVersion
  occurredAt := now
  recordedAt := now
  actor := actor
  repoId := some repoId
  orgId := none
  projectId := none
  missionId := none
  sessionId := some (sessionIdForRecord freshSessionId record)
  artifactId := none
  repoContextId := none
  confidence := .observed
  payload := { sourceSessionPayload rfc3339 record with
    normalizedChunks := chunks.map ActivityChunk.encode }.encode

end Build

/-! ## What is stored of such an event -/

/-- A text of the payload. -/
def TraceEvent.textField (event : TraceEvent) (name : String) : Option String :=
  (event.payload.get name).bind Json.decodeString

/-- Putting the chunks back touches no other field. -/
theorem textField_reattachChunks (store : LocalEventStore) (event : TraceEvent) {name : String}
    (differs : name ≠ "normalized_chunks") :
    (store.reattachChunks event).textField name = event.textField name := by
  unfold LocalEventStore.reattachChunks
  split
  · rfl
  · cases payload : event.payload with
    | object entries =>
        unfold TraceEvent.textField
        dsimp only [Json.get]
        rw [payload, Json.lookup_insertEntry_of_ne differs]
    | _ => rfl

/-- An event tells of the session that it was made of. -/
structure TellsOf (event : TraceEvent) (record : SourceSessionUpsert) : Prop where
  eventType : event.eventType = .sourceSessionObserved
  sourceId : event.textField "source_id" = some record.sourceId
  externalSessionId : event.textField "external_session_id" = some record.externalSessionId
  fingerprint : event.textField "source_fingerprint" = record.sourceFingerprint
  repoPath : event.textField "repo_path" = record.repoPath

theorem tellsOf_encode {event : TraceEvent} {record : SourceSessionUpsert}
    {payload : SourceSessionObservedPayload} (observed : event.eventType = .sourceSessionObserved)
    (written : event.payload = payload.encode) (sourceId : payload.sourceId = record.sourceId)
    (externalSessionId : payload.externalSessionId = record.externalSessionId)
    (fingerprint : payload.sourceFingerprint = record.sourceFingerprint)
    (repoPath : payload.repoPath = record.repoPath) : TellsOf event record := by
  have text : ∀ name json, payload.encode.get name = some json →
      event.textField name = Json.decodeString json := by
    intro name json found
    unfold TraceEvent.textField
    rw [written, found]
    rfl
  have nullable : ∀ value : Option String,
      Json.decodeString (Json.encodeNullable .string value) = value :=
    SourceSessionObservedPayload.text_of_nullable
  refine ⟨observed, ?_, ?_, ?_, ?_⟩
  · rw [← sourceId]
    exact text _ _ (payload.get_encode List.mem_cons_self)
  · rw [← externalSessionId]
    exact text _ _ (payload.get_encode (List.mem_cons_of_mem _ List.mem_cons_self))
  · rw [← fingerprint, ← nullable payload.sourceFingerprint]
    exact text _ _ (payload.get_encode (by simp [SourceSessionObservedPayload.fields]))
  · rw [← repoPath, ← nullable payload.repoPath]
    exact text _ _ (payload.get_encode (by simp [SourceSessionObservedPayload.fields]))

section Stored
variable {rfc3339 : DateTime → String} {newV5 : String → Uuid} {now : DateTime}
  {freshSessionId : SessionId} {actor : ActorRef} {record : SourceSessionUpsert} {repoId : String}
  {activity : List ActivityChunk} {store grown : LocalEventStore}

/-- An append of the event of a session adds at most a row that tells of the session, under
the repo it is appended for. -/
theorem rows_of_append_built
    (appended : store.appendEvent rfc3339 repoId (buildSourceSessionEventWithChunks rfc3339 newV5
      now freshSessionId actor record repoId activity) = .ok grown) :
    sourceSessionEventId newV5 record ∈ store.storedIds ∧ grown.events = store.events ∨
      sourceSessionEventId newV5 record ∉ store.storedIds ∧
        ∃ row : BrickEventRow, grown.events.rows = store.events.rows ++ [row] ∧
          row.repoId = repoId ∧ TellsOf row.event record := by
  obtain ⟨payload, chunks, done⟩ := LocalEventStore.appended_of_ok appended
  by_cases stored : sourceSessionEventId newV5 record ∈ store.storedIds
  · exact Or.inl ⟨stored, done.events_of_stored stored⟩
  · refine Or.inr ⟨stored, _, done.rows_of_new stored, rfl, ?_⟩
    obtain ⟨read, decoded, written⟩ := payload_of_compact rfl done.compacted
    obtain ⟨sourceId, externalSessionId, fingerprint, repoPath⟩ :=
      SourceSessionObservedPayload.texts_of_decode_encode decoded
    exact tellsOf_encode rfl written sourceId externalSessionId fingerprint repoPath

end Stored

end BrickTrace
