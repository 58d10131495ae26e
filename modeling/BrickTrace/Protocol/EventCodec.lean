import BrickTrace.Protocol.PayloadCodecs

/-!
# Events on the wire

The envelope of an event as an object, and what it is read from.  How a library reads the
text of an id, and how it writes and reads a time, is a parameter.
-/

set_option autoImplicit false

namespace BrickTrace

open Json

def ActorType.wireNames : List (String × ActorType) :=
  [("human", .human), ("agent", .agent), ("system", .system)]

def ConfidenceLevel.wireNames : List (String × ConfidenceLevel) :=
  [("explicit", .explicit), ("observed", .observed), ("imported", .imported),
    ("inferred", .inferred), ("unknown", .unknown)]

def EventType.wireNames : List (String × EventType) :=
  [("org.created", .orgCreated), ("org.updated", .orgUpdated),
    ("project.created", .projectCreated), ("project.updated", .projectUpdated),
    ("mission.created", .missionCreated), ("mission.updated", .missionUpdated),
    ("session.started", .sessionStarted),
    ("session.linked_to_mission", .sessionLinkedToMission),
    ("session.log_uploaded", .sessionLogUploaded), ("artifact.created", .artifactCreated),
    ("artifact.updated", .artifactUpdated),
    ("artifact.linked_to_mission", .artifactLinkedToMission),
    ("artifact.file_ref_recorded", .artifactFileRefRecorded),
    ("artifact.attachment_uploaded", .artifactAttachmentUploaded),
    ("artifact.reviewed", .artifactReviewed), ("artifact.accepted", .artifactAccepted),
    ("repo_context.captured", .repoContextCaptured), ("diff.captured", .diffCaptured),
    ("external_ref.linked", .externalRefLinked),
    ("source.session_observed", .sourceSessionObserved)]

theorem ActorType.inverse :
    Inverse (encodeVariant ActorType.wireNames) (decodeVariant ActorType.wireNames) :=
  inverse_variant (by simp [wireNames]) fun value => by cases value <;> simp [wireNames]

theorem ConfidenceLevel.inverse :
    Inverse (encodeVariant ConfidenceLevel.wireNames) (decodeVariant ConfidenceLevel.wireNames) :=
  inverse_variant (by simp [wireNames]) fun value => by cases value <;> simp [wireNames]

theorem EventType.inverse :
    Inverse (encodeVariant EventType.wireNames) (decodeVariant EventType.wireNames) :=
  inverse_variant (by simp [wireNames]) fun value => by cases value <;> simp [wireNames]

def encodeU16 (value : UInt16) : Json := encodeU64 value.toUInt64

def decodeU16 (json : Json) : Option UInt16 :=
  (decodeU64 json).bind fun value =>
    if value.toNat < UInt16.size then some value.toUInt16 else none

theorem inverse_u16 : Inverse encodeU16 decodeU16 where
  notNull := nofun
  reads value := by
    have small : value.toUInt64.toNat < UInt16.size := value.toNat_lt
    unfold encodeU16 decodeU16
    rw [decodeU64_encodeU64, Option.bind_some, if_pos small, UInt16.toUInt16_toUInt64]

def ActorRef.record (actor : ActorRef) : Record where
  fields := [("actor_type", some (encodeVariant ActorType.wireNames actor.actorType)),
    ("actor_id", some (.string actor.actorId)),
    ("display_name", some (encodeNullable .string actor.displayName))]
  distinct := by simp

def ActorRef.encode (actor : ActorRef) : Json := actor.record.json

def ActorRef.decode : Json → Option ActorRef := decodeRecord do
  return {
    actorType := ← required "actor_type" (decodeVariant ActorType.wireNames)
    actorId := ← required "actor_id" decodeString
    displayName := ← optional "display_name" decodeString }

theorem ActorRef.inverse : Inverse encode decode where
  notNull actor := actor.record.json_ne_null
  reads actor := by
    simp [decode, encode, record, List.lookup_cons, ActorType.inverse.reads, -bind_pure_comp]

/-! ## The envelope -/

/-- How ids are read, and times written and read. -/
structure TextForms where
  readUuid : String → Option Uuid
  writeTime : DateTime → String
  readTime : String → Option DateTime

def decodeRead {A : Type} (read : String → Option A) (json : Json) : Option A :=
  (decodeString json).bind read

@[simp] theorem decodeRead_string {A : Type} (read : String → Option A) (text : String) :
    decodeRead read (.string text) = read text := rfl

namespace TraceEvent

variable (forms : TextForms)

def record (event : TraceEvent) : Record where
  fields := [("event_id", some (.string event.eventId.text)),
    ("event_type", some (encodeVariant EventType.wireNames event.eventType)),
    ("schema_version", some (encodeU16 event.schemaVersion)),
    ("payload_schema_version", some (encodeU16 event.payloadSchemaVersion)),
    ("occurred_at", some (.string (forms.writeTime event.occurredAt))),
    ("recorded_at", some (.string (forms.writeTime event.recordedAt))),
    ("actor", some event.actor.encode),
    ("repo_id", some (encodeNullable .string event.repoId)),
    ("org_id", some (encodeNullable encodeId event.orgId)),
    ("project_id", some (encodeNullable encodeId event.projectId)),
    ("mission_id", some (encodeNullable encodeId event.missionId)),
    ("session_id", some (encodeNullable encodeId event.sessionId)),
    ("artifact_id", some (encodeNullable encodeId event.artifactId)),
    ("repo_context_id", some (encodeNullable encodeId event.repoContextId)),
    ("confidence", some (encodeVariant ConfidenceLevel.wireNames event.confidence)),
    ("payload", some event.payload)]
  distinct := by simp

def encode (event : TraceEvent) : Json := (event.record forms).json

def decode : Json → Option TraceEvent := decodeRecord do
  return {
    eventId := ← required "event_id" (decodeRead forms.readUuid)
    eventType := ← required "event_type" (decodeVariant EventType.wireNames)
    schemaVersion := ← required "schema_version" decodeU16
    payloadSchemaVersion := ← required "payload_schema_version" decodeU16
    occurredAt := ← required "occurred_at" (decodeRead forms.readTime)
    recordedAt := ← required "recorded_at" (decodeRead forms.readTime)
    actor := ← required "actor" ActorRef.decode
    repoId := ← optional "repo_id" decodeString
    orgId := ← optional "org_id" decodeId
    projectId := ← optional "project_id" decodeId
    missionId := ← optional "mission_id" decodeId
    sessionId := ← optional "session_id" decodeId
    artifactId := ← optional "artifact_id" decodeId
    repoContextId := ← optional "repo_context_id" decodeId
    confidence := ← required "confidence" (decodeVariant ConfidenceLevel.wireNames)
    payload := ← required "payload" decodeValue }

/-- The library reads the id and the times of an event as it wrote them. -/
structure Readable (event : TraceEvent) : Prop where
  eventId : forms.readUuid event.eventId.text = some event.eventId
  occurredAt : forms.readTime (forms.writeTime event.occurredAt) = some event.occurredAt
  recordedAt : forms.readTime (forms.writeTime event.recordedAt) = some event.recordedAt

variable {forms}

/-- An event is read from every object that holds its fields. -/
theorem decode_of_heldBy {event : TraceEvent} (readable : event.Readable forms) {body : Json}
    (held : (event.record forms).HeldBy body) : decode forms body = some event := by
  obtain ⟨entries, rfl, holds⟩ := held
  simp only [record, List.forall_mem_cons, List.not_mem_nil, false_imp_iff, implies_true,
    and_true] at holds
  obtain ⟨eventId, eventType, schemaVersion, payloadSchemaVersion, occurredAt, recordedAt, actor,
    repoId, orgId, projectId, missionId, sessionId, artifactId, repoContextId, confidence,
    payload⟩ := holds
  unfold decode decodeRecord
  dsimp only
  simp only [required_bind_named, optional_bind_named, requiredIn, optionalIn, eventId, eventType,
    schemaVersion, payloadSchemaVersion, occurredAt, recordedAt, actor, repoId, orgId, projectId,
    missionId, sessionId, artifactId, repoContextId, confidence, payload, decodeRead_string,
    readable.eventId, readable.occurredAt, readable.recordedAt, EventType.inverse.reads,
    inverse_u16.reads, ActorRef.inverse.reads, ConfidenceLevel.inverse.reads, nullable_string,
    nullable_id, decodeValue_eq, Option.bind_some]
  rfl

theorem decode_encode {event : TraceEvent} (readable : event.Readable forms) :
    decode forms (event.encode forms) = some event :=
  decode_of_heldBy readable (event.record forms).heldBy_json

end TraceEvent

/-- The forms of one id and of the start of the epoch. -/
def epochForms : TextForms where
  readUuid text := if text = "00000000-0000-0000-0000-000000000001" then some ⟨1⟩ else none
  writeTime _ := "1970-01-01T00:00:00Z"
  readTime text := if text = "1970-01-01T00:00:00Z" then some ⟨0⟩ else none

theorem epochForms_readUuid : epochForms.readUuid (Uuid.text ⟨1⟩) = some ⟨1⟩ := by
  have text : Uuid.text ⟨1⟩ = "00000000-0000-0000-0000-000000000001" := by decide
  rw [text]
  rfl

end BrickTrace
