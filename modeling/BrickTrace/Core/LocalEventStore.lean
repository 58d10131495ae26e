import BrickTrace.Lib.FirstSeen
import BrickTrace.Lib.Fallible
import BrickTrace.Lib.KeyedRows
import BrickTrace.Protocol.Payloads
import Mathlib.Data.List.Sort

/-!
# The local event store

A database with a table of events and a table of transcript chunks.  The event
of an observed source session is kept without its chunks, which get rows of
their own and are put back for transport.  An event id that is there already
keeps its first row.  Database operations fail only on a taken primary key.
-/

set_option autoImplicit false

namespace BrickTrace

open KeyedRows (KeyedTable)

/-! ## Tables -/

/-- A row of `brick_events`, with the event that its JSON text stands for. -/
structure BrickEventRow where
  eventId : Uuid
  repoId : String
  orgId : Option OrgId
  occurredAt : String
  event : TraceEvent
  idColumn : event.eventId = eventId
  repoColumn : event.repoId = some repoId

structure EventChunkRow where
  eventId : Uuid
  repoId : String
  orgId : Option OrgId
  sourceId : String
  externalSessionId : String
  chunkIndex : Nat
  chunkKind : Option String
  role : Option String
  actorId : Option String
  occurredAt : Option String
  text : Option String
  raw : Json

def EventChunkRow.key (row : EventChunkRow) : Uuid × Nat := (row.eventId, row.chunkIndex)

structure LocalEventStore where
  path : String
  events : KeyedTable BrickEventRow.eventId
  chunks : KeyedTable EventChunkRow.key

def LocalEventStore.new (path : String) : LocalEventStore := ⟨path, .empty, .empty⟩

inductive LocalStoreError where
  | undecodablePayload (eventId : Uuid)
  | chunkTaken (row : EventChunkRow)

/-! ## Chunks -/

/-- The first of some places that is there, when it holds a text. -/
def firstText (places : List (List String)) (raw : Json) : Option String :=
  (places.findSome? fun path => raw.pointer path).bind Json.decodeString

def chunkKind : Json → Option String :=
  firstText [["action_type"], ["kind"], ["type"], ["function"]]

def chunkRole : Json → Option String :=
  firstText [["role"], ["result", "role"], ["result", "message", "role"]]

def chunkActorId : Json → Option String :=
  firstText [["actor_id"], ["actor", "actor_id"]]

def chunkTime : Json → Option String :=
  firstText [["created_at"], ["occurred_at"], ["timestamp"]]

def chunkText : Json → Option String :=
  firstText [["text"], ["content"], ["message", "content"], ["result", "content"],
    ["result", "message", "content"], ["result", "observation"], ["result", "output"]]

def eventChunkRow (event : TraceEvent) (payload : SourceSessionObservedPayload)
    (raw : Json) (index : Nat) : EventChunkRow where
  eventId := event.eventId
  repoId := event.repoId.getD ""
  orgId := event.orgId
  sourceId := payload.sourceId
  externalSessionId := payload.externalSessionId
  chunkIndex := index
  chunkKind := chunkKind raw
  role := chunkRole raw
  actorId := chunkActorId raw
  occurredAt := chunkTime raw
  text := chunkText raw
  raw := raw

/-- `compact_event_and_chunks`, with the payload in place of the whole compact
event: the two events differ in nothing else. -/
def compactPayloadAndChunks (event : TraceEvent) :
    Except LocalStoreError (Json × List EventChunkRow) :=
  if event.eventType ≠ .sourceSessionObserved then .ok (event.payload, [])
  else
    match SourceSessionObservedPayload.decode event.payload with
    | none => .error (.undecodablePayload event.eventId)
    | some payload =>
        .ok ({ payload with normalizedChunks := [] }.encode,
          payload.normalizedChunks.mapIdx fun index raw => eventChunkRow event payload raw index)

/-! ## Reading -/

def columnMatches (column : String) (repoId : Option String) : Bool :=
  match repoId with
  | none => true
  | some repo => column == repo

def BrickEventRow.notAfter (first second : BrickEventRow) : Prop :=
  first.occurredAt < second.occurredAt ∨
    first.occurredAt = second.occurredAt ∧ ¬ second.eventId.text < first.eventId.text

instance (first second : BrickEventRow) : Decidable (first.notAfter second) :=
  inferInstanceAs (Decidable (_ ∨ _))

def EventChunkRow.notAfter (first second : EventChunkRow) : Prop :=
  first.chunkIndex ≤ second.chunkIndex

instance (first second : EventChunkRow) : Decidable (first.notAfter second) :=
  inferInstanceAs (Decidable (_ ≤ _))

namespace LocalEventStore

def readEventsForRepo (store : LocalEventStore) (repoId : Option String) : List TraceEvent :=
  ((store.events.rows.filter fun row => columnMatches row.repoId repoId).insertionSort
    BrickEventRow.notAfter).map (·.event)

def chunksOf (store : LocalEventStore) (eventId : Uuid) : List Json :=
  ((store.chunks.rows.filter fun row => row.eventId == eventId).insertionSort
    EventChunkRow.notAfter).map (·.raw)

/-- The turn of the loop of `read_events_for_repo_with_chunks` for one event. -/
def reattachChunks (store : LocalEventStore) (event : TraceEvent) : TraceEvent :=
  if event.eventType ≠ .sourceSessionObserved then event
  else
    match event.payload with
    | .object entries =>
        let chunks := store.chunksOf event.eventId
        { event with payload := .object (Json.insertEntry "normalized_chunks" (.array chunks) entries) }
    | _ => event

def readEventsForRepoWithChunks (store : LocalEventStore) (repoId : Option String) :
    List TraceEvent :=
  let events := store.readEventsForRepo repoId
  if events.all fun event => event.eventType ≠ .sourceSessionObserved then events
  else events.map store.reattachChunks

/-! ## Appending -/

section Append
variable (rfc3339 : DateTime → String)

/-- One transaction; a failed one leaves no trace. -/
def appendEvent (store : LocalEventStore) (repoId : String) (event : TraceEvent) :
    Except LocalStoreError LocalEventStore := do
  let eventRepoId := event.repoId.getD repoId
  let event := { event with repoId := some eventRepoId }
  let (payload, chunks) ← compactPayloadAndChunks event
  let row : BrickEventRow :=
    { eventId := event.eventId
      repoId := eventRepoId
      orgId := event.orgId
      occurredAt := rfc3339 event.occurredAt
      event := { event with payload := payload }
      idColumn := rfl
      repoColumn := rfl }
  let kept := store.chunks.deleteWhere fun chunk => chunk.eventId == event.eventId
  let written ← (chunks.foldlM KeyedTable.insert kept).mapError .chunkTaken
  return { store with events := store.events.insertOrIgnore row, chunks := written }

/-- Every event is appended in a transaction of its own, up to the first failure. -/
def appendEvents (store : LocalEventStore) (repoId : String) :
    List TraceEvent → Except LocalStoreError Unit × LocalEventStore
  | [] => (.ok (), store)
  | event :: rest =>
      match store.appendEvent rfc3339 repoId event with
      | .error failure => (.error failure, store)
      | .ok grown => grown.appendEvents repoId rest

/-! ## The store of a repository

A repository reads and appends under its own repo id. -/

def knownEventIds (store : LocalEventStore) (repoId : String) : List Uuid :=
  (store.readEventsForRepo (some repoId)).map (·.eventId)

def dedupeRemoteEvents (store : LocalEventStore) (repoId : String)
    (remoteEvents : List TraceEvent) : List TraceEvent :=
  FirstSeen.fresh (·.eventId) (store.knownEventIds repoId) remoteEvents

/-- Where the events were appended to. -/
def appendRemoteEvents (store : LocalEventStore) (repoId : String) (events : List TraceEvent) :
    Except LocalStoreError String × LocalEventStore :=
  let appended := store.appendEvents rfc3339 repoId events
  (appended.1.map fun _ => appended.2.path, appended.2)

end Append

end LocalEventStore

end BrickTrace
