import BrickTrace.Lib.OffsetPages
import BrickTrace.Sync.Client

/-!
# A Supabase remote

The remote keeps events and their chunks in two tables and is asked one request at
a time: an event row, slices of its chunk rows, a listing of the events of a repo,
a page of its chunk rows.  A row whose primary key is taken is ignored, a chunk row
needs its event, and no answer has more than `maxRows` rows.
-/

set_option autoImplicit false

namespace BrickTrace

open KeyedRows (KeyedTable)

/-! ## Errors -/

inductive SupabaseError where
  | repoRequired
  | missingRepoId
  | missingOrgId
  | missingField (name : String)
  | chunksRefused (eventId : Uuid)
  | notIndexable
  | unfinishedListing
deriving DecidableEq

/-- The last two are a panic and a listing that has not come to its end. -/
def SupabaseError.message : SupabaseError → Option String
  | .repoRequired => some "Supabase sync requires --repo-id or a git repository root"
  | .missingRepoId => some "Supabase event upload requires event.repo_id"
  | .missingOrgId => some "Supabase event upload requires event.org_id; pass --org-id"
  | .missingField name => some ("source.session_observed payload missing " ++ name)
  | .chunksRefused eventId =>
      some ("failed to insert Brick event chunks for event " ++ eventId.text ++
        ": Supabase returned 403 (row-level security). The brick_event_chunks INSERT policy is " ++
        "missing on this project. Apply " ++
        "docs/self-hosting/patches/2026-06-25-event-chunks-insert-rls.sql in the Supabase SQL " ++
        "editor (or re-run docs/self-hosting/supabase.sql), then push again.")
  | .notIndexable => none
  | .unfinishedListing => none

def ensureRepoId (repoId : Option String) : Except SupabaseError String :=
  match repoId.filter fun value => !isBlank value with
  | some value => .ok value
  | none => .error .repoRequired

/-! ## Rows -/

/-- A row of `brick_events`, with the event that its JSON stands for. -/
structure InsertEventRow where
  eventId : Uuid
  repoId : String
  orgId : String
  occurredAt : DateTime
  event : TraceEvent
  idColumn : event.eventId = eventId
  repoColumn : event.repoId = some repoId

/-- A row of `brick_event_chunks`. -/
structure SupabaseChunkRow where
  eventId : Uuid
  repoId : String
  orgId : String
  sourceId : String
  externalSessionId : String
  chunkIndex : Nat
  chunkKind : Option String
  role : Option String
  actorId : Option String
  occurredAt : Option String
  text : Option String
  raw : Json

def SupabaseChunkRow.key (row : SupabaseChunkRow) : Uuid × Nat := (row.eventId, row.chunkIndex)

/-- What a query of chunks selects of a row. -/
structure EventChunkRawRow where
  eventId : Uuid
  raw : Json

def SupabaseChunkRow.selected (row : SupabaseChunkRow) : EventChunkRawRow := ⟨row.eventId, row.raw⟩

/-! ### The rows of an event -/

def eventWithoutChunks (event : TraceEvent) : TraceEvent :=
  match event.payload with
  | .object entries =>
      { event with payload := .object (entries.filter fun entry => entry.1 != "normalized_chunks") }
  | _ => event

def uploadRepoId (event : TraceEvent) : Except SupabaseError String :=
  match event.repoId with
  | some repoId => if isBlank repoId then .error .missingRepoId else .ok repoId
  | none => .error .missingRepoId

def uploadOrgId (event : TraceEvent) : Except SupabaseError String :=
  match event.orgId with
  | some orgId => if isBlank orgId.text then .error .missingOrgId else .ok orgId.text
  | none => .error .missingOrgId

theorem repoId_of_uploadRepoId {event : TraceEvent} {repoId : String}
    (found : uploadRepoId event = .ok repoId) : event.repoId = some repoId := by
  unfold uploadRepoId at found
  cases named : event.repoId with
  | none =>
      rw [named] at found
      cases found
  | some held =>
      rw [named] at found
      dsimp only at found
      split at found
      · cases found
      · cases found
        rfl

theorem eventId_eventWithoutChunks (event : TraceEvent) :
    (eventWithoutChunks event).eventId = event.eventId := by
  unfold eventWithoutChunks
  split <;> rfl

theorem repoId_eventWithoutChunks (event : TraceEvent) :
    (eventWithoutChunks event).repoId = event.repoId := by
  unfold eventWithoutChunks
  split <;> rfl

theorem eventType_eventWithoutChunks (event : TraceEvent) :
    (eventWithoutChunks event).eventType = event.eventType := by
  unfold eventWithoutChunks
  split <;> rfl

def InsertEventRow.fromEvent (event : TraceEvent) : Except SupabaseError InsertEventRow :=
  match named : uploadRepoId event with
  | .error failure => .error failure
  | .ok repoId =>
      match uploadOrgId event with
      | .error failure => .error failure
      | .ok orgId =>
          .ok {
            eventId := event.eventId
            repoId := repoId
            orgId := orgId
            occurredAt := event.occurredAt
            event := eventWithoutChunks event
            idColumn := eventId_eventWithoutChunks event
            repoColumn := (repoId_eventWithoutChunks event).trans (repoId_of_uploadRepoId named) }

/-- The first of some places that holds a text. -/
def firstStr (places : List (List String)) (raw : Json) : Option String :=
  places.findSome? fun path => (raw.pointer path).bind Json.decodeString

/-- Ten bytes at least, the fifth of them a hyphen. -/
def looksLikeTime (value : String) : Bool :=
  10 ≤ value.utf8ByteSize && value.toUTF8.data[4]? == some 45

/-- The chunks that an observed session carries in its payload. -/
def TraceEvent.carriedChunks (event : TraceEvent) : List Json :=
  match event.payload.get "normalized_chunks" with
  | some (.array chunks) => chunks
  | _ => []

def payloadText (event : TraceEvent) (name : String) : Except SupabaseError String :=
  match (event.payload.get name).bind Json.decodeString with
  | some text => .ok text
  | none => .error (.missingField name)

/-- `EventChunkRows::from_event` -/
def supabaseChunkRows (event : TraceEvent) : Except SupabaseError (List SupabaseChunkRow) :=
  if event.eventType ≠ .sourceSessionObserved then .ok []
  else do
    let repoId ← uploadRepoId event
    let orgId ← uploadOrgId event
    let sourceId ← payloadText event "source_id"
    let externalSessionId ← payloadText event "external_session_id"
    return event.carriedChunks.mapIdx fun index chunk =>
      { eventId := event.eventId
        repoId := repoId
        orgId := orgId
        sourceId := sourceId
        externalSessionId := externalSessionId
        chunkIndex := index
        chunkKind := firstStr [["action_type"], ["kind"], ["type"], ["function"]] chunk
        role := firstStr [["role"], ["result", "role"], ["result", "message", "role"]] chunk
        actorId := firstStr [["actor_id"], ["actor", "actor_id"]] chunk
        occurredAt :=
          (firstStr [["created_at"], ["occurred_at"], ["timestamp"]] chunk).filter looksLikeTime
        text := firstStr [["text"], ["content"], ["message", "content"], ["result", "content"],
          ["result", "message", "content"], ["result", "observation"], ["result", "output"]] chunk
        raw := chunk }

/-! ## The tables and the requests that write them -/

def maxRows : Nat := 1000

def chunkSlice : Nat := 500

/-- What the remote holds and the caller may read.  A chunk row stands under an event of
its repo and org. -/
structure SupabaseTables where
  events : KeyedTable InsertEventRow.eventId
  chunks : KeyedTable SupabaseChunkRow.key
  owned : ∀ chunk ∈ chunks.rows, ∃ row ∈ events.rows,
    row.eventId = chunk.eventId ∧ row.repoId = chunk.repoId ∧ row.orgId = chunk.orgId

namespace SupabaseTables

def empty : SupabaseTables := ⟨.empty, .empty, fun _ member => nomatch member⟩

/-- `brick_can_insert_event_chunk`, for a member of the org. -/
def CanInsertEventChunk (tables : SupabaseTables) (chunk : SupabaseChunkRow) : Prop :=
  ∃ row ∈ tables.events.rows,
    row.eventId = chunk.eventId ∧ row.repoId = chunk.repoId ∧ row.orgId = chunk.orgId

instance (tables : SupabaseTables) (chunk : SupabaseChunkRow) :
    Decidable (tables.CanInsertEventChunk chunk) :=
  inferInstanceAs (Decidable (∃ row ∈ tables.events.rows, _))

/-- The ids of the rows that were written, and the tables afterwards. -/
def insertEvent (tables : SupabaseTables) (event : TraceEvent) :
    Except SupabaseError (List Uuid × SupabaseTables) := do
  let row ← InsertEventRow.fromEvent event
  return (if row.eventId ∈ tables.events.rows.map (·.eventId) then [] else [row.eventId],
    { events := tables.events.insertOrIgnore row
      chunks := tables.chunks
      owned := by
        intro chunk member
        obtain ⟨held, isHeld, same⟩ := tables.owned chunk member
        exact ⟨held, KeyedTable.mem_insertOrIgnore_of_mem isHeld row, same⟩ })

/-- One slice of chunk rows; all of them are written or ignored, or all are refused. -/
def insertChunkRows (tables : SupabaseTables) (eventId : Uuid) (rows : List SupabaseChunkRow) :
    Except SupabaseError SupabaseTables :=
  if allowed : ∀ row ∈ rows, tables.CanInsertEventChunk row then
    .ok {
      events := tables.events
      chunks := tables.chunks.insertOrIgnoreAll rows
      owned := by
        intro chunk member
        rcases KeyedTable.mem_insertOrIgnoreAll member with held | added
        · exact tables.owned chunk held
        · exact allowed chunk added }
  else .error (.chunksRefused eventId)

end SupabaseTables

/-! ## The requests that read them -/

/-- How the remote puts event rows in the order of their times; it decides between rows
of one time. -/
structure OccurredAtOrder where
  order : List InsertEventRow → List InsertEventRow
  perm : ∀ rows, (order rows).Perm rows
  ascending : ∀ rows, (order rows).Pairwise fun first second =>
    first.occurredAt.nanoseconds ≤ second.occurredAt.nanoseconds

def SupabaseChunkRow.notAfter (first second : SupabaseChunkRow) : Prop :=
  first.eventId.text < second.eventId.text ∨
    first.eventId = second.eventId ∧ first.chunkIndex ≤ second.chunkIndex

instance (first second : SupabaseChunkRow) : Decidable (first.notAfter second) :=
  inferInstanceAs (Decidable (_ ∨ _))

/-- The answer to a query: of the rows in their order those of the range that is asked
for, the first `maxRows` of them. -/
def answer {Row : Type} (range : Option (Nat × Nat)) (ordered : List Row) : List Row :=
  match range with
  | none => ordered.take maxRows
  | some (first, last) => ((ordered.drop first).take (last + 1 - first)).take maxRows

namespace SupabaseTables
variable (tables : SupabaseTables) (repoId : String)

def eventRowsOf : List InsertEventRow := tables.events.rows.filter fun row => row.repoId == repoId

/-- The chunk rows of a repo, in the order of their events and indexes. -/
def chunkRowsOf : List SupabaseChunkRow :=
  (tables.chunks.rows.filter fun row => row.repoId == repoId).insertionSort SupabaseChunkRow.notAfter

def listEvents (times : OccurredAtOrder) : List TraceEvent :=
  (answer none (times.order (tables.eventRowsOf repoId))).map (·.event)

def chunkPage (offset : Nat) : List EventChunkRawRow :=
  (answer (some (offset, offset + 999)) (tables.chunkRowsOf repoId)).map (·.selected)

end SupabaseTables

/-! ## Putting the chunks back -/

/-- One turn of the loop of `attach_event_chunks`.  A payload that is no object and not null
cannot get a field. -/
def attachEventChunks (rows : List EventChunkRawRow) (event : TraceEvent) :
    Except SupabaseError TraceEvent :=
  if event.eventType ≠ .sourceSessionObserved then .ok event
  else
    let chunks := (rows.filter fun row => row.eventId == event.eventId).map (·.raw)
    if chunks.isEmpty then .ok event
    else
      match event.payload with
      | .object entries =>
          .ok { event with
            payload := .object (Json.insertEntry "normalized_chunks" (.array chunks) entries) }
      | .null => .ok { event with payload := .object [("normalized_chunks", .array chunks)] }
      | _ => .error .notIndexable

/-- All chunk rows of a repo, from a remote that does not change.  Every page but the last
one has rows, so one request more than there are rows reaches the last page. -/
def getAllEventChunks (tables : SupabaseTables) (repoId : String) :
    Except SupabaseError (List EventChunkRawRow) :=
  match OffsetPages.walk maxRows (tables.chunkPage repoId) (tables.chunks.rows.length + 1) .start with
  | some read => .ok read
  | none => .error .unfinishedListing

def getAllEvents (times : OccurredAtOrder) (tables : SupabaseTables) (repoId : Option String) :
    Except SupabaseError ListEventsResponse := do
  let repoId ← ensureRepoId repoId
  let rows ← getAllEventChunks tables repoId
  let events ← (tables.listEvents repoId times).mapM (attachEventChunks rows)
  return ⟨events, none, none⟩

end BrickTrace
