import BrickTrace.Lib.Runs
import BrickTrace.Core.ChunkRoundTrip
import BrickTrace.Sync.FailedPull
import BrickTrace.Sync.SupabaseListing

/-!
# A push and a pull at one Supabase remote

A push inserts an event and then its chunk rows, slice by slice; a pull lists the
events and then reads the chunk rows of the repo, page by page.  Every request is
atomic, and the requests of the two clients come in any order.  A pull keeps the
transcript of a session as it finds it, and for good.
-/

set_option autoImplicit false

namespace BrickTrace

open KeyedRows (KeyedTable)
open OffsetPages (Reading)

/-! ## The two clients -/

/-- A push between two requests: the events it has not inserted yet, and the slices of
the event inserted last that it has not sent. -/
structure Pushing where
  events : List TraceEvent
  eventId : Uuid
  slices : List (List SupabaseChunkRow)
  response : PushEventsResponse

inductive PushPhase where
  | sending (push : Pushing)
  | failed

def PushPhase.start (events : List TraceEvent) : PushPhase :=
  .sending ⟨events, ⟨0⟩, [], ⟨[], []⟩⟩

def PushPhase.Completed : PushPhase → Prop
  | .sending push => push.events = [] ∧ push.slices = []
  | .failed => False

instance (phase : PushPhase) : Decidable phase.Completed :=
  match phase with
  | .sending push => decidable_of_iff (push.events.isEmpty ∧ push.slices.isEmpty) (by
      unfold PushPhase.Completed
      rw [List.isEmpty_iff, List.isEmpty_iff])
  | .failed => .isFalse id

/-- An id whose row was there already is a duplicate. -/
def PushEventsResponse.record (response : PushEventsResponse) (eventId : Uuid)
    (inserted : List Uuid) : PushEventsResponse :=
  if inserted.isEmpty then
    { response with duplicateEventIds := response.duplicateEventIds ++ [eventId] }
  else { response with acceptedEventIds := response.acceptedEventIds ++ [eventId] }

/-- One request of `SupabaseRemote::push_events`. -/
def pushRequest (tables : SupabaseTables) : PushPhase → PushPhase × SupabaseTables
  | .failed => (.failed, tables)
  | .sending push =>
      match push.slices with
      | slice :: rest =>
          match tables.insertChunkRows push.eventId slice with
          | .error _ => (.failed, tables)
          | .ok written => (.sending { push with slices := rest }, written)
      | [] =>
          match push.events with
          | [] => (.sending push, tables)
          | event :: rest =>
              match tables.insertEvent event with
              | .error _ => (.failed, tables)
              | .ok (inserted, written) =>
                  match supabaseChunkRows event with
                  | .error _ => (.failed, written)
                  | .ok rows =>
                      (.sending {
                        events := rest
                        eventId := event.eventId
                        slices := OffsetPages.slices chunkSlice rows
                        response := push.response.record event.eventId inserted }, written)

/-- A pull between two requests: the events it has listed and the chunk rows it has read. -/
inductive PullPhase where
  | idle
  | paging (listed : List TraceEvent) (reading : Reading EventChunkRawRow)

/-- What a pull works with: the repo it asks for, and the store of the client. -/
structure PullSetting (Db : Type) where
  times : OccurredAtOrder
  rfc3339 : DateTime → String
  metadata : MetadataOps Db
  repoId : String
  storeRepoId : String

section System
variable {Db : Type} (setting : PullSetting Db)

/-- The end of a pull, on the client alone: the chunks are put back and the events are pulled. -/
def finishPull (listed : List TraceEvent) (rows : List EventChunkRawRow) (replica : Replica Db) :
    Replica Db :=
  match listed.mapM (attachEventChunks rows) with
  | .error _ => replica
  | .ok events =>
      (pullEvents setting.rfc3339 setting.metadata replica setting.storeRepoId events false).2

/-- One request of `get_all_events`; after the last page the pull comes to its end. -/
def pullRequest (tables : SupabaseTables) (replica : Replica Db) :
    PullPhase → PullPhase × Replica Db
  | .idle => (.paging (tables.listEvents setting.repoId setting.times) .start, replica)
  | .paging listed reading =>
      match reading.extend maxRows (tables.chunkPage setting.repoId reading.offset) with
      | (more, false) => (.paging listed more, replica)
      | (last, true) => (.idle, finishPull setting listed last.rows replica)

/-- The remote and both clients, with what is told of the pulls: whether the one that is
going on began after the push was complete, and whether such a one has ended. -/
structure SyncWorld (Db : Type) where
  tables : SupabaseTables
  push : PushPhase
  replica : Replica Db
  pull : PullPhase
  lateStart : Bool
  pulledAgain : Bool

/-- A request of either client, or one that does not get through. -/
inductive SyncAction where
  | push
  | pushFails
  | pull
  | pullFails

def nextSync (world : SyncWorld Db) : SyncAction → SyncWorld Db
  | .push =>
      let sent := pushRequest world.tables world.push
      { world with push := sent.1, tables := sent.2 }
  | .pushFails =>
      { world with push := if world.push.Completed then world.push else .failed }
  | .pull =>
      let asked := pullRequest setting world.tables world.replica world.pull
      { world with
        pull := asked.1
        replica := asked.2
        lateStart :=
          match world.pull with
          | .idle => decide world.push.Completed
          | .paging _ _ => world.lateStart
        pulledAgain :=
          match asked.1 with
          | .idle => world.pulledAgain || world.lateStart
          | .paging _ _ => world.pulledAgain }
  | .pullFails => { world with pull := .idle }

/-- The sessions of a push that has completed, as far as a puller that has pulled again
holds them, are there with all their chunks, in order. -/
def TranscriptsArrive (events : List TraceEvent) (world : SyncWorld Db) : Prop :=
  world.push.Completed → world.pulledAgain = true →
    ∀ event ∈ events, event.eventType = .sourceSessionObserved →
      event.eventId ∈ world.replica.eventStore.storedIds →
        world.replica.eventStore.chunksOf event.eventId = event.carriedChunks

def ownRow (event : TraceEvent) (row : EventChunkRawRow) : Bool := row.eventId == event.eventId

/-- All chunk rows of an event are at the remote. -/
def SupabaseTables.HoldsTranscript (tables : SupabaseTables) (event : TraceEvent) : Prop :=
  ∀ index < event.carriedChunks.length, ∃ row ∈ tables.chunks.rows, row.key = (event.eventId, index)

/-- When a pull asks for its last page, each pushed session that it has listed and that is
new to the client has all its chunk rows at the remote, and of these the request skips
just the ones that the pull has read. -/
def ReadsTranscripts (events : List TraceEvent) (world : SyncWorld Db) (action : SyncAction) : Prop :=
  action = .pull → ∀ listed reading, world.pull = .paging listed reading →
    (world.tables.chunkPage setting.repoId reading.offset).length < maxRows →
      ∀ event ∈ events, event.eventType = .sourceSessionObserved →
        event.eventId ∈ listed.map (·.eventId) →
          event.eventId ∉ world.replica.eventStore.knownEventIds setting.storeRepoId →
            world.tables.HoldsTranscript event ∧
              reading.rows.filter (ownRow event) =
                (((world.tables.chunkRowsOf setting.repoId).map (·.selected)).take
                  reading.offset).filter (ownRow event)

end System

/-! ## What a push leaves at the remote -/

section Push
variable (events : List TraceEvent)

def RowAgrees (row : InsertEventRow) : Prop :=
  ∀ event ∈ events, row.eventId = event.eventId → row.event = eventWithoutChunks event

def ChunkAgrees (chunk : SupabaseChunkRow) : Prop :=
  ∀ event ∈ events, chunk.eventId = event.eventId →
    event.carriedChunks[chunk.chunkIndex]? = some chunk.raw

/-- The remote holds nothing of the events but what a push of them writes. -/
structure RemoteAgrees (tables : SupabaseTables) : Prop where
  rows : ∀ row ∈ tables.events.rows, RowAgrees events row
  chunks : ∀ chunk ∈ tables.chunks.rows, ChunkAgrees events chunk

/-- The chunk rows of the event can be made. -/
def TraceEvent.Sendable (event : TraceEvent) : Prop := ∃ rows, supabaseChunkRows event = .ok rows

structure Pushing.Sends (push : Pushing) : Prop where
  pending : push.events ⊆ events
  slices : ∀ slice ∈ push.slices, ∀ chunk ∈ slice, ChunkAgrees events chunk
  sent : ∀ event ∈ events, event ∈ push.events ∨ event.Sendable

end Push

theorem event_of_fromEvent {event : TraceEvent} {row : InsertEventRow}
    (made : InsertEventRow.fromEvent event = .ok row) :
    row.eventId = event.eventId ∧ row.event = eventWithoutChunks event := by
  unfold InsertEventRow.fromEvent at made
  split at made
  · cases made
  · split at made
    · cases made
    · cases made
      exact ⟨rfl, rfl⟩

theorem chunks_of_supabaseChunkRows {event : TraceEvent} {rows : List SupabaseChunkRow}
    (made : supabaseChunkRows event = .ok rows) :
    ∀ chunk ∈ rows, chunk.eventId = event.eventId ∧
      event.carriedChunks[chunk.chunkIndex]? = some chunk.raw := by
  unfold supabaseChunkRows at made
  split at made
  · cases made
    exact fun _ member => nomatch member
  · obtain ⟨repoId, _, made⟩ := Fallible.bind_eq_ok_iff.mp made
    obtain ⟨orgId, _, made⟩ := Fallible.bind_eq_ok_iff.mp made
    obtain ⟨sourceId, _, made⟩ := Fallible.bind_eq_ok_iff.mp made
    obtain ⟨externalSessionId, _, made⟩ := Fallible.bind_eq_ok_iff.mp made
    cases made
    intro chunk member
    obtain ⟨index, within, rfl⟩ := List.mem_mapIdx.mp member
    exact ⟨rfl, List.getElem?_eq_getElem within⟩

/-- The payload of a session whose chunk rows can be made is an object. -/
theorem TraceEvent.Sendable.payload_object {event : TraceEvent} (sendable : event.Sendable)
    (observed : event.eventType = .sourceSessionObserved) :
    ∃ entries, event.payload = .object entries := by
  obtain ⟨rows, made⟩ := sendable
  unfold supabaseChunkRows at made
  rw [if_neg (not_not.mpr observed)] at made
  obtain ⟨repoId, _, made⟩ := Fallible.bind_eq_ok_iff.mp made
  obtain ⟨orgId, _, made⟩ := Fallible.bind_eq_ok_iff.mp made
  obtain ⟨sourceId, named, made⟩ := Fallible.bind_eq_ok_iff.mp made
  unfold payloadText at named
  cases payload : event.payload with
  | object entries => exact ⟨entries, rfl⟩
  | _ =>
      rw [payload] at named
      cases named

section Push
variable {events : List TraceEvent}

theorem RemoteAgrees.insertEvent (distinct : (events.map (·.eventId)).Nodup)
    {tables written : SupabaseTables} (agrees : RemoteAgrees events tables) {event : TraceEvent}
    (member : event ∈ events) {inserted : List Uuid}
    (done : tables.insertEvent event = .ok (inserted, written)) : RemoteAgrees events written := by
  obtain ⟨row, made, done⟩ := Fallible.bind_eq_ok_iff.mp done
  cases done
  obtain ⟨sameId, sameEvent⟩ := event_of_fromEvent made
  refine ⟨?_, agrees.chunks⟩
  intro found isFound other isOther otherId
  rcases KeyedTable.mem_insertOrIgnore isFound with held | rfl
  · exact agrees.rows found held other isOther otherId
  · -- ids of one push are distinct, so the row was made of this event
    have same : other = event :=
      List.inj_on_of_nodup_map distinct isOther member (otherId.symm.trans sameId)
    rw [same]
    exact sameEvent

theorem RemoteAgrees.insertChunkRows {tables written : SupabaseTables}
    (agrees : RemoteAgrees events tables) {eventId : Uuid} {rows : List SupabaseChunkRow}
    (own : ∀ chunk ∈ rows, ChunkAgrees events chunk)
    (done : tables.insertChunkRows eventId rows = .ok written) : RemoteAgrees events written := by
  unfold SupabaseTables.insertChunkRows at done
  split at done
  · cases done
    refine ⟨agrees.rows, fun chunk member => ?_⟩
    rcases KeyedTable.mem_insertOrIgnoreAll member with held | added
    · exact agrees.chunks chunk held
    · exact own chunk added
  · cases done

/-- What is left of a push once an event is inserted: its chunk rows come next. -/
theorem Pushing.Sends.next_event (distinct : (events.map (·.eventId)).Nodup) {event : TraceEvent}
    {rest : List TraceEvent} {eventId : Uuid} {response recorded : PushEventsResponse}
    (own : Pushing.Sends events ⟨event :: rest, eventId, [], response⟩) {rows : List SupabaseChunkRow}
    (made : supabaseChunkRows event = .ok rows) :
    Pushing.Sends events
      ⟨rest, event.eventId, OffsetPages.slices chunkSlice rows, recorded⟩ := by
  have member : event ∈ events := own.pending List.mem_cons_self
  refine ⟨fun later isLater => own.pending (List.mem_cons_of_mem _ isLater), ?_, ?_⟩
  · intro slice isSlice chunk isChunk other isOther otherId
    obtain ⟨chunkId, raw⟩ := chunks_of_supabaseChunkRows made chunk
      (OffsetPages.subset_of_mem_slices isSlice isChunk)
    have same : other = event :=
      List.inj_on_of_nodup_map distinct isOther member (otherId.symm.trans chunkId)
    rw [same]
    exact raw
  · intro other isOther
    rcases own.sent other isOther with waiting | sendable
    · rcases List.mem_cons.mp waiting with rfl | later
      · exact Or.inr ⟨rows, made⟩
      · exact Or.inl later
    · exact Or.inr sendable

/-- One request of the push keeps the agreement. -/
theorem pushRequest_agrees (distinct : (events.map (·.eventId)).Nodup) {tables : SupabaseTables}
    (agrees : RemoteAgrees events tables) {phase : PushPhase}
    (sends : ∀ push, phase = .sending push → push.Sends events) :
    RemoteAgrees events (pushRequest tables phase).2 ∧
      ∀ push, (pushRequest tables phase).1 = .sending push → push.Sends events := by
  have failed : ∀ push, PushPhase.failed = .sending push → push.Sends events :=
    fun _ absurd => nomatch absurd
  cases phase with
  | failed => exact ⟨agrees, failed⟩
  | sending push =>
      have own := sends push rfl
      obtain ⟨pendingEvents, eventId, slices, response⟩ := push
      cases slices with
      | cons slice rest =>
          unfold pushRequest
          dsimp only
          cases done : tables.insertChunkRows eventId slice with
          | error failure => exact ⟨agrees, failed⟩
          | ok written =>
              obtain ⟨ownSlice, ownRest⟩ := List.forall_mem_cons.mp own.slices
              refine ⟨agrees.insertChunkRows ownSlice done, fun push same => ?_⟩
              cases same
              exact ⟨own.pending, ownRest, own.sent⟩
      | nil =>
          cases pendingEvents with
          | nil => exact ⟨agrees, sends⟩
          | cons event rest =>
              have member : event ∈ events := own.pending List.mem_cons_self
              unfold pushRequest
              dsimp only
              cases done : tables.insertEvent event with
              | error failure => exact ⟨agrees, failed⟩
              | ok outcome =>
                  obtain ⟨inserted, written⟩ := outcome
                  have grown := agrees.insertEvent distinct member done
                  dsimp only
                  cases made : supabaseChunkRows event with
                  | error failure => exact ⟨grown, failed⟩
                  | ok rows =>
                      refine ⟨grown, fun push same => ?_⟩
                      cases same
                      exact own.next_event distinct made

end Push

/-! ## What a pull leaves at the client -/

theorem carriedChunks_of_decode {event : TraceEvent} {entries : List (String × Json)}
    {payload : SourceSessionObservedPayload} (isObject : event.payload = .object entries)
    (decoded : SourceSessionObservedPayload.decode event.payload = some payload) :
    event.carriedChunks = payload.normalizedChunks := by
  rw [isObject] at decoded
  have read := (SourceSessionObservedPayload.readFrom_of_decode decoded).normalizedChunks
  have any : ∀ json value, Json.decodeValue json = some value → value = json :=
    fun _ _ => Option.some.inj ∘ Eq.symm
  unfold TraceEvent.carriedChunks Json.get
  unfold Json.defaultedIn at read
  rw [isObject]
  dsimp only
  cases found : entries.lookup "normalized_chunks" with
  | none =>
      rw [found] at read
      exact Option.some.inj read
  | some json =>
      rw [found] at read
      have same := Json.decodeArray_eq_some any read
      rw [List.map_id'] at same
      rw [same]

/-- An observed session is appended with the chunks that it carries. -/
theorem raw_of_carried {event : TraceEvent} {entries : List (String × Json)} {payload : Json}
    {chunks : List EventChunkRow} (observed : event.eventType = .sourceSessionObserved)
    (isObject : event.payload = .object entries)
    (compacted : compactPayloadAndChunks event = .ok (payload, chunks)) :
    chunks.map (·.raw) = event.carriedChunks := by
  obtain ⟨decodedPayload, decoded⟩ := storable_of_compact compacted observed
  rw [raw_of_compact compacted, carriedChunks_of_decode isObject decoded]
  unfold TraceEvent.observedChunks TraceEvent.observed
  rw [if_pos observed, decoded]

theorem LocalEventStore.Appended.chunksOf_of_ne {rfc3339 : DateTime → String}
    {store grown : LocalEventStore} {repoId : String} {event : TraceEvent} {payload : Json}
    {chunks : List EventChunkRow}
    (done : LocalEventStore.Appended rfc3339 store repoId event payload chunks grown)
    {eventId : Uuid} (differs : eventId ≠ event.eventId) :
    grown.chunksOf eventId = store.chunksOf eventId := by
  have same := done.chunkRows_of_ne differs
  unfold LocalEventStore.chunkRows at same
  unfold LocalEventStore.chunksOf
  rw [same]

/-- The client that pulls holds the sessions among the events with all their chunks. -/
def HoldsTranscripts (events : List TraceEvent) (store : LocalEventStore) : Prop :=
  ∀ event ∈ events, event.eventType = .sourceSessionObserved → event.Sendable →
    event.eventId ∈ store.storedIds → store.chunksOf event.eventId = event.carriedChunks

/-- An event that is one of the pushed sessions carries the chunks of that session. -/
def CarriesTranscript (events : List TraceEvent) (event : TraceEvent) : Prop :=
  ∀ pushed ∈ events, pushed.eventType = .sourceSessionObserved → pushed.Sendable →
    event.eventId = pushed.eventId →
      event.eventType = .sourceSessionObserved ∧ (∃ entries, event.payload = .object entries) ∧
        event.carriedChunks = pushed.carriedChunks

section Pull
variable {events : List TraceEvent} {rfc3339 : DateTime → String} {repoId : String}

theorem HoldsTranscripts.appendEvent {store grown : LocalEventStore}
    (holds : HoldsTranscripts events store) {event : TraceEvent}
    (carries : CarriesTranscript events event)
    (appended : store.appendEvent rfc3339 repoId event = .ok grown) :
    HoldsTranscripts events grown := by
  obtain ⟨payload, chunks, done⟩ := LocalEventStore.appended_of_ok appended
  intro pushed member observed sendable stored
  by_cases same : pushed.eventId = event.eventId
  · obtain ⟨type, ⟨entries, isObject⟩, carried⟩ := carries pushed member observed sendable same.symm
    have isObjectInRepo : (event.inRepo repoId).payload = .object entries := isObject
    have typeInRepo : (event.inRepo repoId).eventType = .sourceSessionObserved := type
    have raws := raw_of_carried typeInRepo isObjectInRepo done.compacted
    rw [same, done.chunksOf_self, raws]
    exact carried
  · rw [done.chunksOf_of_ne same]
    have before := ((done.mem_storedIds _).mp stored).resolve_left same
    exact holds pushed member observed sendable before

theorem HoldsTranscripts.appendEvents {store : LocalEventStore}
    (holds : HoldsTranscripts events store) {pulled : List TraceEvent}
    (carries : ∀ event ∈ pulled, CarriesTranscript events event) :
    HoldsTranscripts events (store.appendEvents rfc3339 repoId pulled).2 := by
  induction pulled generalizing store with
  | nil => exact holds
  | cons event rest ih =>
      obtain ⟨first, later⟩ := List.forall_mem_cons.mp carries
      unfold LocalEventStore.appendEvents
      cases appended : store.appendEvent rfc3339 repoId event with
      | error failure => exact holds
      | ok grown => exact ih (holds.appendEvent first appended) later

/-- Whatever becomes of a pull, its client has kept its events or appended the new ones. -/
theorem pullEvents_eventStore {Db : Type} (rfc3339 : DateTime → String) (repoId : String)
    (metadata : MetadataOps Db) (replica : Replica Db) (remote : List TraceEvent) :
    let pulled := (pullEvents rfc3339 metadata replica repoId remote false).2
    pulled.eventStore = replica.eventStore ∨
      pulled.eventStore = (replica.eventStore.appendEvents rfc3339 repoId
        (replica.eventStore.dedupeRemoteEvents repoId remote)).2 := by
  dsimp only
  cases result : (pullEvents rfc3339 metadata replica repoId remote false).1 with
  | error failure =>
      obtain ⟨_, became⟩ := pullEvents_error result
      rw [became]
      exact Or.inl rfl
  | ok outcome => exact Or.inr (pullEvents_of_ok result).2

end Pull

/-! ### The events that a pull appends -/

/-- The stored event of a pushed session takes whatever chunks are put back. -/
theorem takesChunks_eventWithoutChunks {event : TraceEvent} {entries : List (String × Json)}
    (isObject : event.payload = .object entries) (chunks : List Json) :
    TakesChunks chunks (eventWithoutChunks event) := by
  unfold eventWithoutChunks
  rw [isObject]
  intro _
  refine ⟨fun _ => ?_, fun _ => ⟨_, rfl⟩⟩
  have gone : (entries.filter fun entry => entry.1 != "normalized_chunks").lookup
      "normalized_chunks" = none := by
    apply List.lookup_eq_none_iff.mpr
    intro entry member
    have differs := bne_iff_ne.mp (List.mem_filter.mp member).2
    exact bne_iff_ne.mpr differs.symm
  unfold TraceEvent.carriedChunks Json.get
  dsimp only
  rw [gone]

section Finish
variable {Db : Type} {setting : PullSetting Db} {events listed : List TraceEvent}
  {rows : List EventChunkRawRow} {replica : Replica Db}

/-- What a listing shows of the pushed events is what the push wrote of them. -/
def ShowsPushed (events listed : List TraceEvent) : Prop :=
  ∀ shown ∈ listed, ∀ event ∈ events, shown.eventId = event.eventId →
    shown = eventWithoutChunks event

theorem carriesTranscript_of_attached (shows : ShowsPushed events listed) {shown event : TraceEvent}
    (isShown : shown ∈ listed) (attached : attachEventChunks rows shown = .ok event)
    (read : ∀ pushed ∈ events, pushed.eventType = .sourceSessionObserved → pushed.Sendable →
      shown.eventId = pushed.eventId →
        (rows.filter (ownRow pushed)).map (·.raw) = pushed.carriedChunks) :
    CarriesTranscript events event := by
  intro pushed member observed sendable sameId
  have shownId : shown.eventId = pushed.eventId := (eventId_attached attached).symm.trans sameId
  have isPushed := shows shown isShown pushed member shownId
  obtain ⟨entries, isObject⟩ := sendable.payload_object observed
  have own := read pushed member observed sendable shownId
  unfold ownRow at own
  rw [← shownId] at own
  obtain ⟨delivered, isDelivered, delivers⟩ := (attach_delivers_iff own).mpr
    (isPushed ▸ takesChunks_eventWithoutChunks isObject _)
  cases attached.symm.trans isDelivered
  obtain ⟨payload, rfl, staysObject⟩ := attached_eq attached
  have type : shown.eventType = .sourceSessionObserved := by
    rw [isPushed, eventType_eventWithoutChunks, observed]
  have shownObject : ∃ entries, shown.payload = .object entries := by
    rw [isPushed]
    unfold eventWithoutChunks
    rw [isObject]
    exact ⟨_, rfl⟩
  exact ⟨type, staysObject shownObject, delivers.carried type⟩

/-- A pull that has read the chunk rows of the new sessions keeps their transcripts whole. -/
theorem holdsTranscripts_finishPull (shows : ShowsPushed events listed)
    (holds : HoldsTranscripts events replica.eventStore)
    (read : ∀ pushed ∈ events, pushed.eventType = .sourceSessionObserved → pushed.Sendable →
      pushed.eventId ∈ listed.map (·.eventId) →
        pushed.eventId ∉ replica.eventStore.knownEventIds setting.storeRepoId →
          (rows.filter (ownRow pushed)).map (·.raw) = pushed.carriedChunks) :
    HoldsTranscripts events (finishPull setting listed rows replica).eventStore := by
  unfold finishPull
  cases done : listed.mapM (attachEventChunks rows) with
  | error failure => exact holds
  | ok delivered =>
      dsimp only
      have carries : ∀ event ∈ replica.eventStore.dedupeRemoteEvents setting.storeRepoId delivered,
          CarriesTranscript events event := by
        intro event member
        have isDelivered : event ∈ delivered := (FirstSeen.fresh_sublist ..).subset member
        have new : event.eventId ∉ replica.eventStore.knownEventIds setting.storeRepoId :=
          FirstSeen.key_notMem_of_fresh _ member
        obtain ⟨shown, isShown, attached⟩ :=
          Fallible.exists_of_mem_right (Fallible.forall₂_of_mapM done) isDelivered
        refine carriesTranscript_of_attached shows isShown attached ?_
        intro pushed isPushed observed sendable sameId
        have isListed : pushed.eventId ∈ listed.map (·.eventId) :=
          List.mem_map.mpr ⟨shown, isShown, sameId⟩
        have unknown := sameId ▸ eventId_attached attached ▸ new
        exact read pushed isPushed observed sendable isListed unknown
      rcases pullEvents_eventStore setting.rfc3339 setting.storeRepoId setting.metadata replica
        delivered with same | appended
      · rw [same]
        exact holds
      · rw [appended]
        exact holds.appendEvents carries

end Finish

/-! ## Every interleaving -/

theorem rows_subset_pushRequest (tables : SupabaseTables) (phase : PushPhase) :
    tables.events.rows ⊆ (pushRequest tables phase).2.events.rows := by
  have same : tables.events.rows ⊆ tables.events.rows := List.Subset.refl _
  cases phase with
  | failed => exact same
  | sending push =>
      obtain ⟨pending, eventId, slices, response⟩ := push
      cases slices with
      | cons slice rest =>
          unfold pushRequest
          dsimp only
          cases done : tables.insertChunkRows eventId slice with
          | error failure => exact same
          | ok written =>
              unfold SupabaseTables.insertChunkRows at done
              split at done
              · cases done
                exact same
              · cases done
      | nil =>
          cases pending with
          | nil => exact same
          | cons event rest =>
              unfold pushRequest
              dsimp only
              cases done : tables.insertEvent event with
              | error failure => exact same
              | ok outcome =>
                  have grown : tables.events.rows ⊆ outcome.2.events.rows := by
                    obtain ⟨row, _, done⟩ := Fallible.bind_eq_ok_iff.mp done
                    cases done
                    exact fun _ held => KeyedTable.mem_insertOrIgnore_of_mem held row
                  dsimp only
                  cases supabaseChunkRows event with
                  | error failure => exact grown
                  | ok rows => exact grown

section Runs
variable {Db : Type} {setting : PullSetting Db} {events : List TraceEvent} {world : SyncWorld Db}

/-- The chunk rows that the remote answers for a session it holds are its transcript. -/
theorem transcript_answered {tables : SupabaseTables} {repoId : String}
    (agrees : RemoteAgrees events tables) {event : TraceEvent} (member : event ∈ events)
    (holds : tables.HoldsTranscript event) {row : InsertEventRow}
    (isRow : row ∈ tables.eventRowsOf repoId) (sameId : row.eventId = event.eventId) :
    (((tables.chunkRowsOf repoId).map (·.selected)).filter (ownRow event)).map (·.raw) =
      event.carriedChunks := by
  have answered := SupabaseTables.selected_chunks isRow
  rw [row.idColumn, sameId] at answered
  unfold ownRow
  rw [answered]
  unfold SupabaseTables.storedChunks
  apply (tables.indexed_chunkRowsOfEvent event.eventId).map_eq
  · intro chunk isChunk
    obtain ⟨held, chunkId⟩ := tables.mem_chunkRowsOfEvent.mp isChunk
    exact agrees.chunks chunk held event member chunkId
  · intro position within
    obtain ⟨chunk, held, key⟩ := holds position within
    have parts := Prod.ext_iff.mp key
    exact ⟨chunk, tables.mem_chunkRowsOfEvent.mpr ⟨held, parts.1⟩, parts.2⟩

/-- What holds between any two requests of a run that reads whole transcripts. -/
structure Following (setting : PullSetting Db) (events : List TraceEvent) (world : SyncWorld Db) :
    Prop where
  remote : RemoteAgrees events world.tables
  sends : ∀ push, world.push = .sending push → push.Sends events
  listed : ∀ listed reading, world.pull = .paging listed reading → ∀ shown ∈ listed,
    ∃ row ∈ world.tables.eventRowsOf setting.repoId, row.event = shown
  holds : HoldsTranscripts events world.replica.eventStore

/-- A listing that a pull works on shows the pushed events as the remote holds them. -/
theorem Following.showsPushed (following : Following setting events world)
    {listed : List TraceEvent} {reading : Reading EventChunkRawRow}
    (phase : world.pull = .paging listed reading) : ShowsPushed events listed := by
  intro event isShown pushed isPushed sameId
  obtain ⟨row, isRow, rfl⟩ := following.listed listed reading phase event isShown
  have held := (List.mem_filter.mp isRow).1
  exact following.remote.rows row held pushed isPushed (row.idColumn.symm.trans sameId)

theorem Following.pull (following : Following setting events world)
    (reads : ReadsTranscripts setting events world .pull) :
    Following setting events (nextSync setting world .pull) := by
  refine ⟨following.remote, following.sends, ?_, ?_⟩
  · unfold nextSync pullRequest
    dsimp only
    cases phase : world.pull with
    | idle =>
        intro listed reading same shown isShown
        cases same
        unfold SupabaseTables.listEvents answer at isShown
        obtain ⟨row, isRow, rfl⟩ := List.mem_map.mp isShown
        exact ⟨row, (setting.times.perm _).mem_iff.mp (List.mem_of_mem_take isRow), rfl⟩
    | paging held read =>
        intro listed reading same
        dsimp only at same
        split at same
        · cases same
          exact following.listed held read phase
        · cases same
  · unfold nextSync pullRequest
    dsimp only
    cases phase : world.pull with
    | idle => exact following.holds
    | paging listed reading =>
        dsimp only
        cases extended : reading.extend maxRows
            (world.tables.chunkPage setting.repoId reading.offset) with
        | mk next isLast =>
            cases isLast with
            | false => exact following.holds
            | true =>
                have shows := following.showsPushed phase
                refine holdsTranscripts_finishPull shows following.holds ?_
                intro pushed isPushed observed _ isListed new
                obtain ⟨transcript, skipped⟩ := reads rfl listed reading phase
                  (OffsetPages.length_of_last extended) pushed isPushed observed isListed new
                obtain ⟨event, isShown, sameId⟩ := List.mem_map.mp isListed
                obtain ⟨row, isRow, rfl⟩ := following.listed listed reading phase event isShown
                have answered := transcript_answered following.remote isPushed transcript isRow
                  (row.idColumn.symm.trans sameId)
                rw [SupabaseTables.chunkPage_eq] at extended
                rw [(OffsetPages.filter_last_iff extended).mpr skipped]
                exact answered

theorem Following.next (distinct : (events.map (·.eventId)).Nodup)
    (following : Following setting events world) {action : SyncAction}
    (reads : ReadsTranscripts setting events world action) :
    Following setting events (nextSync setting world action) := by
  cases action with
  | push =>
      obtain ⟨agrees, sends⟩ := pushRequest_agrees distinct following.remote following.sends
      refine ⟨agrees, sends, ?_, following.holds⟩
      intro listed reading same shown isShown
      obtain ⟨row, isRow, rfl⟩ := following.listed listed reading same shown isShown
      obtain ⟨held, ofRepo⟩ := List.mem_filter.mp isRow
      exact ⟨row, List.mem_filter.mpr ⟨rows_subset_pushRequest _ _ held, ofRepo⟩, rfl⟩
  | pushFails =>
      refine ⟨following.remote, ?_, following.listed, following.holds⟩
      intro push same
      unfold nextSync at same
      dsimp only at same
      split at same
      · exact following.sends push same
      · cases same
  | pull => exact following.pull reads
  | pullFails =>
      exact ⟨following.remote, following.sends, fun _ _ same => (nomatch same), following.holds⟩

/-- Where a push of the events starts: of their rows the remote holds none that the push
would not write, and the client none of their sessions without its chunks. -/
structure StartsClean (events : List TraceEvent) (world : SyncWorld Db) : Prop where
  push : world.push = .start events
  pull : world.pull = .idle
  remote : RemoteAgrees events world.tables
  holds : HoldsTranscripts events world.replica.eventStore

theorem StartsClean.following (clean : StartsClean events world) :
    Following setting events world := by
  refine ⟨clean.remote, ?_, ?_, clean.holds⟩
  · intro push same
    rw [clean.push] at same
    cases same
    exact ⟨List.Subset.refl _, fun _ member => (nomatch member), fun _ => Or.inl⟩
  · intro listed reading same
    rw [clean.pull] at same
    cases same

theorem Following.transcriptsArrive (following : Following setting events world) :
    TranscriptsArrive events world := by
  intro completed _ event member observed stored
  cases phase : world.push with
  | failed =>
      rw [phase] at completed
      exact completed.elim
  | sending push =>
      rw [phase] at completed
      have sent := (following.sends push phase).sent event member
      rw [completed.1] at sent
      exact following.holds event member observed (sent.resolve_left List.not_mem_nil) stored

/-- Along every run in which pulls read whole transcripts, the transcripts of the pushed
sessions arrive. -/
theorem transcripts_arrive (setting : PullSetting Db) (distinct : (events.map (·.eventId)).Nodup)
    (clean : StartsClean events world) {actions : List SyncAction}
    (reads : Runs.Meets (nextSync setting) (ReadsTranscripts setting events) world actions) :
    Runs.Always (nextSync setting) (TranscriptsArrive events) world actions := by
  have following := Runs.always_of_meets (nextSync setting)
    (fun world action (invariant : Following setting events world) permitted =>
      invariant.next distinct permitted) clean.following reads
  exact Runs.always_mono (nextSync setting) (fun _ => Following.transcriptsArrive) following

end Runs

/-! ## A pull between the two requests of a push -/

def raceSetting : PullSetting MetadataDb where
  times := insertionOrder
  rfc3339 := fun _ => "2026-06-26T00:00:00+00:00"
  metadata := brickMetadata (fun _ => none) ⟨0⟩
  repoId := "repo-a"
  storeRepoId := "repo-a"

def pushedSession : TraceEvent :=
  { observedSession [.object [("role", .string "assistant")]] with
    repoId := some "repo-a"
    orgId := some ⟨"org-a"⟩ }

def raceWorld : SyncWorld MetadataDb where
  tables := .empty
  push := .start [pushedSession]
  replica := emptyClient
  pull := .idle
  lateStart := false
  pulledAgain := false

theorem raceWorld_clean : StartsClean [pushedSession] raceWorld where
  push := rfl
  pull := rfl
  remote := ⟨fun _ member => (nomatch member), fun _ member => (nomatch member)⟩
  holds := fun _ _ _ _ stored => (nomatch stored)

def pullAfterwards : List SyncAction := [.push, .push, .pull, .pull]

theorem pull_afterwards_arrives :
    Runs.Always (nextSync raceSetting) (TranscriptsArrive [pushedSession]) raceWorld
      pullAfterwards := by
  have distinct : ([pushedSession].map (·.eventId)).Nodup := List.nodup_singleton _
  refine transcripts_arrive raceSetting distinct raceWorld_clean ?_
  refine ⟨fun push => (nomatch push), fun push => (nomatch push), ?_, ?_, trivial⟩
  · intro _ listed reading same
    cases same
  · intro _ listed reading same _ event member _ _ _
    cases same
    cases List.mem_singleton.mp member
    refine ⟨fun index within => ?_, rfl⟩
    cases Nat.lt_one_iff.mp within
    exact ⟨_, List.mem_cons_self, rfl⟩

def pullBetween : List SyncAction := [.push, .pull, .pull, .push, .pull, .pull]

theorem pull_between_loses_chunks :
    ¬ Runs.Always (nextSync raceSetting) (TranscriptsArrive [pushedSession]) raceWorld
      pullBetween := by
  intro always
  have arrived := Runs.always_last _ always ⟨rfl, rfl⟩ rfl _ List.mem_cons_self rfl
    List.mem_cons_self
  cases arrived

end BrickTrace
