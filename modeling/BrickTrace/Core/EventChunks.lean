import BrickTrace.Lib.Runs
import BrickTrace.Core.LocalEventIds

/-!
# Chunk rows of the stored events

An append writes two tables.  A taken event id keeps its first event row, but
its chunk rows are always replaced by those of the event appended last.  The two
tables tell of one version of the event as long as an id that is appended again
comes with the transcript it was first stored with.
-/

set_option autoImplicit false

namespace BrickTrace

open KeyedRows (KeyedTable)

/-! ## What an event is stored as -/

/-- The event as it is stored: a missing repo id is filled in. -/
def TraceEvent.inRepo (event : TraceEvent) (repoId : String) : TraceEvent :=
  { event with repoId := some (event.repoId.getD repoId) }

/-- The payload of an observed source session. -/
def TraceEvent.observed (event : TraceEvent) : Option SourceSessionObservedPayload :=
  if event.eventType = .sourceSessionObserved then
    SourceSessionObservedPayload.decode event.payload
  else none

def TraceEvent.observedChunks (event : TraceEvent) : List Json :=
  match event.observed with
  | none => []
  | some payload => payload.normalizedChunks

/-- An append takes every event but an observed session whose payload does not decode. -/
def TraceEvent.Storable (event : TraceEvent) : Prop :=
  event.eventType = .sourceSessionObserved →
    ∃ payload, SourceSessionObservedPayload.decode event.payload = some payload

def brickEventRow (rfc3339 : DateTime → String) (repoId : String) (event : TraceEvent)
    (payload : Json) : BrickEventRow where
  eventId := event.eventId
  repoId := event.repoId.getD repoId
  orgId := event.orgId
  occurredAt := rfc3339 event.occurredAt
  event := { event.inRepo repoId with payload := payload }
  idColumn := rfl
  repoColumn := rfl

section Compact
variable {event : TraceEvent} {payload : Json} {chunks : List EventChunkRow}

theorem storable_of_compact (compacted : compactPayloadAndChunks event = .ok (payload, chunks)) :
    event.Storable := by
  intro type
  unfold compactPayloadAndChunks at compacted
  rw [if_neg (not_not.mpr type)] at compacted
  cases decoded : SourceSessionObservedPayload.decode event.payload with
  | none =>
      rw [decoded] at compacted
      cases compacted
  | some observed => exact ⟨observed, rfl⟩

theorem compact_of_storable (storable : event.Storable) :
    ∃ payload chunks, compactPayloadAndChunks event = .ok (payload, chunks) := by
  unfold compactPayloadAndChunks
  split
  · exact ⟨_, _, rfl⟩
  · rename_i type
    obtain ⟨observed, decoded⟩ := storable (not_not.mp type)
    rw [decoded]
    exact ⟨_, _, rfl⟩

/-- The stored payload of an observed session is what was read, without its chunks. -/
theorem payload_of_compact (observed : event.eventType = .sourceSessionObserved)
    (compacted : compactPayloadAndChunks event = .ok (payload, chunks)) :
    ∃ read, SourceSessionObservedPayload.decode event.payload = some read ∧
      payload = { read with normalizedChunks := [] }.encode := by
  obtain ⟨read, decoded⟩ := storable_of_compact compacted observed
  unfold compactPayloadAndChunks at compacted
  rw [if_neg (not_not.mpr observed), decoded] at compacted
  cases compacted
  exact ⟨read, decoded, rfl⟩

/-- The chunk rows of an event number its chunks and repeat its columns. -/
theorem chunks_of_compact (compacted : compactPayloadAndChunks event = .ok (payload, chunks)) :
    (event.observed = none ∧ chunks = []) ∨
      ∃ observed, event.observed = some observed ∧
        chunks = observed.normalizedChunks.mapIdx fun index raw =>
          eventChunkRow event observed raw index := by
  unfold compactPayloadAndChunks at compacted
  unfold TraceEvent.observed
  by_cases type : event.eventType = .sourceSessionObserved
  · rw [if_neg (not_not.mpr type)] at compacted
    rw [if_pos type]
    cases decoded : SourceSessionObservedPayload.decode event.payload with
    | none =>
        rw [decoded] at compacted
        cases compacted
    | some observed =>
        rw [decoded] at compacted
        cases compacted
        exact Or.inr ⟨observed, rfl, rfl⟩
  · rw [if_pos type] at compacted
    cases compacted
    exact Or.inl ⟨if_neg type, rfl⟩

theorem raw_of_compact (compacted : compactPayloadAndChunks event = .ok (payload, chunks)) :
    chunks.map (·.raw) = event.observedChunks := by
  unfold TraceEvent.observedChunks
  rcases chunks_of_compact compacted with ⟨nothing, rfl⟩ | ⟨observed, found, rfl⟩
  · rw [nothing]
    rfl
  · rw [found]
    apply List.ext_getElem
    · simp
    · intro index _ _
      simp [eventChunkRow]

theorem chunkIndex_of_compact (compacted : compactPayloadAndChunks event = .ok (payload, chunks)) :
    chunks.map (·.chunkIndex) = List.range chunks.length := by
  rcases chunks_of_compact compacted with ⟨_, rfl⟩ | ⟨observed, _, rfl⟩
  · rfl
  · apply List.ext_getElem
    · simp
    · intro index _ _
      simp [eventChunkRow]

theorem sorted_of_compact (compacted : compactPayloadAndChunks event = .ok (payload, chunks)) :
    chunks.Pairwise fun first second => first.chunkIndex < second.chunkIndex := by
  have indexes : (chunks.map (·.chunkIndex)).Pairwise (· < ·) := by
    rw [chunkIndex_of_compact compacted]
    exact List.pairwise_lt_range
  exact List.pairwise_map.mp indexes

theorem columns_of_compact (compacted : compactPayloadAndChunks event = .ok (payload, chunks)) :
    ∀ chunk ∈ chunks, chunk.eventId = event.eventId ∧ chunk.repoId = event.repoId.getD "" ∧
      chunk.orgId = event.orgId ∧ event.observed.map (·.sourceId) = some chunk.sourceId ∧
      event.observed.map (·.externalSessionId) = some chunk.externalSessionId := by
  rcases chunks_of_compact compacted with ⟨_, rfl⟩ | ⟨observed, found, rfl⟩
  · intro chunk member
    cases member
  · intro chunk member
    obtain ⟨index, _, rfl⟩ := List.mem_mapIdx.mp member
    rw [found]
    exact ⟨rfl, rfl, rfl, rfl, rfl⟩

theorem nodup_keys_of_compact (compacted : compactPayloadAndChunks event = .ok (payload, chunks)) :
    (chunks.map EventChunkRow.key).Nodup := by
  have indexes : (chunks.map EventChunkRow.key).map Prod.snd = List.range chunks.length := by
    rw [List.map_map]
    exact chunkIndex_of_compact compacted
  exact List.Nodup.of_map Prod.snd (indexes ▸ List.nodup_range)

end Compact

/-! ## What an append leaves -/

namespace LocalEventStore

/-- The chunk rows of one event, in the order they were written. -/
def chunkRows (store : LocalEventStore) (eventId : Uuid) : List EventChunkRow :=
  store.chunks.rows.filter fun row => row.eventId == eventId

def storedIds (store : LocalEventStore) : List Uuid := store.events.rows.map (·.eventId)

section Append
variable {rfc3339 : DateTime → String} {store grown : LocalEventStore} {repoId : String}
  {event : TraceEvent}

/-- What one append that succeeds does: the event row is written unless the id is
taken, and the chunk rows of the id are replaced. -/
structure Appended (rfc3339 : DateTime → String) (store : LocalEventStore) (repoId : String)
    (event : TraceEvent) (payload : Json) (chunks : List EventChunkRow)
    (grown : LocalEventStore) : Prop where
  compacted : compactPayloadAndChunks (event.inRepo repoId) = .ok (payload, chunks)
  path : grown.path = store.path
  events : grown.events = store.events.insertOrIgnore (brickEventRow rfc3339 repoId event payload)
  chunks : grown.chunks.rows =
    (store.chunks.rows.filter fun row => !(row.eventId == event.eventId)) ++ chunks

theorem appended_of_ok (appended : store.appendEvent rfc3339 repoId event = .ok grown) :
    ∃ payload chunks, Appended rfc3339 store repoId event payload chunks grown := by
  unfold appendEvent at appended
  obtain ⟨⟨payload, chunks⟩, compacted, appended⟩ := Fallible.bind_eq_ok_iff.mp appended
  obtain ⟨written, inserted, appended⟩ := Fallible.bind_eq_ok_iff.mp appended
  cases appended
  refine ⟨payload, chunks, compacted, rfl, rfl, ?_⟩
  dsimp only at inserted ⊢
  cases done : chunks.foldlM KeyedTable.insert
      (store.chunks.deleteWhere fun chunk => chunk.eventId == event.eventId) with
  | error taken =>
      rw [done] at inserted
      cases inserted
  | ok kept =>
      rw [done] at inserted
      cases inserted
      exact KeyedTable.rows_of_foldlM_insert done

/-- The rows with the id are gone when the new ones come, so an append only fails on
a payload that does not decode. -/
theorem appendEvent_ok_of_storable (storable : event.Storable) :
    ∃ grown, store.appendEvent rfc3339 repoId event = .ok grown := by
  have storableInRepo : (event.inRepo repoId).Storable := storable
  obtain ⟨payload, chunks, compacted⟩ := compact_of_storable storableInRepo
  have free : ∀ chunk ∈ chunks, chunk.key ∉
      (store.chunks.deleteWhere fun chunk => chunk.eventId == event.eventId).rows.map
        EventChunkRow.key := by
    intro chunk member taken
    obtain ⟨held, isHeld, sameKey⟩ := List.mem_map.mp taken
    have differs := (List.mem_filter.mp isHeld).2
    have sameId : held.eventId = event.eventId :=
      (congrArg Prod.fst sameKey).trans (columns_of_compact compacted chunk member).1
    simp [sameId] at differs
  obtain ⟨written, inserted, _⟩ :=
    KeyedTable.foldlM_insert_ok (nodup_keys_of_compact compacted) free
  unfold appendEvent
  dsimp only
  unfold TraceEvent.inRepo at compacted
  rw [compacted]
  change ∃ grown, ((chunks.foldlM KeyedTable.insert _).mapError _ >>= _) = .ok grown
  rw [inserted]
  exact ⟨_, rfl⟩

theorem storable_of_ok (appended : store.appendEvent rfc3339 repoId event = .ok grown) :
    event.Storable := by
  obtain ⟨payload, chunks, done⟩ := appended_of_ok appended
  have storableInRepo := storable_of_compact done.compacted
  exact storableInRepo

namespace Appended
variable {payload : Json} {chunks : List EventChunkRow}
  (done : Appended rfc3339 store repoId event payload chunks grown)
include done

theorem chunkRows_self : grown.chunkRows event.eventId = chunks := by
  have own : ∀ chunk ∈ chunks, (chunk.eventId == event.eventId) = true :=
    fun chunk member => beq_iff_eq.mpr (columns_of_compact done.compacted chunk member).1
  unfold chunkRows
  rw [done.chunks, List.filter_append, List.filter_filter, List.filter_eq_self.mpr own]
  simp

theorem chunkRows_of_ne {eventId : Uuid} (differs : eventId ≠ event.eventId) :
    grown.chunkRows eventId = store.chunkRows eventId := by
  have none : chunks.filter (fun chunk => chunk.eventId == eventId) = [] := by
    apply List.filter_eq_nil_iff.mpr
    intro chunk member
    rw [(columns_of_compact done.compacted chunk member).1, beq_iff_eq]
    exact differs.symm
  unfold chunkRows
  rw [done.chunks, List.filter_append, none, List.append_nil, List.filter_filter]
  apply List.filter_congr
  intro row _
  by_cases same : row.eventId = eventId
  · simp [same, differs]
  · simp [same]

theorem events_of_stored (stored : event.eventId ∈ store.storedIds) :
    grown.events = store.events := by
  rw [done.events]
  exact KeyedTable.insertOrIgnore_of_taken stored

theorem rows_of_new (new : event.eventId ∉ store.storedIds) :
    grown.events.rows = store.events.rows ++ [brickEventRow rfc3339 repoId event payload] := by
  rw [done.events]
  exact KeyedTable.rows_insertOrIgnore_of_free new

theorem mem_storedIds (eventId : Uuid) :
    eventId ∈ grown.storedIds ↔ eventId = event.eventId ∨ eventId ∈ store.storedIds := by
  by_cases stored : event.eventId ∈ store.storedIds
  · unfold storedIds
    rw [done.events_of_stored stored]
    constructor
    · exact Or.inr
    · rintro (rfl | held)
      · exact stored
      · exact held
  · unfold storedIds
    rw [done.rows_of_new stored, List.map_append, List.mem_append, List.map_singleton,
      List.mem_singleton, or_comm]
    rfl

end Appended

end Append

end LocalEventStore

/-! ## Runs of appends

A run is followed together with the version of every stored event: the event as
the append that wrote its row was given it, with the repo filled in. -/

structure RecordedStore where
  store : LocalEventStore
  version : Uuid → Option TraceEvent

structure EventAppend where
  repoId : String
  event : TraceEvent

def EventAppend.inRepo (append : EventAppend) : TraceEvent := append.event.inRepo append.repoId

def RecordedStore.new (path : String) : RecordedStore := ⟨.new path, fun _ => none⟩

section Runs
variable (rfc3339 : DateTime → String)

def nextRecorded (state : RecordedStore) (append : EventAppend) : RecordedStore :=
  match state.store.appendEvent rfc3339 append.repoId append.event with
  | .error _ => state
  | .ok grown =>
      { store := grown
        version :=
          if append.event.eventId ∈ state.store.storedIds then state.version
          else Function.update state.version append.event.eventId (some append.inRepo) }

/-- The chunk rows of each observed session are those of its stored version. -/
def ChunksMatch (state : RecordedStore) : Prop :=
  ∀ row ∈ state.store.events.rows, row.event.eventType = .sourceSessionObserved →
    ∃ version chunks, state.version row.eventId = some version ∧
      compactPayloadAndChunks version = .ok (row.event.payload, chunks) ∧
      state.store.chunkRows row.eventId = chunks ∧
      chunks.map (·.raw) = version.observedChunks ∧
      chunks.map (·.chunkIndex) = List.range chunks.length ∧
      ∀ chunk ∈ chunks, chunk.repoId = row.repoId ∧ chunk.orgId = row.orgId

/-- Appending an id again leaves the rows of both tables as they are. -/
def ReappendKeeps (state : RecordedStore) (append : EventAppend) : Prop :=
  append.event.eventId ∈ state.store.storedIds →
    (nextRecorded rfc3339 state append).store.events = state.store.events ∧
      (nextRecorded rfc3339 state append).store.chunks.rows.Perm state.store.chunks.rows

end Runs

/-- Two versions of an event with the same transcript: the same chunks and, unless
there are none, the same columns that a chunk row repeats. -/
structure SameTranscript (first again : TraceEvent) : Prop where
  chunks : again.observedChunks = first.observedChunks
  columns : first.observedChunks ≠ [] →
    again.repoId.getD "" = first.repoId.getD "" ∧ again.orgId = first.orgId ∧
      again.observed.map (·.sourceId) = first.observed.map (·.sourceId) ∧
      again.observed.map (·.externalSessionId) = first.observed.map (·.externalSessionId)

/-- An id that is stored comes again with the transcript of its stored version, or is
refused. -/
def RepeatsTranscript (state : RecordedStore) (append : EventAppend) : Prop :=
  ∀ version, state.version append.event.eventId = some version → append.event.Storable →
    SameTranscript version append.inRepo

section Transcripts
variable {first again : TraceEvent} {firstPayload againPayload : Json}
  {firstChunks againChunks : List EventChunkRow}

theorem chunks_eq_iff_sameTranscript (sameId : again.eventId = first.eventId)
    (firstCompact : compactPayloadAndChunks first = .ok (firstPayload, firstChunks))
    (againCompact : compactPayloadAndChunks again = .ok (againPayload, againChunks)) :
    againChunks = firstChunks ↔ SameTranscript first again := by
  have firstRaw := raw_of_compact firstCompact
  have againRaw := raw_of_compact againCompact
  constructor
  · rintro rfl
    refine ⟨againRaw.symm.trans firstRaw, fun some => ?_⟩
    have nonempty : againChunks ≠ [] := by
      rintro rfl
      exact some firstRaw.symm
    obtain ⟨chunk, member⟩ := List.exists_mem_of_ne_nil _ nonempty
    obtain ⟨_, repo, org, source, session⟩ := columns_of_compact firstCompact chunk member
    obtain ⟨_, repo', org', source', session'⟩ := columns_of_compact againCompact chunk member
    exact ⟨repo'.symm.trans repo, org'.symm.trans org, source'.trans source.symm,
      session'.trans session.symm⟩
  · intro same
    rcases chunks_of_compact againCompact with ⟨_, rfl⟩ | ⟨observed', found', rfl⟩
    · rw [same.chunks, ← firstRaw] at againRaw
      exact (List.map_eq_nil_iff.mp againRaw.symm).symm
    · rcases chunks_of_compact firstCompact with ⟨nothing, rfl⟩ | ⟨observed, found, rfl⟩
      · rw [same.chunks, ← firstRaw] at againRaw
        exact List.map_eq_nil_iff.mp againRaw
      · have chunks := same.chunks
        unfold TraceEvent.observedChunks at chunks
        rw [found, found'] at chunks
        dsimp only at chunks
        rw [chunks]
        apply List.mapIdx_eq_mapIdx_iff.mpr
        intro index bound
        have some : first.observedChunks ≠ [] := by
          unfold TraceEvent.observedChunks
          rw [found]
          exact List.ne_nil_of_length_pos (Nat.zero_lt_of_lt bound)
        obtain ⟨repo, org, source, session⟩ := same.columns some
        rw [found, found'] at source session
        have sourceId : observed'.sourceId = observed.sourceId := Option.some.inj source
        have externalSessionId : observed'.externalSessionId = observed.externalSessionId :=
          Option.some.inj session
        unfold eventChunkRow
        rw [sameId, repo, org, sourceId, externalSessionId]

end Transcripts

/-! ### One append -/

/-- The rows of both tables tell of the recorded versions. -/
structure Recorded (state : RecordedStore) : Prop where
  unstored : ∀ eventId, eventId ∉ state.store.storedIds → state.version eventId = none
  rows : ∀ row ∈ state.store.events.rows, ∃ version,
    state.version row.eventId = some version ∧ version.eventId = row.eventId ∧
      version.repoId.getD "" = row.repoId ∧ version.orgId = row.orgId ∧
      compactPayloadAndChunks version =
        .ok (row.event.payload, state.store.chunkRows row.eventId)

theorem recorded_new (path : String) : Recorded (RecordedStore.new path) where
  unstored _ _ := rfl
  rows row member := by cases member

section Step
variable {rfc3339 : DateTime → String} {state : RecordedStore} {append : EventAppend}

theorem Recorded.chunksMatch (recorded : Recorded state) : ChunksMatch state := by
  intro row member _
  obtain ⟨version, known, _, sameRepo, sameOrg, compacted⟩ := recorded.rows row member
  refine ⟨version, _, known, compacted, rfl, raw_of_compact compacted,
    chunkIndex_of_compact compacted, ?_⟩
  intro chunk isChunk
  obtain ⟨_, repo, org, _⟩ := columns_of_compact compacted chunk isChunk
  exact ⟨repo.trans sameRepo, org.trans sameOrg⟩

theorem Recorded.stored_of_version (recorded : Recorded state) {eventId : Uuid}
    {version : TraceEvent} (known : state.version eventId = some version) :
    ∃ row ∈ state.store.events.rows, row.eventId = eventId := by
  by_cases stored : eventId ∈ state.store.storedIds
  · exact List.mem_map.mp stored
  · rw [recorded.unstored eventId stored] at known
    cases known

/-- The chunk rows of a version that is known. -/
theorem Recorded.compact_of_version (recorded : Recorded state) {eventId : Uuid}
    {version : TraceEvent} (known : state.version eventId = some version) :
    version.eventId = eventId ∧ ∃ payload,
      compactPayloadAndChunks version = .ok (payload, state.store.chunkRows eventId) := by
  obtain ⟨row, member, rfl⟩ := recorded.stored_of_version known
  obtain ⟨_, same, sameId, _, _, compacted⟩ := recorded.rows row member
  cases known.symm.trans same
  exact ⟨sameId, _, compacted⟩

/-- An append that succeeds on a stored id changes neither table exactly when it
brings the chunk rows that are there. -/
theorem Recorded.keeps_iff (recorded : Recorded state) {version : TraceEvent}
    (known : state.version append.event.eventId = some version) {grown : LocalEventStore}
    {payload : Json} {chunks : List EventChunkRow}
    (done : LocalEventStore.Appended rfc3339 state.store append.repoId append.event payload
      chunks grown) :
    grown.chunks.rows.Perm state.store.chunks.rows ↔ SameTranscript version append.inRepo := by
  obtain ⟨sameId, _, compacted⟩ := recorded.compact_of_version known
  have againId : append.inRepo.eventId = version.eventId := sameId.symm
  refine Iff.trans ?_ (chunks_eq_iff_sameTranscript againId compacted done.compacted)
  constructor
  · intro same
    have ownRows := same.filter fun row : EventChunkRow => row.eventId == append.event.eventId
    rw [show List.filter _ grown.chunks.rows = chunks from done.chunkRows_self] at ownRows
    apply ownRows.eq_of_pairwise ?_ (sorted_of_compact done.compacted) (sorted_of_compact compacted)
    intro first second _ _ before after
    exact absurd before (Nat.lt_asymm after)
  · rintro rfl
    rw [done.chunks]
    refine List.perm_append_comm.trans ?_
    exact List.filter_append_perm (fun row : EventChunkRow => row.eventId == append.event.eventId) _

/-- What a step does, told by how the append ends. -/
theorem nextRecorded_cases (rfc3339 : DateTime → String) (state : RecordedStore)
    (append : EventAppend) :
    (¬ append.event.Storable ∧ nextRecorded rfc3339 state append = state) ∨
      append.event.Storable ∧ ∃ grown payload chunks,
        LocalEventStore.Appended rfc3339 state.store append.repoId append.event payload chunks
          grown ∧
        nextRecorded rfc3339 state append =
          { store := grown
            version :=
              if append.event.eventId ∈ state.store.storedIds then state.version
              else Function.update state.version append.event.eventId (some append.inRepo) } := by
  unfold nextRecorded
  cases appended : state.store.appendEvent rfc3339 append.repoId append.event with
  | error failure =>
      refine Or.inl ⟨fun storable => ?_, rfl⟩
      obtain ⟨grown, succeeded⟩ : ∃ grown,
          state.store.appendEvent rfc3339 append.repoId append.event = .ok grown :=
        LocalEventStore.appendEvent_ok_of_storable storable
      rw [appended] at succeeded
      cases succeeded
  | ok grown =>
      obtain ⟨payload, chunks, done⟩ := LocalEventStore.appended_of_ok appended
      exact Or.inr ⟨LocalEventStore.storable_of_ok appended, grown, payload, chunks, done, rfl⟩

theorem Recorded.next (recorded : Recorded state) (repeats : RepeatsTranscript state append) :
    Recorded (nextRecorded rfc3339 state append) := by
  rcases nextRecorded_cases rfc3339 state append with
    ⟨_, same⟩ | ⟨storable, grown, payload, chunks, done, became⟩
  · rwa [same]
  · rw [became]
    by_cases stored : append.event.eventId ∈ state.store.storedIds
    · -- the id keeps its version; its chunk rows are those that were there
      rw [if_pos stored]
      have events := done.events_of_stored stored
      have sameIds : grown.storedIds = state.store.storedIds := by
        unfold LocalEventStore.storedIds
        rw [events]
      refine ⟨fun eventId unstored => recorded.unstored eventId (sameIds ▸ unstored), ?_⟩
      intro row member
      rw [show grown.events = state.store.events from events] at member
      obtain ⟨version, known, sameId, repo, org, compacted⟩ := recorded.rows row member
      refine ⟨version, known, sameId, repo, org, ?_⟩
      by_cases isAppended : row.eventId = append.event.eventId
      · rw [isAppended] at known compacted
        have transcript := repeats version known storable
        have againId : append.inRepo.eventId = version.eventId := (sameId.trans isAppended).symm
        have sameChunks :=
          (chunks_eq_iff_sameTranscript againId compacted done.compacted).mpr transcript
        rw [isAppended, compacted, done.chunkRows_self, sameChunks]
      · rw [compacted, done.chunkRows_of_ne isAppended]
    · -- a new id starts with the chunk rows of its version
      rw [if_neg stored]
      constructor
      · intro eventId unstored
        have others : ¬ (eventId = append.event.eventId ∨ eventId ∈ state.store.storedIds) :=
          fun held => unstored ((done.mem_storedIds eventId).mpr held)
        obtain ⟨differs, unknown⟩ := not_or.mp others
        dsimp only
        rw [Function.update_of_ne differs]
        exact recorded.unstored eventId unknown
      · intro row member
        dsimp only at member ⊢
        rw [done.rows_of_new stored] at member
        rcases List.mem_append.mp member with held | added
        · obtain ⟨version, known, sameId, repo, org, compacted⟩ := recorded.rows row held
          have differs : row.eventId ≠ append.event.eventId := by
            intro same
            exact stored (same ▸ List.mem_map_of_mem held)
          rw [Function.update_of_ne differs, done.chunkRows_of_ne differs]
          exact ⟨version, known, sameId, repo, org, compacted⟩
        · cases List.mem_singleton.mp added
          refine ⟨append.inRepo, Function.update_self .., rfl, rfl, rfl, ?_⟩
          exact done.compacted.trans (by rw [show
            grown.chunkRows (brickEventRow rfc3339 append.repoId append.event payload).eventId =
              chunks from done.chunkRows_self]; rfl)

theorem Recorded.reappendKeeps_iff (recorded : Recorded state) :
    ReappendKeeps rfc3339 state append ↔ RepeatsTranscript state append := by
  unfold ReappendKeeps RepeatsTranscript
  rcases nextRecorded_cases rfc3339 state append with
    ⟨refused, same⟩ | ⟨storable, grown, payload, chunks, done, became⟩
  · rw [same]
    exact ⟨fun _ _ _ storable => absurd storable refused,
      fun _ _ => ⟨rfl, List.Perm.refl _⟩⟩
  · rw [became]
    constructor
    · intro keeps version known _
      obtain ⟨row, member, sameId⟩ := recorded.stored_of_version known
      have stored : append.event.eventId ∈ state.store.storedIds :=
        sameId ▸ List.mem_map_of_mem member
      exact (recorded.keeps_iff known done).mp (keeps stored).2
    · intro repeats stored
      obtain ⟨row, member, sameId⟩ := List.mem_map.mp stored
      obtain ⟨version, known, _⟩ := recorded.rows row member
      rw [show row.eventId = append.event.eventId from sameId] at known
      exact ⟨done.events_of_stored stored,
        (recorded.keeps_iff known done).mpr (repeats version known storable)⟩

end Step

/-! ## Whole runs -/

/-- From an empty store, the chunk rows match the stored versions and repeated ids
change nothing, exactly when no repeated id brings another transcript. -/
theorem chunks_match_iff_transcripts_repeat (rfc3339 : DateTime → String) (path : String)
    (appends : List EventAppend) :
    (Runs.Always (nextRecorded rfc3339) ChunksMatch (RecordedStore.new path) appends ∧
        Runs.Meets (nextRecorded rfc3339) (ReappendKeeps rfc3339) (RecordedStore.new path)
          appends) ↔
      Runs.Meets (nextRecorded rfc3339) RepeatsTranscript (RecordedStore.new path) appends := by
  have step : ∀ state append, Recorded state → RepeatsTranscript state append →
      Recorded (nextRecorded rfc3339 state append) := fun _ _ recorded => recorded.next
  have agreeStep : ∀ state append, Recorded state →
      (ReappendKeeps rfc3339 state append ↔ RepeatsTranscript state append) :=
    fun _ _ recorded => recorded.reappendKeeps_iff
  have agree : Runs.Meets _ _ _ appends ↔ Runs.Meets _ _ _ appends :=
    Runs.meets_iff_meets (nextRecorded rfc3339) step agreeStep (recorded_new path)
  constructor
  · rintro ⟨_, keeps⟩
    exact agree.mp keeps
  · intro repeats
    have recorded := Runs.always_of_meets (nextRecorded rfc3339) step (recorded_new path) repeats
    exact ⟨Runs.always_mono (nextRecorded rfc3339) (fun _ => Recorded.chunksMatch) recorded,
      agree.mpr repeats⟩

/-- An observed session with the given transcript. -/
def observedSession (chunks : List Json) : TraceEvent where
  eventId := ⟨1⟩
  eventType := .sourceSessionObserved
  schemaVersion := 1
  payloadSchemaVersion := 1
  occurredAt := ⟨0⟩
  recordedAt := ⟨0⟩
  actor := ⟨.agent, "agent", none⟩
  repoId := none
  orgId := none
  projectId := none
  missionId := none
  sessionId := none
  artifactId := none
  repoContextId := none
  confidence := .observed
  payload := .object [("external_session_id", .string "session-1"),
    ("normalized_chunks", .array chunks), ("source_id", .string "orgii")]

def firstWithChunkThenWithout : List EventAppend :=
  [⟨"repo-a", observedSession [.object [("role", .string "assistant")]]⟩,
    ⟨"repo-a", observedSession []⟩]

theorem reappend_without_chunks_drops_rows :
    ¬ Runs.Always (nextRecorded fun _ => "2026-06-26T00:00:00+00:00") ChunksMatch
      (RecordedStore.new "brick.sqlite") firstWithChunkThenWithout := by
  intro always
  obtain ⟨version, chunks, known, _, rows, raw, _⟩ :=
    Runs.always_last _ always _ (List.mem_singleton_self _) rfl
  cases known
  cases rows
  cases raw

end BrickTrace
