import BrickTrace.Protocol.SourceSessionCodec
import BrickTrace.Core.EventChunks

/-!
# Reading an appended event back

A new event is kept as the row that its append writes, and a listing with chunks
puts its chunk rows back into the payload.  The payload of an observed session was
read and written again on the way, so it comes back as it was when it is canonical.
-/

set_option autoImplicit false

namespace BrickTrace

open KeyedRows (KeyedTable)

/-- The payload of an observed session is an object in canonical form. -/
def TraceEvent.CanonicalPayload (event : TraceEvent) : Prop :=
  event.eventType = .sourceSessionObserved →
    ∃ entries, event.payload = .object entries ∧ SourceSessionObservedPayload.Canonical entries

/-! ## Storing and reading back -/

section Compact
variable {event : TraceEvent} {payload : Json} {chunks : List EventChunkRow}

/-- What putting the chunks back makes of the payload that an append stores. -/
theorem reattached_payload (type : event.eventType = .sourceSessionObserved)
    (compacted : compactPayloadAndChunks event = .ok (payload, chunks)) :
    ∃ observed entries, SourceSessionObservedPayload.decode event.payload = some observed ∧
      payload = .object entries ∧
      Json.insertEntry "normalized_chunks" (.array (chunks.map (·.raw))) entries =
        observed.reattachedEntries := by
  obtain ⟨observed, decoded, written⟩ := payload_of_compact type compacted
  obtain ⟨entries, encoded, reattached⟩ := observed.insert_chunks_encode
  have raws := raw_of_compact compacted
  unfold TraceEvent.observedChunks TraceEvent.observed at raws
  rw [if_pos type, decoded] at raws
  refine ⟨observed, entries, decoded, written.trans encoded, ?_⟩
  rw [raws]
  exact reattached

/-- The payload survives exactly when it is canonical. -/
theorem reattached_eq_iff_canonical (formed : event.payload.WellFormed)
    (type : event.eventType = .sourceSessionObserved) {observed : SourceSessionObservedPayload}
    (decoded : SourceSessionObservedPayload.decode event.payload = some observed) :
    Json.object observed.reattachedEntries = event.payload ↔ event.CanonicalPayload := by
  constructor
  · intro same _
    rw [← same] at formed decoded
    have read := SourceSessionObservedPayload.readFrom_of_decode decoded
    exact ⟨_, same.symm, (read.reattached_eq_iff formed).mp rfl⟩
  · intro canonical
    obtain ⟨entries, isObject, canonicalEntries⟩ := canonical type
    rw [isObject] at formed decoded ⊢
    have read := SourceSessionObservedPayload.readFrom_of_decode decoded
    exact congrArg Json.object ((read.reattached_eq_iff formed).mpr canonicalEntries)

end Compact

namespace LocalEventStore

theorem reattachChunks_of_other {store : LocalEventStore} {event : TraceEvent}
    (other : event.eventType ≠ .sourceSessionObserved) : store.reattachChunks event = event := by
  unfold reattachChunks
  exact if_pos other

theorem reattachChunks_of_object {store : LocalEventStore} {event : TraceEvent}
    {entries : List (String × Json)} (type : event.eventType = .sourceSessionObserved)
    (isObject : event.payload = .object entries) :
    store.reattachChunks event =
      { event with payload := .object (Json.insertEntry "normalized_chunks"
          (.array (store.chunksOf event.eventId)) entries) } := by
  unfold reattachChunks
  rw [if_neg (not_not.mpr type), isObject]

theorem eventId_reattachChunks (store : LocalEventStore) (event : TraceEvent) :
    (store.reattachChunks event).eventId = event.eventId := by
  unfold reattachChunks
  split
  · rfl
  · split <;> rfl

theorem mem_readEventsForRepoWithChunks {store : LocalEventStore} {repoId : Option String}
    {event : TraceEvent} :
    event ∈ store.readEventsForRepoWithChunks repoId ↔
      ∃ row ∈ store.events.rows, columnMatches row.repoId repoId = true ∧
        store.reattachChunks row.event = event := by
  have listed : store.readEventsForRepoWithChunks repoId =
      (store.readEventsForRepo repoId).map store.reattachChunks := by
    unfold readEventsForRepoWithChunks
    dsimp only
    split
    · rename_i noneObserved
      have others := List.all_eq_true.mp noneObserved
      symm
      refine (List.map_congr_left fun event member => ?_).trans (List.map_id _)
      exact reattachChunks_of_other (of_decide_eq_true (others event member))
    · rfl
  rw [listed, List.mem_map]
  simp only [mem_readEventsForRepo]
  constructor
  · rintro ⟨_, ⟨row, member, ofRepo, rfl⟩, same⟩
    exact ⟨row, member, ofRepo, same⟩
  · rintro ⟨row, member, ofRepo, same⟩
    exact ⟨_, ⟨row, member, ofRepo, rfl⟩, same⟩

section Append
variable {rfc3339 : DateTime → String} {store grown : LocalEventStore} {repoId : String}
  {event : TraceEvent} {payload : Json} {chunks : List EventChunkRow}

theorem Appended.chunksOf_self
    (done : Appended rfc3339 store repoId event payload chunks grown) :
    grown.chunksOf event.eventId = chunks.map (·.raw) := by
  have own := done.chunkRows_self
  unfold chunkRows at own
  unfold chunksOf
  have sorted : chunks.Pairwise EventChunkRow.notAfter :=
    (sorted_of_compact done.compacted).imp fun before => Nat.le_of_lt before
  rw [own, sorted.insertionSort_eq]

/-- The event of the written row, with its chunks put back. -/
theorem Appended.reattached_iff (done : Appended rfc3339 store repoId event payload chunks grown)
    (formed : event.payload.WellFormed) :
    grown.reattachChunks (brickEventRow rfc3339 repoId event payload).event = event.inRepo repoId ↔
      event.CanonicalPayload := by
  by_cases type : event.eventType = .sourceSessionObserved
  · have typeInRepo : (event.inRepo repoId).eventType = .sourceSessionObserved := type
    obtain ⟨observed, entries, decoded, isObject, reattached⟩ :=
      reattached_payload typeInRepo done.compacted
    have storedType :
        (brickEventRow rfc3339 repoId event payload).event.eventType = .sourceSessionObserved := type
    have storedPayload :
        (brickEventRow rfc3339 repoId event payload).event.payload = .object entries := isObject
    rw [reattachChunks_of_object storedType storedPayload]
    change { event.inRepo repoId with payload := Json.object (Json.insertEntry "normalized_chunks"
      (.array (grown.chunksOf event.eventId)) entries) } = _ ↔ _
    rw [done.chunksOf_self, reattached, ← reattached_eq_iff_canonical formed type decoded]
    constructor
    · exact congrArg TraceEvent.payload
    · intro same
      rw [same]
      rfl
  · have otherInRepo : (event.inRepo repoId).eventType ≠ .sourceSessionObserved := type
    have storedOther :
        (brickEventRow rfc3339 repoId event payload).event.eventType ≠ .sourceSessionObserved := type
    rw [reattachChunks_of_other storedOther]
    have same : payload = event.payload := by
      have compacted := done.compacted
      unfold compactPayloadAndChunks at compacted
      rw [if_pos otherInRepo] at compacted
      cases compacted
      rfl
    subst same
    exact ⟨fun _ isType => absurd isType type, fun _ => rfl⟩

/-- Whether a new event is read back is told by its own row. -/
theorem Appended.mem_read_iff (done : Appended rfc3339 store repoId event payload chunks grown)
    (new : event.eventId ∉ store.storedIds) {listedRepo : Option String}
    (listed : columnMatches (event.repoId.getD repoId) listedRepo = true) :
    event.inRepo repoId ∈ grown.readEventsForRepoWithChunks listedRepo ↔
      grown.reattachChunks (brickEventRow rfc3339 repoId event payload).event =
        event.inRepo repoId := by
  have rows := done.rows_of_new new
  have written : brickEventRow rfc3339 repoId event payload ∈ grown.events.rows :=
    rows ▸ List.mem_append_right _ (List.mem_singleton_self _)
  rw [mem_readEventsForRepoWithChunks]
  constructor
  · rintro ⟨row, member, _, same⟩
    have sameId : row.eventId = event.eventId := by
      rw [← row.idColumn, ← eventId_reattachChunks grown row.event, same]
      rfl
    rwa [← KeyedTable.eq_of_key_eq member written sameId]
  · intro same
    exact ⟨_, written, listed, same⟩

end Append

/-- An observation as the client writes it, with nothing known but the session and its
transcript. -/
def plainObservation (chunks : List Json) : TraceEvent :=
  { observedSession [] with
    payload := SourceSessionObservedPayload.encode
      { sourceId := "orgii"
        externalSessionId := "session-1"
        title := none
        name := none
        sourcePath := none
        sourceUri := none
        sourceMtime := none
        sourceSize := none
        sourceFingerprint := none
        parserVersion := none
        sessionCreatedAt := none
        sessionUpdatedAt := none
        model := none
        inputTokens := none
        outputTokens := none
        repoPath := none
        branch := none
        filesChanged := none
        linesAdded := none
        linesRemoved := none
        touchedFiles := []
        metadataJson := none
        normalizedChunks := chunks } }

/-- An observation is well formed whatever its transcript is. -/
theorem wellFormed_plainObservation {chunks : List Json}
    (formed : ∀ chunk ∈ chunks, chunk.WellFormed) : (plainObservation chunks).payload.WellFormed := by
  apply SourceSessionObservedPayload.wellFormed_encode
  · exact fun _ absent => nomatch absent
  · exact formed

end LocalEventStore

end BrickTrace
