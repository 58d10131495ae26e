import BrickTrace.Core.LogOrder

/-!
# The chunks of a session

Chunks are stored for each event and read for each session, by their index first.  A session
that is observed again under a new fingerprint has two events, and the chunks of both are
read, mixed with each other.
-/

set_option autoImplicit false

namespace BrickTrace

/-! ## Reading -/

/-- The order of texts that may be missing: nothing comes before every text. -/
def missingFirst : Option String → Option String → Prop
  | none, _ => True
  | some _, none => False
  | some first, some second => first ≤ second

instance (first second : Option String) : Decidable (missingFirst first second) :=
  match first, second with
  | none, _ => isTrue trivial
  | some _, none => isFalse id
  | some first, some second => inferInstanceAs (Decidable (first ≤ second))

/-- The index comes first, then the time, then the id of the event. -/
def EventChunkRow.listedBefore (first second : EventChunkRow) : Prop :=
  first.chunkIndex < second.chunkIndex ∨
    first.chunkIndex = second.chunkIndex ∧
      (first.occurredAt ≠ second.occurredAt ∧ missingFirst first.occurredAt second.occurredAt ∨
        first.occurredAt = second.occurredAt ∧ first.eventId.text ≤ second.eventId.text)

instance (first second : EventChunkRow) : Decidable (first.listedBefore second) :=
  inferInstanceAs (Decidable (_ ∨ _))

def EventChunkRow.isOf (row : EventChunkRow) (sourceId externalSessionId : String) : Bool :=
  row.sourceId == sourceId && row.externalSessionId == externalSessionId

def LocalEventStore.readSessionChunks (store : LocalEventStore) (sourceId externalSessionId : String) :
    List EventChunkRow :=
  (store.chunks.rows.filter fun row => row.isOf sourceId externalSessionId).insertionSort
    EventChunkRow.listedBefore

/-! ## What a history leaves -/

/-- The chunk rows of an event, in the order of its transcript. -/
def TraceEvent.ownChunkRows (event : TraceEvent) : List EventChunkRow :=
  match event.observed with
  | none => []
  | some payload => payload.normalizedChunks.mapIdx fun index raw => eventChunkRow event payload raw index

def TraceEvent.observes (event : TraceEvent) (sourceId externalSessionId : String) : Bool :=
  event.observed.any fun payload =>
    payload.sourceId == sourceId && payload.externalSessionId == externalSessionId

/-- The observations of a session in a history of appends, the latest of them last. -/
def sessionObservations (sourceId externalSessionId : String) (appends : List EventAppend) :
    List TraceEvent :=
  (appends.map EventAppend.inRepo).filter fun event => event.observes sourceId externalSessionId

theorem ownChunkRows_of_compact {event : TraceEvent} {payload : Json} {chunks : List EventChunkRow}
    (compacted : compactPayloadAndChunks event = .ok (payload, chunks)) :
    chunks = event.ownChunkRows := by
  unfold TraceEvent.ownChunkRows
  rcases chunks_of_compact compacted with ⟨nothing, rfl⟩ | ⟨observed, found, rfl⟩
  · rw [nothing]
  · rw [found]

theorem length_ownChunkRows (event : TraceEvent) :
    event.ownChunkRows.length = event.observedChunks.length := by
  unfold TraceEvent.ownChunkRows TraceEvent.observedChunks
  cases event.observed with
  | none => rfl
  | some payload => exact List.length_mapIdx

theorem eventId_of_ownChunkRows {event : TraceEvent} {row : EventChunkRow}
    (member : row ∈ event.ownChunkRows) : row.eventId = event.eventId := by
  unfold TraceEvent.ownChunkRows at member
  cases found : event.observed with
  | none =>
      rw [found] at member
      cases member
  | some payload =>
      rw [found] at member
      obtain ⟨index, _, rfl⟩ := List.mem_mapIdx.mp member
      rfl

/-- The rows of an event are all of the session it observes. -/
theorem isOf_of_ownChunkRows {event : TraceEvent} {row : EventChunkRow}
    (member : row ∈ event.ownChunkRows) (sourceId externalSessionId : String) :
    row.isOf sourceId externalSessionId = event.observes sourceId externalSessionId := by
  unfold TraceEvent.ownChunkRows at member
  unfold TraceEvent.observes
  cases found : event.observed with
  | none =>
      rw [found] at member
      cases member
  | some payload =>
      rw [found] at member
      obtain ⟨index, _, rfl⟩ := List.mem_mapIdx.mp member
      rfl

theorem filter_ownChunkRows (event : TraceEvent) (sourceId externalSessionId : String) :
    (event.ownChunkRows.filter fun row => row.isOf sourceId externalSessionId) =
      if event.observes sourceId externalSessionId then event.ownChunkRows else [] := by
  split
  · rename_i observes
    exact List.filter_eq_self.mpr fun row member => (isOf_of_ownChunkRows member _ _).trans observes
  · rename_i other
    refine List.filter_eq_nil_iff.mpr fun row member => ?_
    rw [isOf_of_ownChunkRows member]
    exact other

section Runs
variable (rfc3339 : DateTime → String)

/-- An append under a new id adds the rows of its event. -/
theorem chunkRows_next {store : LocalEventStore} (append : EventAppend)
    (new : ∀ row ∈ store.chunks.rows, row.eventId ≠ append.event.eventId) :
    (nextStore rfc3339 store append).chunks.rows =
      store.chunks.rows ++ append.inRepo.ownChunkRows := by
  unfold nextStore
  cases appended : store.appendEvent rfc3339 append.repoId append.event with
  | error failure =>
      have refused : append.inRepo.observed = none := by
        by_contra held
        obtain ⟨payload, decoded⟩ := Option.ne_none_iff_exists'.mp held
        have storable : append.event.Storable := by
          intro type
          unfold TraceEvent.observed EventAppend.inRepo TraceEvent.inRepo at decoded
          rw [if_pos type] at decoded
          exact ⟨payload, decoded⟩
        obtain ⟨grown, ok⟩ : ∃ grown, store.appendEvent rfc3339 append.repoId append.event = .ok grown :=
          LocalEventStore.appendEvent_ok_of_storable storable
        rw [appended] at ok
        cases ok
      unfold TraceEvent.ownChunkRows
      rw [refused]
      exact (List.append_nil _).symm
  | ok grown =>
      obtain ⟨payload, chunks, done⟩ := LocalEventStore.appended_of_ok appended
      have kept : (store.chunks.rows.filter fun row => !(row.eventId == append.event.eventId)) =
          store.chunks.rows := by
        refine List.filter_eq_self.mpr fun row member => ?_
        simpa using new row member
      dsimp only
      rw [done.chunks, kept, ownChunkRows_of_compact done.compacted]
      rfl

/-- The rows of a history whose events all have ids of their own. -/
theorem chunkRows_run {appends : List EventAppend} {store : LocalEventStore}
    (distinct : (appends.map (·.event.eventId)).Nodup)
    (new : ∀ row ∈ store.chunks.rows, ∀ append ∈ appends, row.eventId ≠ append.event.eventId) :
    (Runs.run (nextStore rfc3339) store appends).chunks.rows =
      store.chunks.rows ++ (appends.map EventAppend.inRepo).flatMap TraceEvent.ownChunkRows := by
  induction appends generalizing store with
  | nil => exact (List.append_nil _).symm
  | cons append rest ih =>
      obtain ⟨notLater, restDistinct⟩ := List.nodup_cons.mp distinct
      have rows := chunkRows_next rfc3339 append fun row member =>
        new row member append List.mem_cons_self
      have newer : ∀ row ∈ (nextStore rfc3339 store append).chunks.rows, ∀ later ∈ rest,
          row.eventId ≠ later.event.eventId := by
        intro row member later isLater sameId
        rw [rows] at member
        rcases List.mem_append.mp member with held | own
        · exact new row held later (List.mem_cons_of_mem _ isLater) sameId
        · rw [eventId_of_ownChunkRows own] at sameId
          exact notLater (List.mem_map.mpr ⟨later, isLater, sameId.symm⟩)
      rw [Runs.run_cons, ih restDistinct newer, rows, List.map_cons, List.flatMap_cons,
        List.append_assoc]

end Runs

/-! ## What is read of a history -/

theorem filter_flatMap_ownChunkRows (events : List TraceEvent) (sourceId externalSessionId : String) :
    ((events.flatMap TraceEvent.ownChunkRows).filter fun row => row.isOf sourceId externalSessionId) =
      (events.filter fun event => event.observes sourceId externalSessionId).flatMap
        TraceEvent.ownChunkRows := by
  induction events with
  | nil => rfl
  | cons event rest ih =>
      rw [List.flatMap_cons, List.filter_append, filter_ownChunkRows, ih]
      by_cases observes : event.observes sourceId externalSessionId = true
      · rw [if_pos observes, List.filter_cons, if_pos observes, List.flatMap_cons]
      · rw [if_neg observes, List.filter_cons, if_neg observes, List.nil_append]

theorem sorted_ownChunkRows (event : TraceEvent) :
    event.ownChunkRows.Pairwise EventChunkRow.listedBefore := by
  unfold TraceEvent.ownChunkRows
  cases event.observed with
  | none => exact List.Pairwise.nil
  | some payload =>
      refine List.pairwise_iff_getElem.mpr fun i j _ _ before => Or.inl ?_
      simpa [eventChunkRow] using before

/-- What is read of a session is the transcript of its latest observation exactly if no
observation before that one has brought a chunk. -/
theorem readSessionChunks_eq_latest_iff (rfc3339 : DateTime → String) (path : String)
    (appends : List EventAppend) (distinct : (appends.map (·.event.eventId)).Nodup)
    (sourceId externalSessionId : String) (earlier : List TraceEvent) (latest : TraceEvent)
    (history : sessionObservations sourceId externalSessionId appends = earlier ++ [latest]) :
    (Runs.run (nextStore rfc3339) (.new path) appends).readSessionChunks sourceId externalSessionId =
        latest.ownChunkRows ↔
      ∀ event ∈ earlier, event.observedChunks = [] := by
  have rows : ((Runs.run (nextStore rfc3339) (.new path) appends).chunks.rows.filter fun row =>
      row.isOf sourceId externalSessionId) =
        earlier.flatMap TraceEvent.ownChunkRows ++ latest.ownChunkRows := by
    rw [chunkRows_run rfc3339 distinct fun row member => absurd member List.not_mem_nil]
    change ((appends.map EventAppend.inRepo).flatMap TraceEvent.ownChunkRows).filter _ = _
    rw [filter_flatMap_ownChunkRows]
    change (sessionObservations sourceId externalSessionId appends).flatMap _ = _
    rw [history, List.flatMap_append, List.flatMap_singleton]
  unfold LocalEventStore.readSessionChunks
  rw [rows]
  constructor
  · intro same event member
    have lengths := congrArg List.length same
    rw [List.length_insertionSort, List.length_append] at lengths
    have noRows : earlier.flatMap TraceEvent.ownChunkRows = [] :=
      List.length_eq_zero_iff.mp (by omega)
    have noOwn := List.flatMap_eq_nil_iff.mp noRows event member
    rw [← List.length_eq_zero_iff, ← length_ownChunkRows, noOwn]
    rfl
  · intro empty
    have noRows : earlier.flatMap TraceEvent.ownChunkRows = [] := by
      refine List.flatMap_eq_nil_iff.mpr fun event member => ?_
      rw [← List.length_eq_zero_iff, length_ownChunkRows, empty event member]
      rfl
    rw [noRows, List.nil_append]
    exact (sorted_ownChunkRows latest).insertionSort_eq

/-! ## A session that is indexed again -/

def observedUnder (eventId : Uuid) (fingerprint : String) (chunks : List Json) : TraceEvent :=
  { observedSession chunks with
    eventId := eventId
    payload := .object [("external_session_id", .string "session-1"),
      ("normalized_chunks", .array chunks), ("source_fingerprint", .string fingerprint),
      ("source_id", .string "orgii")] }

def firstObservation : TraceEvent := observedUnder ⟨1⟩ "first" [.string "ask"]

/-- The transcript has grown by a chunk. -/
def secondObservation : TraceEvent := observedUnder ⟨2⟩ "second" [.string "ask", .string "answer"]

def observedTwice : List EventAppend :=
  [⟨"repo-a", firstObservation⟩, ⟨"repo-a", secondObservation⟩]

theorem observedTwice_latest_iff :
    (Runs.run (nextStore toRfc3339) (.new "brick.sqlite") observedTwice).readSessionChunks
        "orgii" "session-1" = (secondObservation.inRepo "repo-a").ownChunkRows ↔
      ∀ event ∈ [firstObservation.inRepo "repo-a"], event.observedChunks = [] :=
  readSessionChunks_eq_latest_iff toRfc3339 "brick.sqlite" observedTwice (by decide) "orgii"
    "session-1" [firstObservation.inRepo "repo-a"] (secondObservation.inRepo "repo-a") rfl

/-- The first chunk is read twice, once of each observation. -/
theorem observedTwice_reads_both :
    sessionObservations "orgii" "session-1" observedTwice =
        [firstObservation.inRepo "repo-a", secondObservation.inRepo "repo-a"] ∧
      ((Runs.run (nextStore toRfc3339) (.new "brick.sqlite") observedTwice).readSessionChunks
        "orgii" "session-1").map EventChunkRow.key = [(⟨1⟩, 0), (⟨2⟩, 0), (⟨2⟩, 1)] ∧
      (Runs.run (nextStore toRfc3339) (.new "brick.sqlite") observedTwice).readSessionChunks
        "orgii" "session-1" ≠ (secondObservation.inRepo "repo-a").ownChunkRows := by
  have keys : ((Runs.run (nextStore toRfc3339) (.new "brick.sqlite") observedTwice).readSessionChunks
      "orgii" "session-1").map EventChunkRow.key = [(⟨1⟩, 0), (⟨2⟩, 0), (⟨2⟩, 1)] := by
    decide +kernel
  refine ⟨rfl, keys, fun same => ?_⟩
  have lengths := congrArg List.length keys
  rw [same, List.length_map, length_ownChunkRows] at lengths
  exact absurd lengths (by decide +kernel)

end BrickTrace
