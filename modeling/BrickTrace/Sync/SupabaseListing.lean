import BrickTrace.Core.EventChunks
import BrickTrace.Sync.Supabase

/-!
# What a listing of a Supabase remote shows

The chunk rows of a repo are read page by page, and none is missed.  The events are
asked for once, so a repo with more events than one answer has rows is not listed
in full.
-/

set_option autoImplicit false

namespace BrickTrace

open KeyedRows (KeyedTable)

/-! ## The chunk rows -/

namespace SupabaseTables
variable (tables : SupabaseTables) (repoId : String)

theorem chunkPage_eq (offset : Nat) :
    tables.chunkPage repoId offset =
      OffsetPages.page maxRows offset ((tables.chunkRowsOf repoId).map (·.selected)) := by
  have range : offset + 999 + 1 - offset = maxRows := by unfold maxRows; omega
  unfold chunkPage answer OffsetPages.page
  dsimp only
  rw [range, List.take_take, Nat.min_self, ← List.map_drop, ← List.map_take]

theorem getAllEventChunks_eq :
    getAllEventChunks tables repoId = .ok ((tables.chunkRowsOf repoId).map (·.selected)) := by
  have few : (tables.chunkRowsOf repoId).length ≤ tables.chunks.rows.length := by
    unfold chunkRowsOf
    rw [List.length_insertionSort]
    exact List.length_filter_le ..
  have enough : (((tables.chunkRowsOf repoId).map (·.selected)).drop 0).length <
      tables.chunks.rows.length + 1 := by
    rw [List.drop_zero, List.length_map]
    omega
  have read : OffsetPages.walk maxRows
      (fun offset => OffsetPages.page maxRows offset ((tables.chunkRowsOf repoId).map (·.selected)))
      (tables.chunks.rows.length + 1) .start = some ((tables.chunkRowsOf repoId).map (·.selected)) :=
    OffsetPages.walk_still (by decide) enough
  unfold getAllEventChunks
  rw [funext (tables.chunkPage_eq repoId), read]

end SupabaseTables

/-! ## The chunk rows of an event -/

section Order

theorem notAfter_total (first second : SupabaseChunkRow) :
    first.notAfter second ∨ second.notAfter first := by
  unfold SupabaseChunkRow.notAfter
  rcases lt_trichotomy first.eventId.text second.eventId.text with before | same | after
  · exact Or.inl (Or.inl before)
  · have sameId := Uuid.text_injective same
    rcases Nat.le_total first.chunkIndex second.chunkIndex with before | after
    · exact Or.inl (Or.inr ⟨sameId, before⟩)
    · exact Or.inr (Or.inr ⟨sameId.symm, after⟩)
  · exact Or.inr (Or.inl after)

theorem notAfter_trans {first second third : SupabaseChunkRow} (one : first.notAfter second)
    (two : second.notAfter third) : first.notAfter third := by
  unfold SupabaseChunkRow.notAfter at one two ⊢
  rcases one with before | ⟨sameFirst, indexFirst⟩
  · rcases two with later | ⟨same, _⟩
    · exact Or.inl (before.trans later)
    · exact Or.inl (same ▸ before)
  · rcases two with later | ⟨same, indexSecond⟩
    · exact Or.inl (sameFirst ▸ later)
    · exact Or.inr ⟨sameFirst.trans same, Nat.le_trans indexFirst indexSecond⟩

instance chunkRows_total : Std.Total SupabaseChunkRow.notAfter := ⟨notAfter_total⟩

instance chunkRows_trans : IsTrans SupabaseChunkRow SupabaseChunkRow.notAfter :=
  ⟨fun _ _ _ => notAfter_trans⟩

end Order

namespace SupabaseTables
variable (tables : SupabaseTables) {repoId : String} {eventId : Uuid}

/-- The chunk rows of an event, in the order of their indexes. -/
def chunkRowsOfEvent (eventId : Uuid) : List SupabaseChunkRow :=
  (tables.chunks.rows.filter fun row => row.eventId == eventId).insertionSort
    fun first second => first.chunkIndex ≤ second.chunkIndex

/-- The chunks stored for an event, in the order of their indexes. -/
def storedChunks (eventId : Uuid) : List Json := (tables.chunkRowsOfEvent eventId).map (·.raw)

/-- Two rows of one event have two indexes. -/
theorem indexed_of_nodup {rows : List SupabaseChunkRow}
    (distinct : (rows.map SupabaseChunkRow.key).Nodup)
    (ordered : rows.Pairwise fun first second =>
      first.eventId = second.eventId → first.chunkIndex ≤ second.chunkIndex)
    (ofEvent : ∀ row ∈ rows, row.eventId = eventId) :
    OffsetPages.Indexed SupabaseChunkRow.chunkIndex rows := by
  have apart : rows.Pairwise fun first second => first.key ≠ second.key :=
    List.pairwise_map.mp distinct
  refine (ordered.and apart).imp_of_mem ?_
  intro first second isFirst isSecond both
  have sameId := (ofEvent first isFirst).trans (ofEvent second isSecond).symm
  refine Nat.lt_of_le_of_ne (both.1 sameId) fun sameIndex => both.2 ?_
  exact Prod.ext sameId sameIndex

theorem mem_chunkRowsOfEvent {chunk : SupabaseChunkRow} :
    chunk ∈ tables.chunkRowsOfEvent eventId ↔
      chunk ∈ tables.chunks.rows ∧ chunk.eventId = eventId := by
  unfold chunkRowsOfEvent
  rw [List.mem_insertionSort, List.mem_filter, beq_iff_eq]

theorem nodup_chunkRowsOfEvent (eventId : Uuid) :
    ((tables.chunkRowsOfEvent eventId).map SupabaseChunkRow.key).Nodup := by
  unfold chunkRowsOfEvent
  rw [((List.perm_insertionSort ..).map _).nodup_iff]
  exact tables.chunks.primaryKey.sublist ((List.filter_sublist ..).map _)

theorem indexed_chunkRowsOfEvent (eventId : Uuid) :
    OffsetPages.Indexed SupabaseChunkRow.chunkIndex (tables.chunkRowsOfEvent eventId) := by
  apply indexed_of_nodup (tables.nodup_chunkRowsOfEvent eventId)
  · have sorted := List.pairwise_insertionSort
      (fun first second : SupabaseChunkRow => first.chunkIndex ≤ second.chunkIndex)
      (tables.chunks.rows.filter fun row => row.eventId == eventId)
    exact sorted.imp fun {first second} before (_ : first.eventId = second.eventId) => before
  · exact fun chunk member => (tables.mem_chunkRowsOfEvent.mp member).2

/-- An event's chunk rows are among those of its repo, in their order. -/
theorem filter_chunkRowsOf {row : InsertEventRow} (member : row ∈ tables.eventRowsOf repoId) :
    (tables.chunkRowsOf repoId).filter (fun chunk => chunk.eventId == row.eventId) =
      tables.chunkRowsOfEvent row.eventId := by
  obtain ⟨held, ofRepo⟩ := List.mem_filter.mp member
  have sameRepo : ∀ chunk ∈ tables.chunks.rows, chunk.eventId = row.eventId →
      chunk.repoId = repoId := by
    intro chunk isChunk sameId
    obtain ⟨owner, isOwner, ownerId, ownerRepo, _⟩ := tables.owned chunk isChunk
    have same := KeyedTable.eq_of_key_eq isOwner held (ownerId.trans sameId)
    rw [← ownerRepo, same]
    exact beq_iff_eq.mp ofRepo
  have perm : ((tables.chunkRowsOf repoId).filter fun chunk => chunk.eventId == row.eventId).Perm
      (tables.chunkRowsOfEvent row.eventId) := by
    unfold chunkRowsOf chunkRowsOfEvent
    refine ((List.perm_insertionSort ..).filter _).trans (.trans (.of_eq ?_)
      (List.perm_insertionSort ..).symm)
    rw [List.filter_filter]
    refine List.filter_congr fun chunk isChunk => ?_
    cases same : chunk.eventId == row.eventId with
    | false => rfl
    | true =>
        rw [beq_iff_eq.mpr (sameRepo chunk isChunk (beq_iff_eq.mp same))]
        rfl
  refine OffsetPages.Indexed.eq_of_perm ?_ (tables.indexed_chunkRowsOfEvent _) perm
  have distinct := (perm.map SupabaseChunkRow.key).nodup_iff.mpr (tables.nodup_chunkRowsOfEvent _)
  have ofEvent : ∀ chunk ∈ (tables.chunkRowsOf repoId).filter (fun chunk => chunk.eventId == row.eventId),
      chunk.eventId = row.eventId := fun chunk isChunk => beq_iff_eq.mp (List.mem_filter.mp isChunk).2
  refine indexed_of_nodup distinct ?_ ofEvent
  have sorted := List.pairwise_insertionSort SupabaseChunkRow.notAfter
    (tables.chunks.rows.filter fun chunk => chunk.repoId == repoId)
  refine (sorted.filter _).imp fun before sameId => ?_
  rcases before with apart | ⟨_, index⟩
  · exact absurd (sameId ▸ apart) (lt_irrefl _)
  · exact index

end SupabaseTables

/-! ## Putting the chunks back -/

/-- An event without the chunks that an observed session may carry. -/
def TraceEvent.bare (event : TraceEvent) : TraceEvent :=
  if event.eventType = .sourceSessionObserved then eventWithoutChunks event else event

theorem eventId_bare (event : TraceEvent) : event.bare.eventId = event.eventId := by
  unfold TraceEvent.bare
  split
  · exact eventId_eventWithoutChunks event
  · rfl

/-- A listed event is the stored one, with exactly the chunks stored for it. -/
structure Delivers (chunks : List Json) (event listed : TraceEvent) : Prop where
  bare : listed.bare = event.bare
  carried : listed.eventType = .sourceSessionObserved → listed.carriedChunks = chunks

/-- What an event must be like for its chunks to be put back. -/
def TakesChunks (chunks : List Json) (event : TraceEvent) : Prop :=
  event.eventType = .sourceSessionObserved →
    (chunks = [] → event.carriedChunks = []) ∧
      (chunks ≠ [] → ∃ entries, event.payload = .object entries)

section Attach
variable {rows : List EventChunkRawRow} {event : TraceEvent} {chunks : List Json}

theorem filter_insert_chunks (value : Json) (entries : List (String × Json)) :
    (Json.insertEntry "normalized_chunks" value entries).filter
        (fun entry => entry.1 != "normalized_chunks") =
      entries.filter fun entry => entry.1 != "normalized_chunks" := by
  induction entries with
  | nil => rfl
  | cons entry rest ih =>
      unfold Json.insertEntry
      by_cases same : entry.1 = "normalized_chunks"
      · rw [if_pos same]
        simp [same]
      · rw [if_neg same]
        by_cases before : "normalized_chunks" < entry.1
        · rw [if_pos before]
          simp
        · rw [if_neg before, List.filter_cons, List.filter_cons, ih]

/-- Putting the chunks back changes the payload only, and an object stays one. -/
theorem attached_eq {listed : TraceEvent} (attached : attachEventChunks rows event = .ok listed) :
    ∃ payload, listed = { event with payload := payload } ∧
      ((∃ entries, event.payload = .object entries) → ∃ entries, payload = .object entries) := by
  unfold attachEventChunks at attached
  split at attached
  · cases attached
    exact ⟨_, rfl, id⟩
  · dsimp only at attached
    split at attached
    · cases attached
      exact ⟨_, rfl, id⟩
    · split at attached
      · cases attached
        exact ⟨_, rfl, fun _ => ⟨_, rfl⟩⟩
      · cases attached
        exact ⟨_, rfl, fun _ => ⟨_, rfl⟩⟩
      · cases attached

theorem eventId_attached {listed : TraceEvent}
    (attached : attachEventChunks rows event = .ok listed) : listed.eventId = event.eventId := by
  obtain ⟨payload, rfl, _⟩ := attached_eq attached
  rfl

/-- An object takes the chunks, and is the same object without them. -/
theorem delivers_insert (observed : event.eventType = .sourceSessionObserved)
    {entries : List (String × Json)} (payload : event.payload = .object entries)
    (chunks : List Json) :
    Delivers chunks event
      { event with
        payload := .object (Json.insertEntry "normalized_chunks" (.array chunks) entries) } where
  bare := by
    unfold TraceEvent.bare eventWithoutChunks
    dsimp only
    rw [if_pos observed, if_pos observed, filter_insert_chunks, payload]
  carried := by
    intro _
    unfold TraceEvent.carriedChunks Json.get
    dsimp only
    rw [Json.lookup_insertEntry_self]

theorem bare_of_null (observed : event.eventType = .sourceSessionObserved)
    (payload : event.payload = .null) : event.bare = event := by
  unfold TraceEvent.bare eventWithoutChunks
  rw [if_pos observed, payload]

/-- The chunks put back are the event's own, when it takes them. -/
theorem attach_delivers_iff
    (own : (rows.filter fun row => row.eventId == event.eventId).map (·.raw) = chunks) :
    (∃ listed, attachEventChunks rows event = .ok listed ∧ Delivers chunks event listed) ↔
      TakesChunks chunks event := by
  unfold attachEventChunks TakesChunks
  by_cases observed : event.eventType = .sourceSessionObserved
  · rw [if_neg (not_not.mpr observed)]
    dsimp only
    rw [own]
    cases chunks with
    | nil =>
        constructor
        · rintro ⟨listed, attached, delivers⟩ type
          cases attached
          exact ⟨fun _ => delivers.carried type, fun some => absurd rfl some⟩
        · intro takes
          exact ⟨event, rfl, rfl, fun type => (takes type).1 rfl⟩
    | cons chunk rest =>
        simp only [List.isEmpty_cons, Bool.false_eq_true, if_false]
        constructor
        · rintro ⟨listed, attached, delivers⟩ type
          refine ⟨fun none => (nomatch none), fun _ => ?_⟩
          cases payload : event.payload with
          | object entries => exact ⟨entries, rfl⟩
          | null =>
              -- a null payload becomes an object, so the event is another one
              rw [payload] at attached
              cases attached
              have payloads := congrArg TraceEvent.payload
                (delivers.bare.trans (bare_of_null observed payload))
              unfold TraceEvent.bare at payloads
              rw [if_pos type] at payloads
              cases payloads.trans payload
          | _ =>
              rw [payload] at attached
              cases attached
        · intro takes
          obtain ⟨entries, payload⟩ := (takes observed).2 (List.cons_ne_nil _ _)
          rw [payload]
          exact ⟨_, rfl, delivers_insert observed payload _⟩
  · rw [if_pos observed]
    constructor
    · exact fun _ type => absurd type observed
    · exact fun _ => ⟨event, rfl, rfl, fun type => absurd type observed⟩

end Attach

/-! ## The listing -/

namespace SupabaseTables

/-- A listing shows exactly the events of the repo, each once, and every observed session
with exactly its stored chunks, in the order of their indexes. -/
structure ListsAll (tables : SupabaseTables) (repoId : String) (events : List TraceEvent) : Prop where
  once : (events.map TraceEvent.bare).Perm
    ((tables.eventRowsOf repoId).map fun row => row.event.bare)
  chunks : ∀ event ∈ events, event.eventType = .sourceSessionObserved →
    event.carriedChunks = tables.storedChunks event.eventId

/-- Whether an event row takes back the chunks that are stored for it. -/
def RowTakesChunks (tables : SupabaseTables) (row : InsertEventRow) : Prop :=
  TakesChunks (tables.storedChunks row.eventId) row.event

section Listing
variable {times : OccurredAtOrder} {tables : SupabaseTables} {repoId : String}
  {events : List TraceEvent}

theorem length_listEvents :
    (tables.listEvents repoId times).length = min maxRows (tables.eventRowsOf repoId).length := by
  unfold listEvents answer
  rw [List.length_map, List.length_take, (times.perm _).length_eq]

theorem listEvents_perm (few : (tables.eventRowsOf repoId).length ≤ maxRows) :
    (tables.listEvents repoId times).Perm ((tables.eventRowsOf repoId).map (·.event)) := by
  unfold listEvents answer
  dsimp only
  have whole : (times.order (tables.eventRowsOf repoId)).length ≤ maxRows :=
    Nat.le_trans (Nat.le_of_eq (times.perm _).length_eq) few
  rw [List.take_of_length_le whole]
  exact (times.perm _).map _

theorem ensureRepoId_eq_ok_iff {value : String} :
    ensureRepoId (some repoId) = .ok value ↔ isBlank repoId = false ∧ repoId = value := by
  unfold ensureRepoId
  cases blank : isBlank repoId <;> simp [Option.filter, blank]

/-- The parts of a listing that succeeds. -/
theorem getAllEvents_eq_ok_iff {listed : ListEventsResponse} :
    getAllEvents times tables (some repoId) = .ok listed ↔
      isBlank repoId = false ∧ ∃ events, listed = ⟨events, none, none⟩ ∧
        (tables.listEvents repoId times).mapM
          (attachEventChunks ((tables.chunkRowsOf repoId).map (·.selected))) = .ok events := by
  unfold getAllEvents
  constructor
  · intro done
    obtain ⟨named, ensured, done⟩ := Fallible.bind_eq_ok_iff.mp done
    obtain ⟨rows, read, done⟩ := Fallible.bind_eq_ok_iff.mp done
    obtain ⟨events, attached, same⟩ := Fallible.bind_eq_ok_iff.mp done
    obtain ⟨notBlank, rfl⟩ := ensureRepoId_eq_ok_iff.mp ensured
    rw [getAllEventChunks_eq] at read
    cases read
    cases same
    exact ⟨notBlank, events, rfl, attached⟩
  · rintro ⟨notBlank, events, rfl, attached⟩
    refine Fallible.bind_eq_ok_iff.mpr ⟨repoId, ensureRepoId_eq_ok_iff.mpr ⟨notBlank, rfl⟩, ?_⟩
    refine Fallible.bind_eq_ok_iff.mpr ⟨_, getAllEventChunks_eq .., ?_⟩
    exact Fallible.bind_eq_ok_iff.mpr ⟨events, attached, rfl⟩

theorem selected_chunks {row : InsertEventRow} (member : row ∈ tables.eventRowsOf repoId) :
    (((tables.chunkRowsOf repoId).map (·.selected)).filter
        fun chunk => chunk.eventId == row.event.eventId).map (·.raw) =
      tables.storedChunks row.eventId := by
  unfold storedChunks
  rw [← filter_chunkRowsOf tables member, List.filter_map, List.map_map, row.idColumn]
  rfl

/-- A listing of one answer shows `maxRows` events at most. -/
theorem few_of_listsAll {listed : ListEventsResponse}
    (done : getAllEvents times tables (some repoId) = .ok listed)
    (all : tables.ListsAll repoId listed.events) :
    (tables.eventRowsOf repoId).length ≤ maxRows := by
  obtain ⟨_, events, rfl, attached⟩ := getAllEvents_eq_ok_iff.mp done
  have shown : events.length = (tables.listEvents repoId times).length :=
    (Fallible.forall₂_of_mapM attached).length_eq.symm
  have stored := all.once.length_eq
  rw [List.length_map, List.length_map] at stored
  rw [length_listEvents] at shown
  dsimp only at stored
  omega

theorem rowTakesChunks_of_listsAll {listed : ListEventsResponse}
    (done : getAllEvents times tables (some repoId) = .ok listed)
    (all : tables.ListsAll repoId listed.events) :
    ∀ row ∈ tables.eventRowsOf repoId, tables.RowTakesChunks row := by
  intro row member
  have few := few_of_listsAll done all
  obtain ⟨_, events, rfl, attached⟩ := getAllEvents_eq_ok_iff.mp done
  have isListed : row.event ∈ tables.listEvents repoId times :=
    (listEvents_perm few).mem_iff.mpr (List.mem_map_of_mem member)
  obtain ⟨event, isEvent, own⟩ :=
    Fallible.exists_of_mem_left (Fallible.forall₂_of_mapM attached) isListed
  have sameId : event.eventId = row.eventId := (eventId_attached own).trans row.idColumn
  refine (attach_delivers_iff (selected_chunks member)).mp ⟨event, own, ?_, ?_⟩
  · -- the stored event that the listed one shows has the same id, so it is this row's
    have shown : event.bare ∈ (tables.eventRowsOf repoId).map fun row => row.event.bare :=
      all.once.mem_iff.mp (List.mem_map_of_mem isEvent)
    obtain ⟨other, isOther, same⟩ := List.mem_map.mp shown
    have otherId : other.eventId = row.eventId := by
      rw [← other.idColumn, ← eventId_bare, same, eventId_bare, sameId]
    have isRow : other = row := KeyedTable.eq_of_key_eq (List.mem_filter.mp isOther).1
      (List.mem_filter.mp member).1 otherId
    rw [← same, isRow]
  · intro type
    rw [all.chunks event isEvent type, sameId]

end Listing

/-- A listing is complete exactly when the repo has no more events than one answer has
rows and each of its events takes back the chunks stored for it. -/
theorem listing_complete_iff (times : OccurredAtOrder) (tables : SupabaseTables)
    (repoId : String) :
    (∃ listed, getAllEvents times tables (some repoId) = .ok listed ∧
        tables.ListsAll repoId listed.events) ↔
      isBlank repoId = false ∧ (tables.eventRowsOf repoId).length ≤ maxRows ∧
        ∀ row ∈ tables.eventRowsOf repoId, tables.RowTakesChunks row := by
  constructor
  · rintro ⟨listed, done, all⟩
    exact ⟨(getAllEvents_eq_ok_iff.mp done).1, few_of_listsAll done all,
      rowTakesChunks_of_listsAll done all⟩
  · rintro ⟨notBlank, few, takes⟩
    have each : ∀ event ∈ tables.listEvents repoId times, ∃ listed,
        attachEventChunks ((tables.chunkRowsOf repoId).map (·.selected)) event = .ok listed ∧
          listed.eventId = event.eventId ∧
            Delivers (tables.storedChunks event.eventId) event listed := by
      intro event member
      obtain ⟨row, isRow, rfl⟩ := List.mem_map.mp ((listEvents_perm few).mem_iff.mp member)
      obtain ⟨listed, attached, delivers⟩ :=
        (attach_delivers_iff (selected_chunks isRow)).mpr (takes row isRow)
      exact ⟨listed, attached, eventId_attached attached, row.idColumn ▸ delivers⟩
    obtain ⟨events, attached, delivered⟩ := Fallible.mapM_of_forall each
    refine ⟨⟨events, none, none⟩, getAllEvents_eq_ok_iff.mpr ⟨notBlank, events, rfl, attached⟩, ?_⟩
    constructor
    · have bare : (tables.listEvents repoId times).map TraceEvent.bare =
          events.map TraceEvent.bare := by
        rw [← List.forall₂_eq_eq_eq, List.forall₂_map_left_iff, List.forall₂_map_right_iff]
        exact delivered.imp fun event listed own => own.2.bare.symm
      have stored : ((tables.listEvents repoId times).map TraceEvent.bare).Perm
          (((tables.eventRowsOf repoId).map (·.event)).map TraceEvent.bare) :=
        (listEvents_perm few).map _
      rw [List.map_map] at stored
      rw [← bare]
      exact stored
    · intro listed isListed type
      obtain ⟨event, _, sameId, delivers⟩ := Fallible.exists_of_mem_right delivered isListed
      rw [delivers.carried type, sameId]

end SupabaseTables

/-! ## A repo with one event too many -/

/-- Event rows of one time stay in the order of their inserts. -/
def insertionOrder : OccurredAtOrder where
  order rows := rows.insertionSort fun first second =>
    first.occurredAt.nanoseconds ≤ second.occurredAt.nanoseconds
  perm rows := List.perm_insertionSort _ rows
  ascending rows := List.pairwise_insertionSort _ rows

def numberedEvent (number : Nat) : TraceEvent :=
  { observedSession [] with
    eventId := ⟨Fin.ofNat _ number⟩
    repoId := some "repo-a"
    orgId := some ⟨"org-a"⟩ }

def numberedRow (number : Nat) : InsertEventRow where
  eventId := (numberedEvent number).eventId
  repoId := "repo-a"
  orgId := "org-a"
  occurredAt := (numberedEvent number).occurredAt
  event := eventWithoutChunks (numberedEvent number)
  idColumn := eventId_eventWithoutChunks _
  repoColumn := repoId_eventWithoutChunks _

theorem nodup_numbered {count : Nat} (possible : count ≤ 16 ^ 32) :
    (((List.range count).map numberedRow).map (·.eventId)).Nodup := by
  rw [List.map_map]
  refine List.nodup_range.map_on ?_
  intro first isFirst second isSecond same
  have values : first % 16 ^ 32 = second % 16 ^ 32 :=
    congrArg (fun eventId : Uuid => eventId.value.val) same
  rw [List.mem_range] at isFirst isSecond
  rwa [Nat.mod_eq_of_lt (by omega), Nat.mod_eq_of_lt (by omega)] at values

def numberedRepo (count : Nat) (possible : count ≤ 16 ^ 32) : SupabaseTables where
  events := ⟨(List.range count).map numberedRow, nodup_numbered possible⟩
  chunks := .empty
  owned := fun _ member => nomatch member

theorem length_numberedRepo {count : Nat} (possible : count ≤ 16 ^ 32) :
    ((numberedRepo count possible).eventRowsOf "repo-a").length = count := by
  have whole : (numberedRepo count possible).eventRowsOf "repo-a" =
      (List.range count).map numberedRow := by
    apply List.filter_eq_self.mpr
    intro row member
    obtain ⟨number, _, rfl⟩ := List.mem_map.mp member
    rfl
  rw [whole, List.length_map, List.length_range]

def crowdedRepo : SupabaseTables := numberedRepo 1001 (by decide)

theorem crowded_repo_is_cut :
    ¬ ∃ listed, getAllEvents insertionOrder crowdedRepo (some "repo-a") = .ok listed ∧
      crowdedRepo.ListsAll "repo-a" listed.events := by
  rintro ⟨listed, done, all⟩
  have few := SupabaseTables.few_of_listsAll done all
  unfold crowdedRepo at few
  rw [length_numberedRepo] at few
  exact absurd few (by decide)

end BrickTrace
