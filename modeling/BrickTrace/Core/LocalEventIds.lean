import BrickTrace.Core.LocalEventStore

/-!
# Which events a local store holds

Appending never takes a readable event away, and no repo lists an event id
twice.  As long as the ids of a repo are used by no event of another repo, an
append under the repo adds exactly the ids it is given.
-/

set_option autoImplicit false

namespace BrickTrace

open KeyedRows (KeyedTable)

namespace LocalEventStore

/-! ## Reading -/

theorem mem_readEventsForRepo {store : LocalEventStore} {repoId : Option String}
    {event : TraceEvent} :
    event ∈ store.readEventsForRepo repoId ↔
      ∃ row ∈ store.events.rows, columnMatches row.repoId repoId = true ∧ row.event = event := by
  simp only [readEventsForRepo, List.mem_map, List.mem_insertionSort, List.mem_filter, and_assoc]

theorem mem_knownEventIds {store : LocalEventStore} {repoId : String} {eventId : Uuid} :
    eventId ∈ store.knownEventIds repoId ↔
      ∃ row ∈ store.events.rows, row.repoId = repoId ∧ row.eventId = eventId := by
  simp only [knownEventIds, List.mem_map, mem_readEventsForRepo, columnMatches, beq_iff_eq]
  constructor
  · rintro ⟨_, ⟨row, member, ofRepo, rfl⟩, rfl⟩
    exact ⟨row, member, ofRepo, row.idColumn.symm⟩
  · rintro ⟨row, member, ofRepo, rfl⟩
    exact ⟨row.event, ⟨row, member, ofRepo, rfl⟩, row.idColumn⟩

/-- The primary key keeps a listing from showing an event id twice. -/
theorem nodup_read_ids (store : LocalEventStore) (repoId : Option String) :
    ((store.readEventsForRepo repoId).map (·.eventId)).Nodup := by
  have columns : (fun row : BrickEventRow => row.event.eventId) = BrickEventRow.eventId :=
    funext fun row => row.idColumn
  rw [readEventsForRepo, List.map_map]
  show (List.map (fun row : BrickEventRow => row.event.eventId) _).Nodup
  rw [columns, ((List.perm_insertionSort _ _).map _).nodup_iff]
  exact store.events.primaryKey.sublist ((List.filter_sublist ..).map _)

theorem mem_readEvents_of_rows_subset {store grown : LocalEventStore}
    (kept : store.events.rows ⊆ grown.events.rows) {repoId : Option String} {event : TraceEvent}
    (member : event ∈ store.readEventsForRepo repoId) :
    event ∈ grown.readEventsForRepo repoId := by
  obtain ⟨row, held, ofRepo, same⟩ := mem_readEventsForRepo.mp member
  exact mem_readEventsForRepo.mpr ⟨row, kept held, ofRepo, same⟩

/-- What a listing with chunks shows differs from the plain listing in payloads only. -/
theorem map_reattached {A : Type} (view : TraceEvent → A)
    (keeps : ∀ event payload, view { event with payload := payload } = view event)
    (store : LocalEventStore) (repoId : Option String) :
    (store.readEventsForRepoWithChunks repoId).map view =
      (store.readEventsForRepo repoId).map view := by
  have reattached : ∀ event, view (store.reattachChunks event) = view event := by
    intro event
    unfold reattachChunks
    split
    · rfl
    · split
      · exact keeps event _
      · rfl
  unfold readEventsForRepoWithChunks
  dsimp only
  split
  · rfl
  · rw [List.map_map]
    exact List.map_congr_left fun event _ => reattached event

/-! ## Appending -/

section Append
variable {rfc3339 : DateTime → String}

/-- The event table of an append that succeeds. -/
theorem appendEvent_events {store grown : LocalEventStore} {repoId : String} {event : TraceEvent}
    (appended : store.appendEvent rfc3339 repoId event = .ok grown) :
    ∃ row : BrickEventRow, row.eventId = event.eventId ∧ row.repoId = event.repoId.getD repoId ∧
      grown.events = store.events.insertOrIgnore row := by
  unfold appendEvent at appended
  obtain ⟨⟨payload, chunks⟩, _, appended⟩ := Fallible.bind_eq_ok_iff.mp appended
  obtain ⟨written, _, appended⟩ := Fallible.bind_eq_ok_iff.mp appended
  cases appended
  exact ⟨_, rfl, rfl, rfl⟩

theorem rows_subset_appendEvent {store grown : LocalEventStore} {repoId : String}
    {event : TraceEvent} (appended : store.appendEvent rfc3339 repoId event = .ok grown) :
    store.events.rows ⊆ grown.events.rows := by
  obtain ⟨row, _, _, events⟩ := appendEvent_events appended
  rw [events]
  exact fun _ member => KeyedTable.mem_insertOrIgnore_of_mem member row

theorem rows_subset_appendEvents (store : LocalEventStore) (repoId : String)
    (events : List TraceEvent) :
    store.events.rows ⊆ (store.appendEvents rfc3339 repoId events).2.events.rows := by
  induction events generalizing store with
  | nil => exact List.Subset.refl _
  | cons event rest ih =>
      unfold appendEvents
      cases appended : store.appendEvent rfc3339 repoId event with
      | error failure => exact List.Subset.refl _
      | ok grown => exact List.Subset.trans (rows_subset_appendEvent appended) (ih grown)

/-- Exactly the owned ids belong to events of the repo. -/
def Owns (owned : Uuid → Prop) (repoId : String) (store : LocalEventStore) : Prop :=
  ∀ row ∈ store.events.rows, row.repoId = repoId ↔ owned row.eventId

variable {owned : Uuid → Prop} {repoId : String}

theorem Owns.owned_of_known {store : LocalEventStore} (owns : store.Owns owned repoId)
    {eventId : Uuid} (known : eventId ∈ store.knownEventIds repoId) : owned eventId := by
  obtain ⟨row, member, ofRepo, rfl⟩ := mem_knownEventIds.mp known
  exact (owns row member).mp ofRepo

theorem Owns.appendEvent {store grown : LocalEventStore} (owns : store.Owns owned repoId)
    {event : TraceEvent} (isOwned : owned event.eventId) (fits : event.repoId.getD repoId = repoId)
    (appended : store.appendEvent rfc3339 repoId event = .ok grown) :
    grown.Owns owned repoId := by
  obtain ⟨row, sameId, sameRepo, events⟩ := appendEvent_events appended
  intro found member
  rw [events] at member
  rcases KeyedTable.mem_insertOrIgnore member with held | rfl
  · exact owns found held
  · rw [sameId, sameRepo]
    exact ⟨fun _ => isOwned, fun _ => fits⟩

theorem known_appendEvent {store grown : LocalEventStore} (owns : store.Owns owned repoId)
    {event : TraceEvent} (isOwned : owned event.eventId) (fits : event.repoId.getD repoId = repoId)
    (appended : store.appendEvent rfc3339 repoId event = .ok grown) (eventId : Uuid) :
    eventId ∈ grown.knownEventIds repoId ↔
      eventId = event.eventId ∨ eventId ∈ store.knownEventIds repoId := by
  have grownOwns := owns.appendEvent isOwned fits appended
  obtain ⟨row, sameId, _, events⟩ := appendEvent_events appended
  constructor
  · intro known
    obtain ⟨found, member, ofRepo, rfl⟩ := mem_knownEventIds.mp known
    rw [events] at member
    rcases KeyedTable.mem_insertOrIgnore member with held | rfl
    · exact Or.inr (mem_knownEventIds.mpr ⟨found, held, ofRepo, rfl⟩)
    · exact Or.inl sameId
  · rintro (rfl | known)
    · -- the row that holds the id belongs to the repo, whoever wrote it
      obtain ⟨found, member, sameKey⟩ := KeyedTable.key_mem_insertOrIgnore store.events row
      rw [← events] at member
      have foundId : found.eventId = event.eventId := sameKey.trans sameId
      have ofRepo := (grownOwns found member).mpr (foundId ▸ isOwned)
      exact mem_knownEventIds.mpr ⟨found, member, ofRepo, foundId⟩
    · obtain ⟨found, member, ofRepo, same⟩ := mem_knownEventIds.mp known
      exact mem_knownEventIds.mpr ⟨found, rows_subset_appendEvent appended member, ofRepo, same⟩

/-- A successful append of some events keeps the ids of the repo apart and adds theirs. -/
theorem known_appendEvents {store : LocalEventStore} (owns : store.Owns owned repoId)
    {events : List TraceEvent}
    (allOwned : ∀ event ∈ events, owned event.eventId ∧ event.repoId.getD repoId = repoId)
    (succeeded : (store.appendEvents rfc3339 repoId events).1 = .ok ()) :
    (store.appendEvents rfc3339 repoId events).2.Owns owned repoId ∧
      ∀ eventId, eventId ∈ (store.appendEvents rfc3339 repoId events).2.knownEventIds repoId ↔
        eventId ∈ store.knownEventIds repoId ∨ eventId ∈ events.map (·.eventId) := by
  induction events generalizing store with
  | nil => exact ⟨owns, fun eventId => by simp [appendEvents]⟩
  | cons event rest ih =>
      obtain ⟨⟨isOwned, fits⟩, restOwned⟩ := List.forall_mem_cons.mp allOwned
      unfold appendEvents at succeeded ⊢
      cases appended : store.appendEvent rfc3339 repoId event with
      | error failure =>
          rw [appended] at succeeded
          cases succeeded
      | ok grown =>
          rw [appended] at succeeded
          obtain ⟨restOwns, restKnown⟩ :=
            ih (owns.appendEvent isOwned fits appended) restOwned succeeded
          refine ⟨restOwns, fun eventId => ?_⟩
          rw [restKnown, known_appendEvent owns isOwned fits appended, List.map_cons, List.mem_cons]
          tauto

/-- After a pull the store knows what it knew and every id of the remote events. -/
theorem known_append_deduped {store : LocalEventStore} (owns : store.Owns owned repoId)
    {remote : List TraceEvent}
    (allOwned : ∀ event ∈ remote, owned event.eventId ∧ event.repoId.getD repoId = repoId)
    (succeeded :
      (store.appendEvents rfc3339 repoId (store.dedupeRemoteEvents repoId remote)).1 = .ok ()) :
    let pulled := (store.appendEvents rfc3339 repoId (store.dedupeRemoteEvents repoId remote)).2
    pulled.Owns owned repoId ∧
      ∀ eventId, eventId ∈ pulled.knownEventIds repoId ↔
        eventId ∈ store.knownEventIds repoId ∨ eventId ∈ remote.map (·.eventId) := by
  have freshOwned : ∀ event ∈ store.dedupeRemoteEvents repoId remote,
      owned event.eventId ∧ event.repoId.getD repoId = repoId :=
    fun event member => allOwned event ((FirstSeen.fresh_sublist ..).subset member)
  obtain ⟨pulledOwns, pulledKnown⟩ := known_appendEvents owns freshOwned succeeded
  refine ⟨pulledOwns, fun eventId => ?_⟩
  rw [pulledKnown, dedupeRemoteEvents, FirstSeen.mem_fresh_keys]
  tauto

/-! ## The repo that an id is stored under -/

def repoOf (store : LocalEventStore) (eventId : Uuid) : Option String :=
  (store.events.find eventId).map (·.repoId)

theorem mem_knownEventIds_iff_repoOf {store : LocalEventStore} {repoId : String} {eventId : Uuid} :
    eventId ∈ store.knownEventIds repoId ↔ store.repoOf eventId = some repoId := by
  unfold repoOf
  rw [mem_knownEventIds, Option.map_eq_some_iff]
  constructor
  · rintro ⟨row, member, ofRepo, sameId⟩
    exact ⟨row, KeyedTable.find_eq_some_iff.mpr ⟨member, sameId⟩, ofRepo⟩
  · rintro ⟨row, found, ofRepo⟩
    obtain ⟨member, sameId⟩ := KeyedTable.find_eq_some_iff.mp found
    exact ⟨row, member, ofRepo, sameId⟩

theorem repoOf_appendEvent {store grown : LocalEventStore} {repoId : String} {event : TraceEvent}
    (appended : store.appendEvent rfc3339 repoId event = .ok grown) (eventId : Uuid) :
    grown.repoOf eventId = (store.repoOf eventId).or
      (if event.eventId = eventId then some (event.repoId.getD repoId) else none) := by
  obtain ⟨row, sameId, sameRepo, events⟩ := appendEvent_events appended
  unfold repoOf
  rw [events, KeyedTable.find_insertOrIgnore, Option.map_or, sameId, apply_ite (Option.map _),
    Option.map_some, sameRepo, Option.map_none]

/-- A stored id keeps its repo; a new one gets that of the first event that has it. -/
theorem repoOf_appendEvents {store : LocalEventStore} {repoId : String} {events : List TraceEvent}
    (succeeded : (store.appendEvents rfc3339 repoId events).1 = .ok ()) (eventId : Uuid) :
    (store.appendEvents rfc3339 repoId events).2.repoOf eventId =
      (store.repoOf eventId).or
        ((events.find? fun event => event.eventId == eventId).map (·.repoId.getD repoId)) := by
  induction events generalizing store with
  | nil => exact (Option.or_none).symm
  | cons event rest ih =>
      unfold appendEvents at succeeded ⊢
      cases appended : store.appendEvent rfc3339 repoId event with
      | error failure =>
          rw [appended] at succeeded
          cases succeeded
      | ok grown =>
          rw [appended] at succeeded
          rw [ih succeeded, repoOf_appendEvent appended, Option.or_assoc, List.find?_cons]
          congr 1
          by_cases same : event.eventId = eventId
          · rw [if_pos same, beq_iff_eq.mpr same]
            rfl
          · rw [if_neg same, beq_eq_false_iff_ne.mpr same]
            rfl

/-- After a pull an id is known if it was, or if it was stored nowhere and the first
remote event that has it is for the repo. -/
theorem known_after_pull_iff {store : LocalEventStore} {repoId : String}
    {remote : List TraceEvent}
    (succeeded :
      (store.appendEvents rfc3339 repoId (store.dedupeRemoteEvents repoId remote)).1 = .ok ())
    (eventId : Uuid) :
    eventId ∈ (store.appendEvents rfc3339 repoId
        (store.dedupeRemoteEvents repoId remote)).2.knownEventIds repoId ↔
      eventId ∈ store.knownEventIds repoId ∨
        store.repoOf eventId = none ∧
          (remote.find? fun event => event.eventId == eventId).map (·.repoId.getD repoId) =
            some repoId := by
  rw [mem_knownEventIds_iff_repoOf, repoOf_appendEvents succeeded, mem_knownEventIds_iff_repoOf]
  cases stored : store.repoOf eventId with
  | some held => simp
  | none =>
      have unknown : eventId ∉ store.knownEventIds repoId := by
        rw [mem_knownEventIds_iff_repoOf, stored]
        exact fun known => nomatch known
      rw [dedupeRemoteEvents, FirstSeen.find?_fresh _ unknown]
      simp

end Append

end LocalEventStore

end BrickTrace
