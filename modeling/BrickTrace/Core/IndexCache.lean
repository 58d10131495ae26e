import BrickTrace.Lib.Runs
import BrickTrace.Core.Index
import BrickTrace.Core.LocalEventIds

/-!
# The cached index

Handles of a repository share the event store and the file of the cached index.  A
cache is taken for current when it counts as many events as the store lists.  The
store only ever adds rows at its end, so a list of as many events is the same list,
and the cache is what a build would give, up to its date.
-/

set_option autoImplicit false

namespace BrickTrace

/-! ## The date and the count of an index

No event reads them, so a build can be dated afterwards. -/

namespace TraceIndex

def stamped (index : TraceIndex) (now : DateTime) (eventCount : Nat) : TraceIndex :=
  { index with rebuiltAt := now, eventCount := eventCount }

section Stamp
variable (mode : OverflowMode) (index : TraceIndex) (event : TraceEvent) (now : DateTime)
  (eventCount : Nat)

theorem applyDiffCaptured_stamped :
    (index.stamped now eventCount).applyDiffCaptured mode event =
      (index.applyDiffCaptured mode event).map (·.stamped now eventCount) := by
  unfold applyDiffCaptured linkSessionIfNamed linkMissionIfNamed
  cases event.artifactId with
  | none => rfl
  | some artifactId =>
      cases readPayload DiffCapturedPayload.decode event with
      | error failure => rfl
      | ok payload =>
          dsimp only [bind, Except.bind]
          cases sumU64 mode (payload.fileChanges.filterMap DiffFileChange.additions) with
          | error failure => rfl
          | ok additions =>
              dsimp only
              cases sumU64 mode (payload.fileChanges.filterMap DiffFileChange.deletions) with
              | error failure => rfl
              | ok deletions => cases event.sessionId <;> cases event.missionId <;> rfl

theorem applyOrgCreated_stamped :
    (index.stamped now eventCount).applyOrgCreated event =
      (index.applyOrgCreated event).map (·.stamped now eventCount) := by
  unfold applyOrgCreated
  cases event.orgId with
  | none => rfl
  | some orgId => cases readPayload OrgCreatedPayload.decode event <;> rfl

theorem applyOrgUpdated_stamped :
    (index.stamped now eventCount).applyOrgUpdated event =
      (index.applyOrgUpdated event).map (·.stamped now eventCount) := by
  unfold applyOrgUpdated
  cases event.orgId with
  | none => rfl
  | some orgId => cases readPayload OrgUpdatedPayload.decode event <;> rfl

theorem applyProjectCreated_stamped :
    (index.stamped now eventCount).applyProjectCreated event =
      (index.applyProjectCreated event).map (·.stamped now eventCount) := by
  unfold applyProjectCreated
  cases event.projectId with
  | none => rfl
  | some projectId => cases readPayload ProjectCreatedPayload.decode event <;> rfl

theorem applyMissionCreated_stamped :
    (index.stamped now eventCount).applyMissionCreated event =
      (index.applyMissionCreated event).map (·.stamped now eventCount) := by
  unfold applyMissionCreated
  cases event.missionId with
  | none => rfl
  | some missionId => cases readPayload MissionCreatedPayload.decode event <;> rfl

theorem applySessionLogUploaded_stamped :
    (index.stamped now eventCount).applySessionLogUploaded event =
      (index.applySessionLogUploaded event).map (·.stamped now eventCount) := by
  unfold applySessionLogUploaded
  cases event.sessionId with
  | none => rfl
  | some sessionId => cases readPayload SessionLogUploadedPayload.decode event <;> rfl

theorem applyRepoContextCaptured_stamped :
    (index.stamped now eventCount).applyRepoContextCaptured event =
      (index.applyRepoContextCaptured event).map (·.stamped now eventCount) := by
  unfold applyRepoContextCaptured
  cases event.repoContextId with
  | none => rfl
  | some repoContextId => cases readPayload RepoContextCapturedPayload.decode event <;> rfl

theorem applyProjectUpdated_stamped :
    (index.stamped now eventCount).applyProjectUpdated event =
      (index.applyProjectUpdated event).map (·.stamped now eventCount) := by
  unfold applyProjectUpdated
  cases event.projectId with
  | none => rfl
  | some projectId =>
      cases readPayload ProjectUpdatedPayload.decode event with
      | error failure => rfl
      | ok payload =>
          dsimp only [bind, Except.bind]
          cases payload.orgId <;> rfl

theorem applyMissionUpdated_stamped :
    (index.stamped now eventCount).applyMissionUpdated event =
      (index.applyMissionUpdated event).map (·.stamped now eventCount) := by
  unfold applyMissionUpdated
  cases event.missionId with
  | none => rfl
  | some missionId =>
      cases readPayload MissionUpdatedPayload.decode event with
      | error failure => rfl
      | ok payload =>
          dsimp only [bind, Except.bind]
          cases payload.projectId <;> rfl

theorem applySessionStarted_stamped :
    (index.stamped now eventCount).applySessionStarted event =
      (index.applySessionStarted event).map (·.stamped now eventCount) := by
  unfold applySessionStarted
  cases event.sessionId with
  | none => rfl
  | some sessionId =>
      cases readPayload SessionStartedPayload.decode event with
      | error failure => rfl
      | ok payload => cases event.missionId <;> rfl

theorem applyArtifactUpdated_stamped :
    (index.stamped now eventCount).applyArtifactUpdated event =
      (index.applyArtifactUpdated event).map (·.stamped now eventCount) := by
  unfold applyArtifactUpdated linkSessionIfNamed
  cases event.artifactId with
  | none => rfl
  | some artifactId =>
      cases readPayload ArtifactUpdatedPayload.decode event with
      | error failure => rfl
      | ok payload => cases event.sessionId <;> rfl

theorem applyArtifactFileRef_stamped :
    (index.stamped now eventCount).applyArtifactFileRef event =
      (index.applyArtifactFileRef event).map (·.stamped now eventCount) := by
  unfold applyArtifactFileRef linkSessionIfNamed
  cases event.artifactId with
  | none => rfl
  | some artifactId =>
      cases readPayload ArtifactFileRefRecordedPayload.decode event with
      | error failure => rfl
      | ok payload => cases event.sessionId <;> rfl

theorem applyArtifactAttachmentUploaded_stamped :
    (index.stamped now eventCount).applyArtifactAttachmentUploaded event =
      (index.applyArtifactAttachmentUploaded event).map (·.stamped now eventCount) := by
  unfold applyArtifactAttachmentUploaded linkSessionIfNamed
  cases event.artifactId with
  | none => rfl
  | some artifactId =>
      cases readPayload ArtifactAttachmentUploadedPayload.decode event with
      | error failure => rfl
      | ok payload => cases event.sessionId <;> rfl

theorem applyArtifactCreated_stamped :
    (index.stamped now eventCount).applyArtifactCreated event =
      (index.applyArtifactCreated event).map (·.stamped now eventCount) := by
  unfold applyArtifactCreated linkSessionIfNamed linkMissionIfNamed
  cases event.artifactId with
  | none => rfl
  | some artifactId =>
      cases readPayload ArtifactCreatedPayload.decode event with
      | error failure => rfl
      | ok payload => cases event.missionId <;> cases event.sessionId <;> rfl

theorem applySessionLinked_stamped :
    (index.stamped now eventCount).applySessionLinked event =
      (index.applySessionLinked event).map (·.stamped now eventCount) := by
  unfold applySessionLinked
  cases event.sessionId with
  | none => rfl
  | some sessionId =>
      cases event.missionId with
      | none => rfl
      | some missionId => cases readPayload SessionLinkedToMissionPayload.decode event <;> rfl

theorem applyArtifactLinked_stamped :
    (index.stamped now eventCount).applyArtifactLinked event =
      (index.applyArtifactLinked event).map (·.stamped now eventCount) := by
  unfold applyArtifactLinked
  cases event.artifactId with
  | none => rfl
  | some artifactId =>
      cases event.missionId with
      | none => rfl
      | some missionId => cases readPayload ArtifactLinkedToMissionPayload.decode event <;> rfl

theorem applyEvent_stamped :
    applyEvent mode (index.stamped now eventCount) event =
      (applyEvent mode index event).map (·.stamped now eventCount) := by
  unfold applyEvent
  cases event.eventType with
  | artifactReviewed | artifactAccepted | externalRefLinked | sourceSessionObserved => rfl
  | diffCaptured => exact applyDiffCaptured_stamped ..
  | orgCreated => exact applyOrgCreated_stamped ..
  | orgUpdated => exact applyOrgUpdated_stamped ..
  | projectCreated => exact applyProjectCreated_stamped ..
  | missionCreated => exact applyMissionCreated_stamped ..
  | sessionLogUploaded => exact applySessionLogUploaded_stamped ..
  | repoContextCaptured => exact applyRepoContextCaptured_stamped ..
  | projectUpdated => exact applyProjectUpdated_stamped ..
  | missionUpdated => exact applyMissionUpdated_stamped ..
  | sessionStarted => exact applySessionStarted_stamped ..
  | artifactUpdated => exact applyArtifactUpdated_stamped ..
  | artifactFileRefRecorded => exact applyArtifactFileRef_stamped ..
  | artifactAttachmentUploaded => exact applyArtifactAttachmentUploaded_stamped ..
  | artifactCreated => exact applyArtifactCreated_stamped ..
  | sessionLinkedToMission => exact applySessionLinked_stamped ..
  | artifactLinkedToMission => exact applyArtifactLinked_stamped ..

theorem build_eq_map_stamped (now other : DateTime) (events : List TraceEvent) :
    build mode now events =
      (build mode other events).map (·.stamped now events.length) := by
  have folds : ∀ index : TraceIndex,
      events.foldlM (applyEvent mode) (index.stamped now events.length) =
        (events.foldlM (applyEvent mode) index).map (·.stamped now events.length) := by
    generalize events.length = eventCount
    induction events with
    | nil => exact fun _ => rfl
    | cons event rest ih =>
        intro index
        rw [List.foldlM_cons, List.foldlM_cons, applyEvent_stamped]
        cases applyEvent mode index event with
        | error failure => rfl
        | ok next => exact ih next
  exact folds (empty other events.length)

end Stamp

end TraceIndex

/-! ## Handles -/

/-- Where a call that loads or rebuilds the index stands. -/
inductive IndexCall where
  | loading
  /-- The file held this index; the events are still to be counted. -/
  | cached (index : TraceIndex)
  | rebuilding
  /-- Built from the events as they were read, and still to be written. -/
  | built (index : TraceIndex) (events : List TraceEvent)
  /-- Written to the file; the views are still to be written. -/
  | written (index : TraceIndex) (events : List TraceEvent)
  /-- The answer, with the events as the call read them last. -/
  | answered (index : TraceIndex) (events : List TraceEvent)
  | failed

structure IndexWorld (Handle : Type) where
  eventStore : LocalEventStore
  indexFile : Option TraceIndex
  calls : Handle → Option IndexCall

/-- An append is that of one event, by a handle of any repository or as a part of an
append of several.  A call advances by one access to the store or to a file, which may
fail. -/
inductive IndexAction (Handle : Type) where
  | append (repoId : String) (event : TraceEvent)
  | load (handle : Handle)
  | rebuild (handle : Handle)
  | advance (handle : Handle) (now : DateTime) (succeeds : Bool)

section Handles
variable {Handle : Type} [DecidableEq Handle] (mode : OverflowMode) (rfc3339 : DateTime → String)
  (repoId : String)

def IndexWorld.readAllEvents (world : IndexWorld Handle) : List TraceEvent :=
  world.eventStore.readEventsForRepo (some repoId)

def IndexWorld.setCall (world : IndexWorld Handle) (handle : Handle) (call : IndexCall) :
    IndexWorld Handle :=
  { world with calls := Function.update world.calls handle (some call) }

/-- The next access of a call, when it succeeds. -/
def advanceCall (world : IndexWorld Handle) (handle : Handle) (now : DateTime) :
    IndexCall → IndexWorld Handle
  | .loading =>
      match world.indexFile with
      | some index => world.setCall handle (.cached index)
      | none => world.setCall handle .rebuilding
  | .cached index =>
      let events := world.readAllEvents repoId
      if index.eventCount = events.length then world.setCall handle (.answered index events)
      else world.setCall handle .rebuilding
  | .rebuilding =>
      let events := world.readAllEvents repoId
      match TraceIndex.build mode now events with
      | .error _ => world.setCall handle .failed
      | .ok index => world.setCall handle (.built index events)
  | .built index events =>
      { world with indexFile := some index }.setCall handle (.written index events)
  | .written index events => world.setCall handle (.answered index events)
  | .answered _ _ | .failed => world

def nextIndexWorld (world : IndexWorld Handle) : IndexAction Handle → IndexWorld Handle
  | .append appendRepoId event =>
      match world.eventStore.appendEvent rfc3339 appendRepoId event with
      | .error _ => world
      | .ok grown => { world with eventStore := grown }
  | .load handle => world.setCall handle .loading
  | .rebuild handle => world.setCall handle .rebuilding
  | .advance handle now succeeds =>
      match world.calls handle with
      | none => world
      | some call =>
          if succeeds then advanceCall mode repoId world handle now call
          else world.setCall handle .failed

/-- Every answer is the index of the events that were read, up to its date; and these are
the events of the store still, unless it lists more. -/
def AnswersCurrent (world : IndexWorld Handle) : Prop :=
  ∀ handle index events, world.calls handle = some (.answered index events) →
    (∀ now, TraceIndex.build mode now events = .ok { index with rebuiltAt := now }) ∧
      (events.length = (world.readAllEvents repoId).length → events = world.readAllEvents repoId)

end Handles

/-! ## Lists that only grow -/

namespace LocalEventStore

/-- The events of a repo among some rows, in the order of a listing. -/
def listing (repoId : String) (rows : List BrickEventRow) : List TraceEvent :=
  ((rows.filter fun row => columnMatches row.repoId (some repoId)).insertionSort
    BrickEventRow.notAfter).map (·.event)

theorem rows_prefix_appendEvent {rfc3339 : DateTime → String} {store grown : LocalEventStore}
    {repoId : String} {event : TraceEvent}
    (appended : store.appendEvent rfc3339 repoId event = .ok grown) :
    store.events.rows <+: grown.events.rows := by
  obtain ⟨row, _, _, events⟩ := appendEvent_events appended
  rw [events, KeyedRows.KeyedTable.rows_insertOrIgnore]
  split
  · exact List.prefix_refl _
  · exact List.prefix_append _ _

/-- An earlier listing with as many events is the later one. -/
theorem listing_eq_of_length {repoId : String} {earlier later : List BrickEventRow}
    (grown : earlier <+: later)
    (sameLength : (listing repoId earlier).length = (listing repoId later).length) :
    listing repoId earlier = listing repoId later := by
  unfold listing at sameLength ⊢
  rw [List.length_map, List.length_map, List.length_insertionSort, List.length_insertionSort]
    at sameLength
  rw [(grown.filter _).eq_of_length sameLength]

end LocalEventStore

/-! ## What a cache is worth -/

section Invariant
variable {Handle : Type} {mode : OverflowMode} {rfc3339 : DateTime → String} {repoId : String}

/-- The index of the events that an earlier state of the store listed. -/
structure Indexes (mode : OverflowMode) (repoId : String) (store : LocalEventStore)
    (index : TraceIndex) (events : List TraceEvent) : Prop where
  past : ∃ rows, rows <+: store.events.rows ∧ events = LocalEventStore.listing repoId rows
  builds : ∀ now, TraceIndex.build mode now events = .ok { index with rebuiltAt := now }

theorem Indexes.grow {store grown : LocalEventStore} {index : TraceIndex}
    {events : List TraceEvent} (indexes : Indexes mode repoId store index events)
    (prefixRows : store.events.rows <+: grown.events.rows) :
    Indexes mode repoId grown index events := by
  obtain ⟨rows, within, same⟩ := indexes.past
  exact ⟨⟨rows, within.trans prefixRows, same⟩, indexes.builds⟩

theorem Indexes.eventCount_eq {store : LocalEventStore} {index : TraceIndex}
    {events : List TraceEvent} (indexes : Indexes mode repoId store index events) :
    index.eventCount = events.length := by
  have built := indexes.builds index.rebuiltAt
  rw [TraceIndex.build_eq_map_stamped mode _ index.rebuiltAt, indexes.builds] at built
  exact (congrArg TraceIndex.eventCount (Except.ok.inj built)).symm

/-- A cache that counts the events of the store is theirs. -/
theorem Indexes.current {store : LocalEventStore} {index : TraceIndex} {events : List TraceEvent}
    (indexes : Indexes mode repoId store index events)
    (sameLength : events.length = (store.readEventsForRepo (some repoId)).length) :
    events = store.readEventsForRepo (some repoId) := by
  obtain ⟨rows, within, rfl⟩ := indexes.past
  exact LocalEventStore.listing_eq_of_length within sameLength

theorem indexes_of_build {store : LocalEventStore} {index : TraceIndex} {now : DateTime}
    (built : TraceIndex.build mode now (store.readEventsForRepo (some repoId)) = .ok index) :
    Indexes mode repoId store index (store.readEventsForRepo (some repoId)) := by
  refine ⟨⟨_, List.prefix_refl _, rfl⟩, fun later => ?_⟩
  rw [TraceIndex.build_eq_map_stamped mode later now, built]
  have counts := built
  rw [TraceIndex.build_eq_map_stamped mode now now, built] at counts
  have eventCount := congrArg TraceIndex.eventCount (Except.ok.inj counts)
  rw [← show (store.readEventsForRepo (some repoId)).length = index.eventCount from eventCount]
  rfl

/-- What a call relies on. -/
def CallTrue (mode : OverflowMode) (repoId : String) (store : LocalEventStore) :
    IndexCall → Prop
  | .cached index => ∃ events, Indexes mode repoId store index events
  | .built index events | .written index events | .answered index events =>
      Indexes mode repoId store index events
  | .loading | .rebuilding | .failed => True

theorem CallTrue.grow {store grown : LocalEventStore}
    (prefixRows : store.events.rows <+: grown.events.rows) {call : IndexCall}
    (holds : CallTrue mode repoId store call) : CallTrue mode repoId grown call := by
  cases call with
  | cached index =>
      obtain ⟨events, indexes⟩ := holds
      exact ⟨events, indexes.grow prefixRows⟩
  | built index events => exact Indexes.grow holds prefixRows
  | written index events => exact Indexes.grow holds prefixRows
  | answered index events => exact Indexes.grow holds prefixRows
  | loading => trivial
  | rebuilding => trivial
  | failed => trivial

structure CacheTrue (mode : OverflowMode) (repoId : String) (world : IndexWorld Handle) : Prop where
  file : ∀ index, world.indexFile = some index →
    ∃ events, Indexes mode repoId world.eventStore index events
  calls : ∀ handle call, world.calls handle = some call →
    CallTrue mode repoId world.eventStore call

variable [DecidableEq Handle]

theorem CacheTrue.setCall {world : IndexWorld Handle} (valid : CacheTrue mode repoId world)
    {handle : Handle} {call : IndexCall} (holds : CallTrue mode repoId world.eventStore call) :
    CacheTrue mode repoId (world.setCall handle call) := by
  refine ⟨valid.file, fun other found isCall => ?_⟩
  unfold IndexWorld.setCall at isCall
  by_cases same : other = handle
  · subst same
    dsimp only at isCall
    rw [Function.update_self] at isCall
    cases isCall
    exact holds
  · dsimp only at isCall
    rw [Function.update_of_ne same] at isCall
    exact valid.calls other found isCall

theorem CacheTrue.advanceCall {world : IndexWorld Handle} (valid : CacheTrue mode repoId world)
    {handle : Handle} {call : IndexCall} (isCall : world.calls handle = some call)
    (now : DateTime) : CacheTrue mode repoId (advanceCall mode repoId world handle now call) := by
  have holds := valid.calls handle call isCall
  cases call with
  | loading =>
      unfold BrickTrace.advanceCall
      cases found : world.indexFile with
      | none => exact valid.setCall trivial
      | some index => exact valid.setCall (valid.file index found)
  | cached index =>
      unfold BrickTrace.advanceCall
      dsimp only
      split
      · rename_i counts
        obtain ⟨events, indexes⟩ := holds
        have current : events = world.readAllEvents repoId :=
          indexes.current (indexes.eventCount_eq.symm.trans counts)
        rw [← current]
        exact valid.setCall indexes
      · exact valid.setCall trivial
  | rebuilding =>
      unfold BrickTrace.advanceCall
      dsimp only
      cases built : TraceIndex.build mode now (world.readAllEvents repoId) with
      | error failure => exact valid.setCall trivial
      | ok index => exact valid.setCall (indexes_of_build built)
  | built index events =>
      have fileWritten : CacheTrue mode repoId { world with indexFile := some index } := by
        refine ⟨fun found isFile => ?_, valid.calls⟩
        cases isFile
        exact ⟨events, holds⟩
      exact fileWritten.setCall holds
  | written index events => exact valid.setCall holds
  | answered index events => exact valid
  | failed => exact valid

theorem CacheTrue.next {world : IndexWorld Handle} (valid : CacheTrue mode repoId world)
    (action : IndexAction Handle) :
    CacheTrue mode repoId (nextIndexWorld mode rfc3339 repoId world action) := by
  cases action with
  | append appendRepoId event =>
      unfold nextIndexWorld
      dsimp only
      cases appended : world.eventStore.appendEvent rfc3339 appendRepoId event with
      | error failure => exact valid
      | ok grown =>
          have prefixRows := LocalEventStore.rows_prefix_appendEvent appended
          constructor
          · intro index isFile
            obtain ⟨events, indexes⟩ := valid.file index isFile
            exact ⟨events, indexes.grow prefixRows⟩
          · intro handle call isCall
            exact (valid.calls handle call isCall).grow prefixRows
  | load handle => exact valid.setCall trivial
  | rebuild handle => exact valid.setCall trivial
  | advance handle now succeeds =>
      unfold nextIndexWorld
      dsimp only
      cases isCall : world.calls handle with
      | none => exact valid
      | some call =>
          cases succeeds with
          | false => exact valid.setCall trivial
          | true => exact valid.advanceCall isCall now

omit [DecidableEq Handle] in
theorem CacheTrue.answersCurrent {world : IndexWorld Handle}
    (valid : CacheTrue mode repoId world) : AnswersCurrent mode repoId world := by
  intro handle index events isAnswer
  have indexes : Indexes mode repoId world.eventStore index events :=
    valid.calls handle _ isAnswer
  exact ⟨indexes.builds, indexes.current⟩

/-- Whatever the handles do, in whatever order, on a storage root without a cache. -/
theorem index_answers_always_current (mode : OverflowMode) (rfc3339 : DateTime → String)
    (repoId : String) (eventStore : LocalEventStore) (actions : List (IndexAction Handle)) :
    Runs.Always (nextIndexWorld mode rfc3339 repoId) (AnswersCurrent mode repoId)
      ⟨eventStore, none, fun _ => none⟩ actions := by
  have start : CacheTrue mode repoId (⟨eventStore, none, fun _ => none⟩ : IndexWorld Handle) := by
    constructor
    · intro index absent
      cases absent
    · intro handle call absent
      cases absent
  have step : ∀ (world : IndexWorld Handle) (action : IndexAction Handle),
      CacheTrue mode repoId world →
        CacheTrue mode repoId (nextIndexWorld mode rfc3339 repoId world action) :=
    fun _ action valid => valid.next action
  have valid := Runs.always_of_step (nextIndexWorld mode rfc3339 repoId) step actions start
  exact Runs.always_mono _ (fun _ holds => CacheTrue.answersCurrent holds) valid

end Invariant

end BrickTrace
