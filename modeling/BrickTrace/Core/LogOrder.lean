import BrickTrace.Lib.Rfc3339Order
import BrickTrace.Core.EventChunks

/-!
# The log in the order of time

The local store lists its events by the text of the time at which they occurred, and events
of one time by their id.  The texts have fractions of different lengths; in the years of
four digits they are nevertheless in the order of the instants.
-/

set_option autoImplicit false

namespace BrickTrace

/-- `DateTime::<Utc>::to_rfc3339`. -/
def toRfc3339 (time : DateTime) : String := Rfc3339.printed time.nanoseconds

def DateTime.HasFourDigitYear (time : DateTime) : Prop := Rfc3339.FourDigitYear time.nanoseconds

instance (time : DateTime) : Decidable time.HasFourDigitYear :=
  inferInstanceAs (Decidable (_ ∧ _))

theorem toRfc3339_lt_iff {first second : DateTime} (firstYear : first.HasFourDigitYear)
    (secondYear : second.HasFourDigitYear) :
    toRfc3339 first < toRfc3339 second ↔ first.nanoseconds < second.nanoseconds :=
  Rfc3339.printed_lt_iff firstYear secondYear

theorem toRfc3339_inj {first second : DateTime} (firstYear : first.HasFourDigitYear)
    (secondYear : second.HasFourDigitYear) (same : toRfc3339 first = toRfc3339 second) :
    first = second :=
  congrArg DateTime.mk (Rfc3339.printed_inj firstYear secondYear same)

/-! ## The order of the rows -/

namespace BrickEventRow

instance : Std.Total BrickEventRow.notAfter where
  total first second := by
    unfold BrickEventRow.notAfter
    rcases lt_trichotomy first.occurredAt second.occurredAt with before | same | after
    · exact Or.inl (Or.inl before)
    · rcases lt_or_ge second.eventId.text first.eventId.text with smaller | notSmaller
      · exact Or.inr (Or.inr ⟨same.symm, smaller.not_gt⟩)
      · exact Or.inl (Or.inr ⟨same, notSmaller.not_gt⟩)
    · exact Or.inr (Or.inl after)

instance : IsTrans BrickEventRow BrickEventRow.notAfter where
  trans first second third := by
    rintro (before | ⟨same, ids⟩) (before' | ⟨same', ids'⟩)
    · exact Or.inl (before.trans before')
    · exact Or.inl (same' ▸ before)
    · exact Or.inl (same ▸ before')
    · exact Or.inr ⟨same.trans same', fun smaller =>
        ids' (lt_of_lt_of_le smaller (not_lt.mp ids))⟩

end BrickEventRow

/-! ## Runs of appends -/

/-- A refused append leaves the store as it is. -/
def nextStore (rfc3339 : DateTime → String) (store : LocalEventStore) (append : EventAppend) :
    LocalEventStore :=
  match store.appendEvent rfc3339 append.repoId append.event with
  | .error _ => store
  | .ok grown => grown

/-- The time of every row is that of its event. -/
def TimesWritten (rfc3339 : DateTime → String) (store : LocalEventStore) : Prop :=
  ∀ row ∈ store.events.rows, row.occurredAt = rfc3339 row.event.occurredAt

theorem TimesWritten.next {rfc3339 : DateTime → String} {store : LocalEventStore}
    (written : TimesWritten rfc3339 store) (append : EventAppend) :
    TimesWritten rfc3339 (nextStore rfc3339 store append) := by
  unfold nextStore
  cases appended : store.appendEvent rfc3339 append.repoId append.event with
  | error failure => exact written
  | ok grown =>
      obtain ⟨payload, chunks, done⟩ := LocalEventStore.appended_of_ok appended
      intro row member
      dsimp only at member
      rw [done.events] at member
      rcases KeyedRows.KeyedTable.mem_insertOrIgnore member with held | rfl
      · exact written row held
      · rfl

theorem timesWritten_run (rfc3339 : DateTime → String) (path : String) (appends : List EventAppend) :
    TimesWritten rfc3339 (Runs.run (nextStore rfc3339) (.new path) appends) := by
  have step : ∀ (appends : List EventAppend) (store : LocalEventStore),
      TimesWritten rfc3339 store → TimesWritten rfc3339 (Runs.run (nextStore rfc3339) store appends) := by
    intro appends
    induction appends with
    | nil => exact fun _ written => written
    | cons append rest ih => exact fun store written => ih _ (written.next append)
  exact step appends (.new path) fun row member => nomatch member

/-- An event occurred before another one, or at the same time with a smaller id. -/
def TraceEvent.Precedes (first second : TraceEvent) : Prop :=
  first.occurredAt.nanoseconds < second.occurredAt.nanoseconds ∨
    first.occurredAt = second.occurredAt ∧ first.eventId.text < second.eventId.text

/-- A listing shows the stored events of the repo, all of them once, in the order of time. -/
theorem readEventsForRepo_in_time_order (path : String) (appends : List EventAppend)
    (repoId : Option String) :
    let store := Runs.run (nextStore toRfc3339) (.new path) appends
    (∀ row ∈ store.events.rows, row.event.occurredAt.HasFourDigitYear) →
    (store.readEventsForRepo repoId).Perm
        ((store.events.rows.filter fun row => columnMatches row.repoId repoId).map (·.event)) ∧
      (store.readEventsForRepo repoId).Pairwise TraceEvent.Precedes := by
  intro store inRange
  refine ⟨(List.perm_insertionSort _ _).map _, ?_⟩
  have written : TimesWritten toRfc3339 store := timesWritten_run toRfc3339 path appends
  have sorted := List.pairwise_insertionSort BrickEventRow.notAfter
    (store.events.rows.filter fun row => columnMatches row.repoId repoId)
  have distinct : ((store.events.rows.filter fun row => columnMatches row.repoId repoId).insertionSort
      BrickEventRow.notAfter).Pairwise fun first second => first.eventId ≠ second.eventId := by
    refine List.pairwise_map.mp ?_
    refine ((List.perm_insertionSort _ _).map _).nodup_iff.mpr ?_
    exact store.events.primaryKey.sublist ((List.filter_sublist ..).map _)
  unfold LocalEventStore.readEventsForRepo
  refine List.pairwise_map.mpr ((sorted.and distinct).imp_of_mem ?_)
  intro first second isFirst isSecond ordered
  have firstHeld := List.mem_of_mem_filter ((List.mem_insertionSort _).mp isFirst)
  have secondHeld := List.mem_of_mem_filter ((List.mem_insertionSort _).mp isSecond)
  obtain ⟨notAfter, differ⟩ := ordered
  unfold BrickEventRow.notAfter at notAfter
  rw [written first firstHeld, written second secondHeld] at notAfter
  rcases notAfter with before | ⟨same, ids⟩
  · exact Or.inl ((toRfc3339_lt_iff (inRange first firstHeld) (inRange second secondHeld)).mp before)
  · refine Or.inr ⟨toRfc3339_inj (inRange first firstHeld) (inRange second secondHeld) same, ?_⟩
    rw [first.idColumn, second.idColumn]
    exact lt_of_le_of_ne (not_lt.mp ids) fun sameText => differ (Uuid.text_injective sameText)

def sessionStartedAt (eventId : Uuid) (nanoseconds : Int) : TraceEvent where
  eventId := eventId
  eventType := .sessionStarted
  schemaVersion := 1
  payloadSchemaVersion := 1
  occurredAt := ⟨nanoseconds⟩
  recordedAt := ⟨nanoseconds⟩
  actor := ⟨.agent, "agent", none⟩
  repoId := none
  orgId := none
  projectId := none
  missionId := none
  sessionId := none
  artifactId := none
  repoContextId := none
  confidence := .observed
  payload := .object []

/-- Half a second past the hour, then the hour. -/
def halfThenWhole : List EventAppend :=
  [⟨"repo-a", sessionStartedAt ⟨1⟩ 3600500000000⟩, ⟨"repo-a", sessionStartedAt ⟨2⟩ 3600000000000⟩]

theorem halfThenWhole_in_time_order :
    let store := Runs.run (nextStore toRfc3339) (.new "brick.sqlite") halfThenWhole
    (store.readEventsForRepo none).Perm
        ((store.events.rows.filter fun row => columnMatches row.repoId none).map (·.event)) ∧
      (store.readEventsForRepo none).Pairwise TraceEvent.Precedes :=
  readEventsForRepo_in_time_order "brick.sqlite" halfThenWhole none (by decide +kernel)

end BrickTrace
