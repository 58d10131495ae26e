import BrickTrace.Core.EventChunks
import BrickTrace.Sync.Convergence

/-!
# Pulling the same events again

A pull looks an event up among the ids of its own repo, but stores it under the
repo that the event names.  An event of another repo is found new every time.
-/

set_option autoImplicit false

namespace BrickTrace

open KeyedRows (KeyedTable)

/-- Every event is known, or it is stored nowhere and the first event of the list with
its id is for the repo. -/
def PullSettles (store : LocalEventStore) (repoId : String) (remote : List TraceEvent) : Prop :=
  ∀ event ∈ remote, event.eventId ∈ store.knownEventIds repoId ∨
    event.eventId ∉ store.storedIds ∧
      ∀ first, (remote.find? fun other => other.eventId == event.eventId) = some first →
        first.repoId = some repoId

namespace LocalEventStore

theorem repoOf_eq_none_iff {store : LocalEventStore} {eventId : Uuid} :
    store.repoOf eventId = none ↔ eventId ∉ store.storedIds := by
  unfold repoOf
  rw [Option.map_eq_none_iff, KeyedTable.find_eq_none_iff]
  rfl

theorem dedupeRemoteEvents_eq_nil_iff {store : LocalEventStore} {repoId : String}
    {remote : List TraceEvent} :
    store.dedupeRemoteEvents repoId remote = [] ↔
      ∀ event ∈ remote, event.eventId ∈ store.knownEventIds repoId := by
  unfold dedupeRemoteEvents
  constructor
  · intro nothing event member
    have known := FirstSeen.key_known_or_fresh (·.eventId) (store.knownEventIds repoId) member
    rw [nothing] at known
    exact known.resolve_right List.not_mem_nil
  · exact FirstSeen.fresh_eq_nil _

end LocalEventStore

section Pull
variable {Db : Type} {rfc3339 : DateTime → String} {metadata : MetadataOps Db}
  {replica : Replica Db} {repoId : String} {remote : List TraceEvent}

/-- What a pull reports. -/
theorem pullEvents_counts {outcome : PullOutcome}
    (succeeded : (pullEvents rfc3339 metadata replica repoId remote false).1 = .ok outcome) :
    outcome.pulledEventCount = (replica.eventStore.dedupeRemoteEvents repoId remote).length ∧
      outcome.duplicateCount =
        remote.length - (replica.eventStore.dedupeRemoteEvents repoId remote).length := by
  unfold pullEvents at succeeded
  simp only [Bool.false_eq_true, if_false] at succeeded
  generalize replica.eventStore.dedupeRemoteEvents repoId remote = pulled at succeeded ⊢
  cases ingested : ingestPulledSourceSessions metadata replica.metadataDb pulled with
  | mk result metadataDb =>
      rw [ingested] at succeeded
      cases result with
      | error failure => cases succeeded
      | ok _ =>
          dsimp only at succeeded
          split at succeeded
          · cases succeeded
            exact ⟨rfl, rfl⟩
          · obtain ⟨path, _, rfl⟩ := Fallible.map_eq_ok_iff.mp succeeded
            exact ⟨rfl, rfl⟩

/-- Among events that name their repo, a second pull finds none new exactly when the
first one settles them all; it then changes no table. -/
theorem repeated_pull_finds_nothing_iff (named : ∀ event ∈ remote, ∃ repo, event.repoId = some repo)
    {firstOutcome outcome : PullOutcome}
    (first : (pullEvents rfc3339 metadata replica repoId remote false).1 = .ok firstOutcome)
    (second : (pullEvents rfc3339 metadata
      (pullEvents rfc3339 metadata replica repoId remote false).2 repoId remote false).1 =
        .ok outcome) :
    let pulled := (pullEvents rfc3339 metadata replica repoId remote false).2
    (outcome.pulledEventCount = 0 ∧ outcome.duplicateCount = remote.length ∧
        (pullEvents rfc3339 metadata pulled repoId remote false).2.eventStore =
          pulled.eventStore) ↔
      PullSettles replica.eventStore repoId remote := by
  intro pulled
  obtain ⟨appendedFirst, storeFirst⟩ := pullEvents_of_ok first
  obtain ⟨_, storeSecond⟩ := pullEvents_of_ok second
  obtain ⟨pulledCount, duplicates⟩ := pullEvents_counts second
  have settles : pulled.eventStore.dedupeRemoteEvents repoId remote = [] ↔
      PullSettles replica.eventStore repoId remote := by
    rw [LocalEventStore.dedupeRemoteEvents_eq_nil_iff, storeFirst]
    unfold PullSettles
    refine forall₂_congr fun event member => ?_
    rw [LocalEventStore.known_after_pull_iff appendedFirst, LocalEventStore.repoOf_eq_none_iff]
    refine or_congr_right (and_congr_right fun _ => ?_)
    have present : (remote.find? fun other => other.eventId == event.eventId).isSome = true :=
      List.find?_isSome.mpr ⟨event, member, beq_self_eq_true _⟩
    obtain ⟨head, found⟩ := Option.isSome_iff_exists.mp present
    obtain ⟨repo, names⟩ := named head (List.mem_of_find?_eq_some found)
    rw [found]
    simp [names]
  rw [← settles]
  constructor
  · rintro ⟨nothing, _⟩
    rw [pulledCount] at nothing
    exact List.length_eq_zero_iff.mp nothing
  · intro nothing
    rw [pulledCount, duplicates, nothing]
    refine ⟨rfl, rfl, ?_⟩
    rw [storeSecond, nothing]
    rfl

end Pull

def emptyReplica : Replica Unit := ⟨.new "brick.sqlite", ()⟩

def pullOnce (remote : List TraceEvent) (replica : Replica Unit) :
    Except SyncError PullOutcome × Replica Unit :=
  pullEvents oneInstant acceptingMetadata replica "repo-a" remote false

def eventOfRepo (repoId : String) : TraceEvent := { missionEvent 1 with repoId := some repoId }

theorem repeated_pull_of_own_event :
    ∃ outcome, (pullOnce [eventOfRepo "repo-a"]
        (pullOnce [eventOfRepo "repo-a"] emptyReplica).2).1 = .ok outcome ∧
      outcome.pulledEventCount = 0 := by
  have named : ∀ event ∈ [eventOfRepo "repo-a"], ∃ repo, event.repoId = some repo :=
    List.forall_mem_singleton.mpr ⟨_, rfl⟩
  have settles : PullSettles emptyReplica.eventStore "repo-a" [eventOfRepo "repo-a"] := by
    refine List.forall_mem_singleton.mpr (Or.inr ⟨List.not_mem_nil, ?_⟩)
    rintro first found
    cases found
    rfl
  obtain ⟨outcome, first⟩ : ∃ outcome,
      (pullOnce [eventOfRepo "repo-a"] emptyReplica).1 = .ok outcome := ⟨_, rfl⟩
  obtain ⟨again, second⟩ : ∃ outcome, (pullOnce [eventOfRepo "repo-a"]
      (pullOnce [eventOfRepo "repo-a"] emptyReplica).2).1 = .ok outcome := ⟨_, rfl⟩
  exact ⟨again, second, ((repeated_pull_finds_nothing_iff named first second).mpr settles).1⟩

/-- The event of another repo is pulled again. -/
theorem repeated_pull_of_foreign_event :
    ∃ outcome, (pullOnce [eventOfRepo "repo-b"]
        (pullOnce [eventOfRepo "repo-b"] emptyReplica).2).1 = .ok outcome ∧
      outcome.pulledEventCount = 1 :=
  ⟨_, rfl, rfl⟩

end BrickTrace
