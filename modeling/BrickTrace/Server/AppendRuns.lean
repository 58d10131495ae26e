import BrickTrace.Lib.Runs
import BrickTrace.Server.RepoOrg

/-!
# Runs of append calls

What holds of one call wherever it stands in a run of calls with arbitrary
batches: rejected before anything is written, or split into accepted and
duplicate events, with every id stored once.
-/

set_option autoImplicit false

namespace BrickTrace

structure AppendCall where
  repoId : Option String
  events : List TraceEvent

namespace ServerStore

def appendCall (store : ServerStore) (call : AppendCall) : ServerStore :=
  (store.appendEventsForRepo call.repoId call.events).2

/-- One call keeps the ids of the log distinct. -/
theorem nodup_logIds_append {store : ServerStore} (distinct : (logIds store.eventLog).Nodup)
    (repoId : Option String) (events : List TraceEvent) :
    (logIds (store.appendEventsForRepo repoId events).2.eventLog).Nodup := by
  rw [appendEventsForRepo_eventLog, logIds, logEvents_append, logEvents_map_event]
  unfold newEvents
  split
  · exact FirstSeen.nodup_append_fresh (fun event : TraceEvent => event.eventId) _ _ distinct
  · simpa [logIds] using distinct

theorem nodup_logIds_run {start : ServerStore} (distinct : (logIds start.eventLog).Nodup)
    (calls : List AppendCall) :
    (logIds (Runs.run appendCall start calls).eventLog).Nodup := by
  have step : ∀ (store : ServerStore) (call : AppendCall), (logIds store.eventLog).Nodup →
      (logIds (appendCall store call).eventLog).Nodup :=
    fun _ call kept => nodup_logIds_append kept call.repoId call.events
  exact Runs.run_of_step appendCall step calls distinct

/-- After a call that is not rejected every id of the request is stored. -/
theorem mem_logIds_append (store : ServerStore) {repoId : Option String}
    {events : List TraceEvent} (fits : ∀ event ∈ events, FitsRepo repoId event)
    (event : TraceEvent) (member : event ∈ events) :
    event.eventId ∈ logIds (store.appendEventsForRepo repoId events).2.eventLog := by
  rw [appendEventsForRepo_eventLog, logIds, logEvents_append, logEvents_map_event,
    List.map_append, List.mem_append, newEvents, if_pos fits]
  have filled : fillRepo repoId event ∈ events.map (fillRepo repoId) :=
    List.mem_map_of_mem member
  rw [← fillRepo_eventId repoId event]
  exact FirstSeen.key_known_or_fresh (fun event : TraceEvent => event.eventId) _ filled

/-- The stored events are the fresh events of the request, filled from the route. -/
theorem newEvents_of_fits (store : ServerStore) {repoId : Option String}
    {events : List TraceEvent} (fits : ∀ event ∈ events, FitsRepo repoId event) :
    store.newEvents repoId events =
      (FirstSeen.fresh (·.eventId) (logIds store.eventLog) events).map (fillRepo repoId) := by
  rw [newEvents, if_pos fits]
  exact FirstSeen.fresh_map (fun event : TraceEvent => event.eventId)
    (fillRepo_eventId repoId) _ _

theorem append_isError_iff (store : ServerStore) (repoId : Option String)
    (events : List TraceEvent) :
    (∃ failure, (store.appendEventsForRepo repoId events).1 = .error failure) ↔
      ¬ ∀ event ∈ events, FitsRepo repoId event := by
  constructor
  · rintro ⟨failure, failed⟩ fits
    rw [appendEventsForRepo_of_fits store fits] at failed
    cases failed
  · intro foreign
    obtain ⟨eventId, named, route, _, rejected⟩ := appendEventsForRepo_of_not_fits store foreign
    exact ⟨.repoMismatch eventId named route, by rw [rejected]⟩

/-- Repeating a call whose events are all stored accepts none of them. -/
theorem append_again (store : ServerStore) {repoId : Option String} {events : List TraceEvent}
    (fits : ∀ event ∈ events, FitsRepo repoId event)
    (stored : ∀ event ∈ events, event.eventId ∈ logIds store.eventLog) :
    store.appendEventsForRepo repoId events = (.ok ⟨[], events.map (·.eventId)⟩, store) := by
  have nothing : store.newEvents repoId events = [] := by
    rw [newEvents_of_fits store fits,
      FirstSeen.fresh_eq_nil (fun event : TraceEvent => event.eventId) stored, List.map_nil]
  rw [appendEventsForRepo_of_fits store fits, nothing,
    FirstSeen.repeated_eq_self (fun event : TraceEvent => event.eventId) stored]
  simp [writeEvents]

/-- At every point of every run of calls from a log with distinct ids, and so from
an empty one. -/
theorem append_run_accepts_each_id_once (start : ServerStore)
    (distinct : (logIds start.eventLog).Nodup) (earlier : List AppendCall) (call : AppendCall) :
    let store := Runs.run appendCall start earlier
    let outcome := store.appendEventsForRepo call.repoId call.events
    ((∃ failure, outcome.1 = .error failure) ↔
        ∃ event ∈ call.events, ∃ route named,
          call.repoId = some route ∧ event.repoId = some named ∧ named ≠ route) ∧
      (∀ failure, outcome.1 = .error failure → outcome.2 = store) ∧
      (logIds outcome.2.eventLog).Nodup ∧
      ∀ response, outcome.1 = .ok response →
        ∃ accepted duplicate : List TraceEvent,
          accepted.Sublist call.events ∧ duplicate.Sublist call.events ∧
          (accepted ++ duplicate).Perm call.events ∧
          response.acceptedEventIds = accepted.map (·.eventId) ∧
          response.duplicateEventIds = duplicate.map (·.eventId) ∧
          outcome.2.eventLog =
            store.eventLog ++ accepted.map (fun event => .event (fillRepo call.repoId event)) ∧
          (∀ event ∈ call.events, event.eventId ∈ logIds outcome.2.eventLog) ∧
          outcome.2.appendEventsForRepo call.repoId call.events =
            (.ok ⟨[], call.events.map (·.eventId)⟩, outcome.2) := by
  intro store outcome
  have kept : (logIds store.eventLog).Nodup := nodup_logIds_run distinct earlier
  refine ⟨?_, ?_, nodup_logIds_append kept _ _, ?_⟩
  · rw [append_isError_iff]
    simp only [FitsRepo, not_forall, exists_prop]
  · intro failure failed
    have foreign := (append_isError_iff store _ _).mp ⟨failure, failed⟩
    obtain ⟨_, _, _, _, rejected⟩ := appendEventsForRepo_of_not_fits store foreign
    exact congrArg Prod.snd rejected
  · intro response accepted
    have fits : ∀ event ∈ call.events, FitsRepo call.repoId event := by
      by_contra foreign
      obtain ⟨failure, failed⟩ := (append_isError_iff store _ _).mpr foreign
      rw [failed] at accepted
      cases accepted
    have stored := mem_logIds_append store fits
    have ids := congrArg Prod.fst (appendEventsForRepo_of_fits store fits)
    cases accepted.symm.trans ids
    refine ⟨FirstSeen.fresh (·.eventId) (logIds store.eventLog) call.events,
      FirstSeen.repeated (·.eventId) (logIds store.eventLog) call.events,
      FirstSeen.fresh_sublist _ _ _, FirstSeen.repeated_sublist _ _ _,
      FirstSeen.fresh_repeated_perm _ _ _, ?_, rfl, ?_, stored, append_again _ fits stored⟩
    · rw [newEvents_of_fits store fits, map_eventId_fillRepo]
    · rw [appendEventsForRepo_eventLog, newEvents_of_fits store fits, List.map_map]
      rfl

/-- A batch that repeats an id, pushed twice to a new store. -/
theorem append_run_of_retried_batch :
    let call : AppendCall :=
      ⟨some "repo-a", [pushedEvent 1 none none, pushedEvent 2 (some "repo-a") none,
        pushedEvent 1 none none]⟩
    (logIds (Runs.run appendCall new [call, call]).eventLog).Nodup :=
  (append_run_accepts_each_id_once new List.nodup_nil [_] _).2.2.1

end ServerStore

end BrickTrace
