import BrickTrace.Lib.FirstSeen
import BrickTrace.Lib.Fallible
import BrickTrace.Server.Store

/-!
# What a call of `append_events_for_repo` does

A call is rejected exactly when some event names another repo than the route.
Otherwise the log grows by the events whose ids are neither stored nor repeated
in the request, with missing repo ids filled from the route.
-/

set_option autoImplicit false

namespace BrickTrace

open OrderedMap

/-! ## The events of a log -/

def logEvents (log : List LogLine) : List TraceEvent := log.filterMap LogLine.event?

def logIds (log : List LogLine) : List Uuid := (logEvents log).map (·.eventId)

@[simp] theorem logEvents_nil : logEvents [] = [] := rfl

@[simp] theorem logEvents_blank (rest : List LogLine) :
    logEvents (.blank :: rest) = logEvents rest := rfl

@[simp] theorem logEvents_event (event : TraceEvent) (rest : List LogLine) :
    logEvents (.event event :: rest) = event :: logEvents rest := rfl

theorem logEvents_append (first second : List LogLine) :
    logEvents (first ++ second) = logEvents first ++ logEvents second :=
  List.filterMap_append

@[simp] theorem logEvents_map_event (events : List TraceEvent) :
    logEvents (events.map .event) = events := by
  induction events with
  | nil => rfl
  | cons event rest ih => simpa using ih

theorem map_event_sequencedEvents (lineIndex : Nat) (log : List LogLine) :
    (sequencedEvents lineIndex log).map (·.event) = logEvents log := by
  induction log generalizing lineIndex with
  | nil => rfl
  | cons line rest ih =>
      cases line with
      | blank => simpa [sequencedEvents] using ih (lineIndex + 1)
      | event event => simpa [sequencedEvents] using ih (lineIndex + 1)

theorem readEvents_eq (store : ServerStore) : store.readEvents = logEvents store.eventLog :=
  map_event_sequencedEvents 0 store.eventLog

theorem readEvents_ids (store : ServerStore) :
    store.readEvents.map (·.eventId) = logIds store.eventLog := by
  rw [readEvents_eq, logIds]

theorem readEventsForRepo_eq (store : ServerStore) (repoId : Option String) :
    store.readEventsForRepo repoId =
      (logEvents store.eventLog).filter fun event => repoMatches event.repoId repoId := by
  rw [← map_event_sequencedEvents 0, List.filter_map]
  rfl

/-- An event as a client pushes it, about nothing in particular. -/
def pushedEvent (eventId : Fin (16 ^ 32)) (repoId : Option String) (orgId : Option OrgId) :
    TraceEvent where
  eventId := ⟨eventId⟩
  eventType := .sourceSessionObserved
  schemaVersion := 1
  payloadSchemaVersion := 1
  occurredAt := ⟨0⟩
  recordedAt := ⟨0⟩
  actor := ⟨.agent, "agent-1", none⟩
  repoId := repoId
  orgId := orgId
  projectId := none
  missionId := none
  sessionId := none
  artifactId := none
  repoContextId := none
  confidence := .explicit
  payload := .null

/-! ## Repo boundaries -/

/-- Whether an event may be pushed under a route. -/
def FitsRepo (repoId : Option String) (event : TraceEvent) : Prop :=
  ∀ route named, repoId = some route → event.repoId = some named → named = route

instance (repoId : Option String) (event : TraceEvent) : Decidable (FitsRepo repoId event) :=
  match routeId : repoId, eventId : event.repoId with
  | some route, some named =>
      decidable_of_iff (named = route) (by simp [FitsRepo, eventId])
  | none, _ => isTrue (by simp [FitsRepo])
  | some _, none => isTrue (by simp [FitsRepo, eventId])

/-- The event with its missing repo id filled from the route. -/
def fillRepo (repoId : Option String) (event : TraceEvent) : TraceEvent :=
  { event with repoId := event.repoId.or repoId }

@[simp] theorem fillRepo_eventId (repoId : Option String) (event : TraceEvent) :
    (fillRepo repoId event).eventId = event.eventId := rfl

@[simp] theorem fillRepo_orgId (repoId : Option String) (event : TraceEvent) :
    (fillRepo repoId event).orgId = event.orgId := rfl

@[simp] theorem fillRepo_none (event : TraceEvent) : fillRepo none event = event := by
  simp [fillRepo]

theorem fillRepo_of_named (repoId : Option String) {event : TraceEvent} {repo : String}
    (named : event.repoId = some repo) : fillRepo repoId event = event := by
  unfold fillRepo
  rw [named, Option.some_or, ← named]

@[simp] theorem map_eventId_fillRepo (repoId : Option String) (events : List TraceEvent) :
    (events.map (fillRepo repoId)).map (·.eventId) = events.map (·.eventId) := by
  simp [Function.comp_def]

/-- A filled event of a repo route belongs to the repo of the route. -/
theorem fillRepo_repoId {route : String} {event : TraceEvent}
    (fits : FitsRepo (some route) event) : (fillRepo (some route) event).repoId = some route := by
  cases named : event.repoId with
  | none => simp [fillRepo, named]
  | some repo => simp [fillRepo, named, fits route repo rfl named]

theorem normalizeRepoEvent_of_fits {route : String} {event : TraceEvent}
    (fits : FitsRepo (some route) event) :
    normalizeRepoEvent route event = .ok (fillRepo (some route) event) := by
  unfold normalizeRepoEvent
  cases named : event.repoId with
  | none => simp [fillRepo, named]
  | some repo =>
      rw [fillRepo_of_named _ named]
      simp [fits route repo rfl named]

theorem normalizeRepoEvent_of_not_fits {route : String} {event : TraceEvent}
    (foreign : ¬ FitsRepo (some route) event) :
    ∃ named, normalizeRepoEvent route event = .error (.repoMismatch event.eventId named route) := by
  unfold normalizeRepoEvent
  cases named : event.repoId with
  | none => exact absurd (by simp [FitsRepo, named]) foreign
  | some repo =>
      have differs : repo ≠ route := by
        rintro rfl
        exact foreign (by simp [FitsRepo, named])
      exact ⟨repo, by simp [differs]⟩

theorem normalizeRepoEvents_of_fits {repoId : Option String} {events : List TraceEvent}
    (fits : ∀ event ∈ events, FitsRepo repoId event) :
    normalizeRepoEvents repoId events = .ok (events.map (fillRepo repoId)) := by
  cases repoId with
  | none => simp [normalizeRepoEvents, List.map_id'' fillRepo_none]
  | some route =>
      exact Fallible.mapM_eq_ok_map fun event member => normalizeRepoEvent_of_fits (fits event member)

theorem normalizeRepoEvents_of_not_fits {repoId : Option String} {events : List TraceEvent}
    (foreign : ¬ ∀ event ∈ events, FitsRepo repoId event) :
    ∃ eventId named route, repoId = some route ∧
      normalizeRepoEvents repoId events = .error (.repoMismatch eventId named route) := by
  cases repoId with
  | none => exact absurd (by simp [FitsRepo]) foreign
  | some route =>
      simp only [normalizeRepoEvents]
      induction events with
      | nil => exact absurd (by simp) foreign
      | cons event rest ih =>
          rw [List.mapM_cons]
          by_cases fits : FitsRepo (some route) event
          · rw [normalizeRepoEvent_of_fits fits]
            have later : ¬ ∀ other ∈ rest, FitsRepo (some route) other := by
              intro all
              exact foreign (List.forall_mem_cons.mpr ⟨fits, all⟩)
            obtain ⟨eventId, named, _, same, failed⟩ := ih later
            cases same
            exact ⟨eventId, named, route, rfl, by rw [failed]; rfl⟩
          · obtain ⟨named, failed⟩ := normalizeRepoEvent_of_not_fits fits
            exact ⟨event.eventId, named, route, rfl, by rw [failed]; rfl⟩

/-! ## The loop -/

/-- What is left after the loop has gone through its events: it has kept the
first occurrences of the ids that were not stored. -/
theorem appendLoop_eq (existing : List Uuid) (events : List TraceEvent) (log : List LogLine)
    (progress : AppendProgress) :
    let known := progress.seenInRequest ++ existing
    let fresh := FirstSeen.fresh (·.eventId) known events
    let repeated := FirstSeen.repeated (·.eventId) known events
    (appendLoop existing events log progress).1 = log ++ fresh.map .event ∧
      (appendLoop existing events log progress).2.acceptedEventIds =
        progress.acceptedEventIds ++ fresh.map (·.eventId) ∧
      (appendLoop existing events log progress).2.duplicateEventIds =
        progress.duplicateEventIds ++ repeated.map (·.eventId) ∧
      (appendLoop existing events log progress).2.acceptedRepoOrgs =
        progress.acceptedRepoOrgs ++ fresh.filterMap repoOrgBinding := by
  induction events generalizing log progress with
  | nil => simp [appendLoop, FirstSeen.fresh, FirstSeen.repeated]
  | cons event rest ih =>
      by_cases known : event.eventId ∈ progress.seenInRequest ++ existing
      · have skipped : event.eventId ∈ existing ∨ event.eventId ∈ progress.seenInRequest :=
          (List.mem_append.mp known).symm
        have later := ih log
          { progress with duplicateEventIds := progress.duplicateEventIds ++ [event.eventId] }
        simp only [appendLoop, appendTurn, if_pos skipped, FirstSeen.fresh, FirstSeen.repeated,
          if_pos known, Option.toList_none, List.append_nil, List.map_cons] at later ⊢
        simpa [List.append_assoc] using later
      · have written : ¬ (event.eventId ∈ existing ∨ event.eventId ∈ progress.seenInRequest) :=
          fun stored => known (List.mem_append.mpr stored.symm)
        have later := ih (log ++ [.event event])
          { progress with
            seenInRequest := event.eventId :: progress.seenInRequest
            acceptedRepoOrgs := progress.acceptedRepoOrgs ++ (repoOrgBinding event).toList
            acceptedEventIds := progress.acceptedEventIds ++ [event.eventId] }
        simp only [appendLoop, appendTurn, if_neg written, FirstSeen.fresh, FirstSeen.repeated,
          if_neg known, Option.toList_some, List.map_cons, List.cons_append] at later ⊢
        refine ⟨?_, ?_, later.2.2.1, ?_⟩
        · simpa [List.append_assoc] using later.1
        · simpa [List.append_assoc] using later.2.1
        · rw [later.2.2.2, List.append_assoc]
          cases binding : repoOrgBinding event with
          | none => simp [binding]
          | some pair => simp [binding]

end BrickTrace
