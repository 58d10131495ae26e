import BrickTrace.Server.Append

/-!
# The map from repos to orgs

The map in force is the cached one, else the one in the file, else the one the
log gives.  Loading the cache does not change it, recording bindings adds to it
and keeps what it has.
-/

set_option autoImplicit false

namespace BrickTrace

open OrderedMap

def logBindings (log : List LogLine) : List (String × String) :=
  (logEvents log).filterMap repoOrgBinding

theorem logBindings_append (first second : List LogLine) :
    logBindings (first ++ second) = logBindings first ++ logBindings second := by
  simp [logBindings, logEvents_append]

@[simp] theorem logBindings_map_event (events : List TraceEvent) :
    logBindings (events.map .event) = events.filterMap repoOrgBinding := by
  simp [logBindings]

theorem foldl_repoOrgBinding (events : List TraceEvent) (map : RepoOrgMap) :
    events.foldl (fun map event =>
        match repoOrgBinding event with
        | some (repo, org) => map.insertIfNew repo org
        | none => map) map =
      bindAll map (events.filterMap repoOrgBinding) := by
  induction events generalizing map with
  | nil => rfl
  | cons event rest ih =>
      rw [List.foldl_cons, ih]
      cases binding : repoOrgBinding event with
      | none => simp [binding]
      | some pair => simp [binding, bindAll_cons]

/-- What `record_repo_orgs` computes: the grown map, and whether it grew. -/
theorem foldl_bindRepoOrg (bindings : List (String × String)) (map : RepoOrgMap)
    (changed : Bool) :
    bindings.foldl bindRepoOrg (map, changed) =
      (bindAll map bindings, changed || bindings.any fun binding => decide (binding.1 ∉ map)) := by
  induction bindings generalizing map changed with
  | nil => simp [bindAll_nil]
  | cons binding rest ih =>
      rw [List.foldl_cons, bindAll_cons]
      by_cases held : binding.1 ∈ map
      · have unchanged : map.insertIfNew binding.1 binding.2 = map :=
          bindAll_eq_self map [binding] (by simpa using held)
        simp only [bindRepoOrg, if_pos held]
        rw [ih, unchanged]
        simp [held]
      · have added : map.insertIfNew binding.1 binding.2 = map.insert binding.1 binding.2 := by
          apply Std.ExtTreeMap.ext_getElem?
          intro key
          rw [getElem?_insertIfNew_eq, getElem?_insert_eq]
          by_cases same : binding.1 = key
          · subst same
            simp [held]
          · simp [same]
        simp only [bindRepoOrg, if_neg held]
        rw [ih, added]
        simp [held]

namespace ServerStore

theorem rebuildRepoOrgFromLog_eq (store : ServerStore) :
    store.rebuildRepoOrgFromLog = bindAll ∅ (logBindings store.eventLog) := by
  rw [logBindings, ← map_event_sequencedEvents 0, ← foldl_repoOrgBinding, List.foldl_map]
  rfl

/-- The org of a repo in a rebuilt map is the one of its first event that has an org. -/
theorem getElem?_rebuild (store : ServerStore) (repo : String) :
    store.rebuildRepoOrgFromLog[repo]? = (logBindings store.eventLog).lookup repo := by
  rw [rebuildRepoOrgFromLog_eq, getElem?_bindAll]
  simp

/-- The map that a process started on the files would load. -/
def persistedRepoOrg (store : ServerStore) : RepoOrgMap :=
  store.repoOrgFile.getD store.rebuildRepoOrgFromLog

/-- The map in force. -/
def currentRepoOrg (store : ServerStore) : RepoOrgMap :=
  store.repoOrg.getD store.persistedRepoOrg

/-- A loaded cache and the file hold the same map. -/
def CacheOnFile (store : ServerStore) : Prop :=
  ∀ map, store.repoOrg = some map → store.repoOrgFile = some map

theorem CacheOnFile.persisted_eq {store : ServerStore} (onFile : store.CacheOnFile) :
    store.persistedRepoOrg = store.currentRepoOrg := by
  unfold currentRepoOrg
  cases cached : store.repoOrg with
  | none => rfl
  | some map => simp [persistedRepoOrg, onFile map cached]

/-! ## Loading -/

theorem ensureRepoOrgLoaded_of_cold {store : ServerStore} (cold : store.repoOrg = none) :
    store.ensureRepoOrgLoaded =
      { store with
        repoOrg := some store.persistedRepoOrg
        repoOrgFile := some store.persistedRepoOrg } := by
  unfold ensureRepoOrgLoaded loadRepoOrgFile persistedRepoOrg
  cases file : store.repoOrgFile with
  | none => simp [cold, setRepoOrgIfEmpty, writeRepoOrgFile]
  | some map => simp [cold, setRepoOrgIfEmpty, file]

theorem ensureRepoOrgLoaded_of_warm {store : ServerStore} {map : RepoOrgMap}
    (warm : store.repoOrg = some map) : store.ensureRepoOrgLoaded = store := by
  simp [ensureRepoOrgLoaded, warm]

@[simp] theorem ensureRepoOrgLoaded_eventLog (store : ServerStore) :
    store.ensureRepoOrgLoaded.eventLog = store.eventLog := by
  cases cached : store.repoOrg with
  | none => rw [ensureRepoOrgLoaded_of_cold cached]
  | some map => rw [ensureRepoOrgLoaded_of_warm cached]

@[simp] theorem ensureRepoOrgLoaded_orgMembers (store : ServerStore) :
    store.ensureRepoOrgLoaded.orgMembers = store.orgMembers := by
  cases cached : store.repoOrg with
  | none => rw [ensureRepoOrgLoaded_of_cold cached]
  | some map => rw [ensureRepoOrgLoaded_of_warm cached]

@[simp] theorem ensureRepoOrgLoaded_orgMembersFile (store : ServerStore) :
    store.ensureRepoOrgLoaded.orgMembersFile = store.orgMembersFile := by
  cases cached : store.repoOrg with
  | none => rw [ensureRepoOrgLoaded_of_cold cached]
  | some map => rw [ensureRepoOrgLoaded_of_warm cached]

@[simp] theorem ensureRepoOrgLoaded_repoOrg (store : ServerStore) :
    store.ensureRepoOrgLoaded.repoOrg = some store.currentRepoOrg := by
  cases cached : store.repoOrg with
  | none => simp [ensureRepoOrgLoaded_of_cold cached, currentRepoOrg, cached]
  | some map => simp [ensureRepoOrgLoaded_of_warm cached, currentRepoOrg, cached]

@[simp] theorem ensureRepoOrgLoaded_current (store : ServerStore) :
    store.ensureRepoOrgLoaded.currentRepoOrg = store.currentRepoOrg := by
  rw [currentRepoOrg, ensureRepoOrgLoaded_repoOrg, Option.getD_some]

@[simp] theorem ensureRepoOrgLoaded_persisted (store : ServerStore) :
    store.ensureRepoOrgLoaded.persistedRepoOrg = store.persistedRepoOrg := by
  cases cached : store.repoOrg with
  | none =>
      rw [ensureRepoOrgLoaded_of_cold cached]
      rfl
  | some map => rw [ensureRepoOrgLoaded_of_warm cached]

theorem CacheOnFile.ensure {store : ServerStore} (onFile : store.CacheOnFile) :
    store.ensureRepoOrgLoaded.CacheOnFile := by
  cases cached : store.repoOrg with
  | none =>
      rw [ensureRepoOrgLoaded_of_cold cached]
      exact fun map same => same
  | some map => rwa [ensureRepoOrgLoaded_of_warm cached]

theorem resolveRepoOrg_eq (store : ServerStore) (repo : String) :
    store.resolveRepoOrg repo = (store.currentRepoOrg[repo]?, store.ensureRepoOrgLoaded) := by
  unfold resolveRepoOrg
  cases cached : store.repoOrg with
  | none => simp
  | some map => simp [currentRepoOrg, cached, ensureRepoOrgLoaded_of_warm cached]

/-! ## Recording -/

theorem recordLocked_eq (store : ServerStore) (bindings : List (String × String)) :
    store.recordLocked bindings =
      let map := bindAll (store.repoOrg.getD ∅) bindings
      if bindings.any fun binding => decide (binding.1 ∉ store.repoOrg.getD ∅) then
        { store with repoOrg := some map, repoOrgFile := some map }
      else { store with repoOrg := some map } := by
  simp only [recordLocked, foldl_bindRepoOrg, Bool.false_or]
  rfl

@[simp] theorem recordLocked_eventLog (store : ServerStore) (bindings : List (String × String)) :
    (store.recordLocked bindings).eventLog = store.eventLog := by
  rw [recordLocked_eq]
  dsimp only
  split <;> rfl

@[simp] theorem recordLocked_orgMembers (store : ServerStore)
    (bindings : List (String × String)) :
    (store.recordLocked bindings).orgMembers = store.orgMembers := by
  rw [recordLocked_eq]
  dsimp only
  split <;> rfl

@[simp] theorem recordLocked_orgMembersFile (store : ServerStore)
    (bindings : List (String × String)) :
    (store.recordLocked bindings).orgMembersFile = store.orgMembersFile := by
  rw [recordLocked_eq]
  dsimp only
  split <;> rfl

@[simp] theorem recordLocked_repoOrg (store : ServerStore) (bindings : List (String × String)) :
    (store.recordLocked bindings).repoOrg = some (bindAll (store.repoOrg.getD ∅) bindings) := by
  rw [recordLocked_eq]
  dsimp only
  split <;> rfl

/-- A map that did not grow is the map the file has already. -/
theorem CacheOnFile.recordLocked {store : ServerStore} (onFile : store.CacheOnFile)
    {map : RepoOrgMap} (warm : store.repoOrg = some map) (bindings : List (String × String)) :
    (store.recordLocked bindings).CacheOnFile := by
  rw [recordLocked_eq, warm]
  simp only [Option.getD_some]
  split
  · exact fun _ same => same
  · rename_i unchanged
    have held : ∀ binding ∈ bindings, binding.1 ∈ map := by simpa using unchanged
    rw [bindAll_eq_self map bindings held]
    intro _ same
    cases same
    exact onFile map warm

@[simp] theorem recordRepoOrgs_eventLog (store : ServerStore)
    (bindings : List (String × String)) :
    (store.recordRepoOrgs bindings).eventLog = store.eventLog := by
  simp [recordRepoOrgs]

@[simp] theorem recordRepoOrgs_current (store : ServerStore)
    (bindings : List (String × String)) :
    (store.recordRepoOrgs bindings).currentRepoOrg = bindAll store.currentRepoOrg bindings := by
  simp [recordRepoOrgs, currentRepoOrg]

theorem CacheOnFile.recordRepoOrgs {store : ServerStore} (onFile : store.CacheOnFile)
    (bindings : List (String × String)) : (store.recordRepoOrgs bindings).CacheOnFile :=
  onFile.ensure.recordLocked (ensureRepoOrgLoaded_repoOrg store) bindings

/-! ## Appending -/

def writeEvents (store : ServerStore) (stored : List TraceEvent) : ServerStore :=
  { store with eventLog := store.eventLog ++ stored.map LogLine.event }

/-- The events that a call stores. -/
def newEvents (store : ServerStore) (repoId : Option String) (events : List TraceEvent) :
    List TraceEvent :=
  if ∀ event ∈ events, FitsRepo repoId event then
    FirstSeen.fresh (·.eventId) (logIds store.eventLog) (events.map (fillRepo repoId))
  else []

theorem appendEventsForRepo_of_not_fits (store : ServerStore) {repoId : Option String}
    {events : List TraceEvent} (foreign : ¬ ∀ event ∈ events, FitsRepo repoId event) :
    ∃ eventId named route, repoId = some route ∧
      store.appendEventsForRepo repoId events =
        (.error (.repoMismatch eventId named route), store) := by
  obtain ⟨eventId, named, route, same, failed⟩ := normalizeRepoEvents_of_not_fits foreign
  exact ⟨eventId, named, route, same, by simp only [appendEventsForRepo, failed]⟩

/-- A call that is not rejected: the lines it writes, then the bindings it records. -/
theorem appendEventsForRepo_of_fits (store : ServerStore) {repoId : Option String}
    {events : List TraceEvent} (fits : ∀ event ∈ events, FitsRepo repoId event) :
    let stored := store.newEvents repoId events
    let written := store.writeEvents stored
    let bindings := stored.filterMap repoOrgBinding
    store.appendEventsForRepo repoId events =
      (.ok
        { acceptedEventIds := stored.map (·.eventId)
          duplicateEventIds :=
            (FirstSeen.repeated (·.eventId) (logIds store.eventLog) events).map (·.eventId) },
        if bindings.isEmpty then written else written.recordRepoOrgs bindings) := by
  have loop := appendLoop_eq (logIds store.eventLog) (events.map (fillRepo repoId))
    store.eventLog .start
  simp only [AppendProgress.start, List.nil_append] at loop
  obtain ⟨log, accepted, duplicate, bindings⟩ := loop
  have repeatedIds := FirstSeen.repeated_map (fun event : TraceEvent => event.eventId)
    (fillRepo_eventId repoId) (logIds store.eventLog) events
  rw [repeatedIds, map_eventId_fillRepo] at duplicate
  simp only [appendEventsForRepo, normalizeRepoEvents_of_fits fits, readEvents_ids,
    AppendProgress.response, AppendProgress.start, newEvents, writeEvents, if_pos fits, log,
    accepted, duplicate, bindings]

@[simp] theorem appendEventsForRepo_eventLog (store : ServerStore) (repoId : Option String)
    (events : List TraceEvent) :
    (store.appendEventsForRepo repoId events).2.eventLog =
      store.eventLog ++ (store.newEvents repoId events).map .event := by
  by_cases fits : ∀ event ∈ events, FitsRepo repoId event
  · rw [appendEventsForRepo_of_fits store fits]
    dsimp only
    split <;> simp [writeEvents]
  · obtain ⟨_, _, _, _, rejected⟩ := appendEventsForRepo_of_not_fits store fits
    simp [rejected, newEvents, fits]

/-- Writing lines changes the map in force only where it is still read off the log,
and there it changes it as recording the bindings of the lines does. -/
theorem bindAll_current_of_written (store : ServerStore) (stored : List TraceEvent) :
    bindAll (store.writeEvents stored).currentRepoOrg (stored.filterMap repoOrgBinding) =
      bindAll store.currentRepoOrg (stored.filterMap repoOrgBinding) := by
  unfold currentRepoOrg persistedRepoOrg writeEvents
  cases store.repoOrg with
  | some map => rfl
  | none =>
      cases store.repoOrgFile with
      | some map => rfl
      | none =>
          simp only [Option.getD_none, rebuildRepoOrgFromLog_eq, logBindings_append,
            logBindings_map_event, bindAll_append, bindAll_bindAll_self]

theorem current_of_written_unbound (store : ServerStore) {stored : List TraceEvent}
    (unbound : stored.filterMap repoOrgBinding = []) :
    (store.writeEvents stored).currentRepoOrg = store.currentRepoOrg := by
  have same := bindAll_current_of_written store stored
  rwa [unbound, bindAll_nil, bindAll_nil] at same

@[simp] theorem appendEventsForRepo_current (store : ServerStore) (repoId : Option String)
    (events : List TraceEvent) :
    (store.appendEventsForRepo repoId events).2.currentRepoOrg =
      bindAll store.currentRepoOrg ((store.newEvents repoId events).filterMap repoOrgBinding) := by
  by_cases fits : ∀ event ∈ events, FitsRepo repoId event
  · rw [appendEventsForRepo_of_fits store fits]
    dsimp only
    split
    · rename_i unbound
      have none := List.isEmpty_iff.mp unbound
      rw [current_of_written_unbound store none, none, bindAll_nil]
    · rw [recordRepoOrgs_current, bindAll_current_of_written]
  · obtain ⟨_, _, _, _, rejected⟩ := appendEventsForRepo_of_not_fits store fits
    simp [rejected, newEvents, fits, bindAll_nil]

theorem CacheOnFile.appendEventsForRepo {store : ServerStore} (onFile : store.CacheOnFile)
    (repoId : Option String) (events : List TraceEvent) :
    (store.appendEventsForRepo repoId events).2.CacheOnFile := by
  by_cases fits : ∀ event ∈ events, FitsRepo repoId event
  · rw [appendEventsForRepo_of_fits store fits]
    dsimp only
    have written : (store.writeEvents (store.newEvents repoId events)).CacheOnFile := onFile
    split
    · exact written
    · exact written.recordRepoOrgs _
  · obtain ⟨_, _, _, _, rejected⟩ := appendEventsForRepo_of_not_fits store fits
    rwa [rejected]

end ServerStore

end BrickTrace
