import BrickTrace.Lib.Runs
import BrickTrace.Server.MemberGate

/-!
# The map of the orgs against the log it is derived from

The map in force is grown in two ways: by the claim of a push, and by the events
that are stored.  The map rebuilt from the log knows the stored events only.
-/

set_option autoImplicit false

namespace BrickTrace

open OrderedMap

inductive ServerOp where
  | pushEvents (identity : Option AuthedIdentity) (events : List TraceEvent)
  | pushRepoEvents (repoId : String) (identity : Option AuthedIdentity) (events : List TraceEvent)
  | resolveRepoOrg (repoId : String)
  | addOrgMember (orgId userId : String)
  | removeOrgMember (orgId userId : String)
  | restart

/-- A server started on a log, without `repo_org.json`. -/
def firstStart (eventLog : List LogLine) (orgMembersFile : Option OrgMembersMap) : ServerStore :=
  ⟨eventLog, none, orgMembersFile, none, none⟩

/-- Where the log says which org a repo belongs to, the server says the same. -/
def AgreesWithLog (store : ServerStore) : Prop :=
  ∀ repo org, store.rebuildRepoOrgFromLog[repo]? = some org →
    (store.resolveRepoOrg repo).1 = some org

section Members
open ServerStore

theorem addOrgMember_keeps (store : ServerStore) (orgId userId : String) :
    (store.addOrgMember orgId userId).eventLog = store.eventLog ∧
      (store.addOrgMember orgId userId).repoOrg = store.repoOrg ∧
      (store.addOrgMember orgId userId).repoOrgFile = store.repoOrgFile := by
  unfold addOrgMember
  dsimp only
  split <;> simp [writeOrgMembersFile]

theorem removeOrgMember_keeps (store : ServerStore) (orgId userId : String) :
    (store.removeOrgMember orgId userId).2.eventLog = store.eventLog ∧
      (store.removeOrgMember orgId userId).2.repoOrg = store.repoOrg ∧
      (store.removeOrgMember orgId userId).2.repoOrgFile = store.repoOrgFile := by
  unfold removeOrgMember
  dsimp only
  split
  · rename_i members _
    cases decide (userId ∈ members) <;> simp [writeOrgMembersFile]
  · simp

end Members

section Steps
variable (debugText : String → String)

def serverStep (store : ServerStore) : ServerOp → ServerStore
  | .pushEvents identity events => (pushEvents debugText store identity events).2
  | .pushRepoEvents repoId identity events =>
      (pushRepoEvents debugText store repoId identity events).2
  | .resolveRepoOrg repoId => (store.resolveRepoOrg repoId).2
  | .addOrgMember orgId userId => store.addOrgMember orgId userId
  | .removeOrgMember orgId userId => (store.removeOrgMember orgId userId).2
  | .restart => store.restart

def actorAllowed (identity : Option AuthedIdentity) (events : List TraceEvent) : Bool :=
  (enforceActorBinding debugText identity events).isOk

/-- The binding that a step claims before it stores anything. -/
def claimedBindings (store : ServerStore) : ServerOp → List (String × String)
  | .pushRepoEvents repoId identity events =>
      match admission store identity repoId true events with
      | .claims orgId => [(repoId, orgId)]
      | _ => []
  | _ => []

/-- The events that a step stores. -/
def storedEvents (store : ServerStore) : ServerOp → List TraceEvent
  | .pushEvents identity events =>
      if actorAllowed debugText identity events then store.newEvents none events else []
  | .pushRepoEvents repoId identity events =>
      match admission store identity repoId true events with
      | .denied _ => []
      | _ =>
          if actorAllowed debugText identity events then store.newEvents (some repoId) events
          else []
  | _ => []

/-- What any step does to the log and to the map in force. -/
structure StepGrows (store : ServerStore) (op : ServerOp) : Prop where
  eventLog : (serverStep debugText store op).eventLog =
    store.eventLog ++ (storedEvents debugText store op).map .event
  current : (serverStep debugText store op).currentRepoOrg =
    bindAll (bindAll store.currentRepoOrg (claimedBindings store op))
      ((storedEvents debugText store op).filterMap repoOrgBinding)
  onFile : (serverStep debugText store op).CacheOnFile

theorem newEvents_congr {store other : ServerStore} (same : other.eventLog = store.eventLog)
    (repoId : Option String) (events : List TraceEvent) :
    other.newEvents repoId events = store.newEvents repoId events := by
  simp only [ServerStore.newEvents, same]

/-- The shared end of the push routes. -/
theorem appendChecked_grows (store : ServerStore) (repoId : Option String)
    (identity : Option AuthedIdentity) (events : List TraceEvent) :
    let after := (appendChecked debugText store repoId identity events).2
    let stored :=
      if actorAllowed debugText identity events then store.newEvents repoId events else []
    after.eventLog = store.eventLog ++ stored.map .event ∧
      after.currentRepoOrg = bindAll store.currentRepoOrg (stored.filterMap repoOrgBinding) ∧
      (store.CacheOnFile → after.CacheOnFile) := by
  unfold appendChecked actorAllowed
  cases enforceActorBinding debugText identity events with
  | error failure => simp [Except.isOk, Except.toBool, bindAll_nil]
  | ok _ =>
      refine ⟨?_, ?_, ?_⟩
      · simp [Except.isOk, Except.toBool]
      · simp [Except.isOk, Except.toBool]
      · exact fun onFile => onFile.appendEventsForRepo repoId events

theorem pushEvents_grows {store : ServerStore} (onFile : store.CacheOnFile)
    (identity : Option AuthedIdentity) (events : List TraceEvent) :
    StepGrows debugText store (.pushEvents identity events) := by
  obtain ⟨log, current, kept⟩ := appendChecked_grows debugText store none identity events
  exact ⟨log, current, kept onFile⟩

theorem pushRepoEvents_grows {store : ServerStore} (onFile : store.CacheOnFile) (repoId : String)
    (identity : Option AuthedIdentity) (events : List TraceEvent) :
    StepGrows debugText store (.pushRepoEvents repoId identity events) := by
  obtain ⟨ready, same, pushed⟩ := pushRepoEvents_eq debugText store repoId identity events
  cases decision : admission store identity repoId true events with
  | denied failure =>
      rw [decision] at pushed
      refine ⟨?_, ?_, ?_⟩ <;>
        simp only [serverStep, storedEvents, claimedBindings, decision, pushed]
      · simpa using same.eventLog
      · simpa [bindAll_nil] using same.current
      · exact same.onFile onFile
  | admitted =>
      rw [decision] at pushed
      obtain ⟨log, current, kept⟩ :=
        appendChecked_grows debugText ready (some repoId) identity events
      rw [newEvents_congr same.eventLog] at log current
      refine ⟨?_, ?_, ?_⟩ <;>
        simp only [serverStep, storedEvents, claimedBindings, decision, pushed]
      · rw [← same.eventLog]
        exact log
      · rw [← same.current]
        exact current
      · exact kept (same.onFile onFile)
  | claims orgId =>
      rw [decision] at pushed
      have claimedLog : (ready.claimRepoOrg repoId orgId).eventLog = store.eventLog := by
        rw [ServerStore.claimRepoOrg, ServerStore.recordRepoOrgs_eventLog, same.eventLog]
      have claimedMap : (ready.claimRepoOrg repoId orgId).currentRepoOrg =
          bindAll store.currentRepoOrg [(repoId, orgId)] := by
        rw [ServerStore.claimRepoOrg, ServerStore.recordRepoOrgs_current, same.current]
      obtain ⟨log, current, kept⟩ := appendChecked_grows debugText
        (ready.claimRepoOrg repoId orgId) (some repoId) identity events
      rw [newEvents_congr claimedLog] at log current
      refine ⟨?_, ?_, ?_⟩ <;>
        simp only [serverStep, storedEvents, claimedBindings, decision, pushed]
      · rw [← claimedLog]
        exact log
      · rw [← claimedMap]
        exact current
      · exact kept ((same.onFile onFile).recordRepoOrgs _)

/-- A step that stores no event and claims nothing keeps the log and the map in force. -/
theorem stepGrows_of_kept {store : ServerStore} {op : ServerOp}
    (stored : storedEvents debugText store op = []) (claimed : claimedBindings store op = [])
    (log : (serverStep debugText store op).eventLog = store.eventLog)
    (current : (serverStep debugText store op).currentRepoOrg = store.currentRepoOrg)
    (onFile : (serverStep debugText store op).CacheOnFile) : StepGrows debugText store op :=
  ⟨by simp [log, stored], by simp [current, stored, claimed, bindAll_nil], onFile⟩

/-- A step that touches neither the log nor what is known of the bindings. -/
theorem stepGrows_of_sameFiles {store : ServerStore} {op : ServerOp} (onFile : store.CacheOnFile)
    (stored : storedEvents debugText store op = []) (claimed : claimedBindings store op = [])
    (log : (serverStep debugText store op).eventLog = store.eventLog)
    (cache : (serverStep debugText store op).repoOrg = store.repoOrg)
    (file : (serverStep debugText store op).repoOrgFile = store.repoOrgFile) :
    StepGrows debugText store op := by
  apply stepGrows_of_kept debugText stored claimed log
  · simp only [ServerStore.currentRepoOrg, ServerStore.persistedRepoOrg,
      ServerStore.rebuildRepoOrgFromLog_eq, log, cache, file]
  · unfold ServerStore.CacheOnFile
    rw [cache, file]
    exact onFile

theorem step_grows {store : ServerStore} (onFile : store.CacheOnFile) (op : ServerOp) :
    StepGrows debugText store op := by
  cases op with
  | pushEvents identity events => exact pushEvents_grows debugText onFile identity events
  | pushRepoEvents repoId identity events =>
      exact pushRepoEvents_grows debugText onFile repoId identity events
  | resolveRepoOrg repoId =>
      have step : serverStep debugText store (.resolveRepoOrg repoId) =
          store.ensureRepoOrgLoaded := by
        simp only [serverStep, ServerStore.resolveRepoOrg_eq]
      exact stepGrows_of_kept debugText rfl rfl (by simp [step]) (by simp [step])
        (by rw [step]; exact onFile.ensure)
  | addOrgMember orgId userId =>
      obtain ⟨log, cache, file⟩ := addOrgMember_keeps store orgId userId
      exact stepGrows_of_sameFiles debugText onFile rfl rfl log cache file
  | removeOrgMember orgId userId =>
      obtain ⟨log, cache, file⟩ := removeOrgMember_keeps store orgId userId
      exact stepGrows_of_sameFiles debugText onFile rfl rfl log cache file
  | restart =>
      refine stepGrows_of_kept debugText rfl rfl rfl onFile.persisted_eq ?_
      intro map loaded
      cases loaded

/-! ## Exactly when a step keeps the agreement -/

/-- For a repo without an org in the log, the first org that the step stores is the
one the repo is bound to already, by the map in force or by the claim of the step. -/
def StoresBoundOrg (store : ServerStore) (op : ServerOp) : Prop :=
  ∀ repo org owner, store.rebuildRepoOrgFromLog[repo]? = none →
    ((storedEvents debugText store op).filterMap repoOrgBinding).lookup repo = some org →
    (bindAll store.currentRepoOrg (claimedBindings store op))[repo]? = some owner → owner = org

theorem agreesWithLog_iff {store : ServerStore} :
    AgreesWithLog store ↔ ∀ repo org, (logBindings store.eventLog).lookup repo = some org →
      store.currentRepoOrg[repo]? = some org := by
  simp only [AgreesWithLog, ServerStore.getElem?_rebuild, ServerStore.resolveRepoOrg_eq]

theorem step_agrees_iff {store : ServerStore} (onFile : store.CacheOnFile) (op : ServerOp)
    (agrees : AgreesWithLog store) :
    AgreesWithLog (serverStep debugText store op) ↔ StoresBoundOrg debugText store op := by
  have grows := step_grows debugText onFile op
  have known := agreesWithLog_iff.mp agrees
  rw [agreesWithLog_iff, grows.eventLog, grows.current, logBindings_append, logBindings_map_event]
  simp only [StoresBoundOrg, ServerStore.getElem?_rebuild]
  constructor
  · intro later repo org owner unknown stored bound
    have kept := later repo org (by rw [List.lookup_append, unknown, Option.none_or, stored])
    rw [getElem?_bindAll, bound, Option.some_or] at kept
    exact Option.some.inj kept
  · intro permitted repo org found
    rw [List.lookup_append] at found
    cases logged : (logBindings store.eventLog).lookup repo with
    | some first =>
        rw [logged, Option.some_or] at found
        have held := known repo first logged
        rw [found] at held
        exact bindAll_keeps _ _ _ _ (bindAll_keeps _ _ _ _ held)
    | none =>
        rw [logged, Option.none_or] at found
        rw [getElem?_bindAll, found]
        cases bound : (bindAll store.currentRepoOrg (claimedBindings store op))[repo]? with
        | none => rfl
        | some owner =>
            rw [permitted repo org owner logged found bound]
            rfl

/-- The server agrees with its log all along a run exactly when every step stores
the org that the repo is bound to. -/
theorem always_agrees_with_log_iff (eventLog : List LogLine)
    (orgMembersFile : Option OrgMembersMap) (ops : List ServerOp) :
    Runs.Always (serverStep debugText) AgreesWithLog (firstStart eventLog orgMembersFile) ops ↔
      Runs.Meets (serverStep debugText) (StoresBoundOrg debugText)
        (firstStart eventLog orgMembersFile) ops := by
  have keeps : ∀ store op, ServerStore.CacheOnFile store →
      (serverStep debugText store op).CacheOnFile :=
    fun _ op onFile => (step_grows debugText onFile op).onFile
  refine Runs.always_iff_meets (serverStep debugText) keeps
    (fun _ op onFile agrees => step_agrees_iff debugText onFile op agrees) ops ?_ ?_
  · intro map loaded
    cases loaded
  · intro repo org logged
    rw [ServerStore.resolveRepoOrg_eq]
    exact logged

end Steps

/-- A member of `org-2` pushes an event tagged `org-1` in front of one tagged `org-2`. -/
theorem push_of_two_orgs_disagrees :
    ¬ Runs.Always (serverStep id) AgreesWithLog (firstStart [] none)
      [.addOrgMember "org-2" "user-1",
        .pushRepoEvents "repo-a" (some (supabaseUser "user-1"))
          [pushedEvent 1 none (some ⟨"org-1"⟩), pushedEvent 2 none (some ⟨"org-2"⟩)]] := by
  intro always
  have agrees := Runs.always_last _ always "repo-a" "org-1" (by decide)
  revert agrees
  decide

end BrickTrace
