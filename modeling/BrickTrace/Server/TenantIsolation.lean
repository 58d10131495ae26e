import BrickTrace.Server.AppendRuns
import BrickTrace.Server.MemberGate
import BrickTrace.Server.Pagination
import BrickTrace.Server.RepoOrgAgreement

/-!
# What a repo learns of the other repos

Reads are filtered by repo, but an event id is stored once in the whole log.  A push to a
repo is therefore answered alike on two servers that agree on the repo, and everything it
answers is listed under the repo, exactly as long as no pushed id is stored outside the
repo only.
-/

set_option autoImplicit false

namespace BrickTrace

/-- Two servers hold the same about a repo: its events, its org, and who belongs to an org. -/
structure AgreeOn (repoId : String) (first second : ServerStore) : Prop where
  events : matchingEvents (some repoId) first.eventLog = matchingEvents (some repoId) second.eventLog
  binding : first.currentRepoOrg[repoId]? = second.currentRepoOrg[repoId]?
  members : first.memberOf = second.memberOf

/-- Following the cursors from the start lists these events of a repo, for any page size. -/
def ListsAs (repoId : String) (store : ServerStore) (events : List TraceEvent) : Prop :=
  ∀ (countable : store.eventLog.length < 2 ^ 64) (limit : Option Nat) (requests : Nat),
    events.length < requests →
      followPages (fun _ => ⟨store, countable⟩) (some repoId) limit requests 0 none = (events, true)

theorem listsAs_matchingEvents (repoId : String) (store : ServerStore) :
    ListsAs repoId store (matchingEvents (some repoId) store.eventLog) :=
  fun countable limit _ enough => followPages_of_still_log ⟨store, countable⟩ (some repoId) limit enough

theorem ListsAs.eq_matchingEvents {repoId : String} {store : ServerStore} {events : List TraceEvent}
    (lists : ListsAs repoId store events) (countable : store.eventLog.length < 2 ^ 64) :
    events = matchingEvents (some repoId) store.eventLog := by
  let requests := events.length + (matchingEvents (some repoId) store.eventLog).length + 1
  have one := lists countable none requests (by omega)
  have other := listsAs_matchingEvents repoId store countable none requests (by omega)
  exact (Prod.mk.inj (one.symm.trans other)).1

theorem lookup_repoOrgBinding (repoId : String) (events : List TraceEvent) :
    (events.filterMap repoOrgBinding).lookup repoId =
      ((events.filter fun event => repoMatches event.repoId (some repoId)).filterMap
        repoOrgBinding).lookup repoId := by
  induction events with
  | nil => rfl
  | cons event rest ih =>
      by_cases own : event.repoId = some repoId
      · rw [List.filter_cons_of_pos (by simp [repoMatches, own])]
        cases binding : repoOrgBinding event with
        | none => simp [binding, ih]
        | some pair =>
            obtain ⟨repo, org⟩ := pair
            simp only [List.filterMap_cons, binding, List.lookup_cons, ih]
      · rw [List.filter_cons_of_neg (by simp [repoMatches, own]), ← ih]
        cases binding : repoOrgBinding event with
        | none => simp [binding]
        | some pair =>
            obtain ⟨repo, org⟩ := pair
            have differs : (repoId == repo) = false := by
              apply beq_eq_false_iff_ne.mpr
              rintro rfl
              unfold repoOrgBinding at binding
              split at binding
              · rename_i named owner isRepo isOrg
                cases binding
                exact own isRepo
              · cases binding
            simp only [List.filterMap_cons, binding, List.lookup_cons, differs]

/-- Two servers started on logs that agree on a repo agree on it. -/
theorem agreeOn_of_started {repoId : String} {first second : List LogLine}
    (same : matchingEvents (some repoId) first = matchingEvents (some repoId) second)
    (orgMembersFile : Option OrgMembersMap) :
    AgreeOn repoId (firstStart first orgMembersFile) (firstStart second orgMembersFile) := by
  refine ⟨same, ?_, rfl⟩
  have bound : ∀ log : List LogLine, (firstStart log orgMembersFile).currentRepoOrg[repoId]? =
      ((matchingEvents (some repoId) log).filterMap repoOrgBinding).lookup repoId := by
    intro log
    have rebuilt := ServerStore.getElem?_rebuild (firstStart log orgMembersFile) repoId
    exact rebuilt.trans (lookup_repoOrgBinding repoId (logEvents log))
  rw [bound, bound, same]

/-! ## What a push answers -/

section Push
variable (debugText : String → String)

/-- Why an admitted batch is not appended, if it is not. -/
def appendRefusal (repoId : String) (identity : Option AuthedIdentity)
    (events : List TraceEvent) : Option Failure :=
  match enforceActorBinding debugText identity events with
  | .error failure => some failure
  | .ok () =>
      match normalizeRepoEvents (some repoId) events with
      | .error failure => some (routeError (failure.message debugText))
      | .ok _ => none

/-- Why a push to a repo is not carried out, if it is not. -/
def pushRefusal (store : ServerStore) (repoId : String) (identity : Option AuthedIdentity)
    (events : List TraceEvent) : Option Failure :=
  match admission store identity repoId true events with
  | .denied failure => some failure
  | _ => appendRefusal debugText repoId identity events

variable {debugText} {repoId : String} {identity : Option AuthedIdentity} {events : List TraceEvent}
  {failure : Failure}

theorem pushRefusal_of_agree {first second : ServerStore} (agree : AgreeOn repoId first second) :
    pushRefusal debugText first repoId identity events =
      pushRefusal debugText second repoId identity events := by
  unfold pushRefusal admission
  rw [agree.binding, agree.members]

theorem appendChecked_of_refused
    (refused : appendRefusal debugText repoId identity events = some failure) (store : ServerStore) :
    appendChecked debugText store (some repoId) identity events = (.error failure, store) := by
  unfold appendRefusal at refused
  unfold appendChecked
  cases bound : enforceActorBinding debugText identity events with
  | error cause =>
      rw [bound] at refused
      cases refused
      rfl
  | ok _ =>
      rw [bound] at refused
      cases normalized : normalizeRepoEvents (some repoId) events with
      | error cause =>
          rw [normalized] at refused
          cases refused
          simp only [ServerStore.appendEventsForRepo, normalized]
          rfl
      | ok filled =>
          rw [normalized] at refused
          cases refused

/-- What a push that is carried out reports. -/
def pushResponse (store : ServerStore) (repoId : String) (events : List TraceEvent) :
    PushEventsResponse where
  acceptedEventIds := (store.newEvents (some repoId) events).map (·.eventId)
  duplicateEventIds :=
    (FirstSeen.repeated (·.eventId) (logIds store.eventLog) events).map (·.eventId)

theorem fits_of_not_refused (passes : appendRefusal debugText repoId identity events = none) :
    ∀ event ∈ events, FitsRepo (some repoId) event := by
  by_contra foreign
  obtain ⟨eventId, named, route, _, failed⟩ := normalizeRepoEvents_of_not_fits foreign
  unfold appendRefusal at passes
  rw [failed] at passes
  cases bound : enforceActorBinding debugText identity events with
  | error cause =>
      rw [bound] at passes
      cases passes
  | ok _ =>
      rw [bound] at passes
      cases passes

theorem appendChecked_of_passes (passes : appendRefusal debugText repoId identity events = none)
    (store : ServerStore) :
    ∃ after, appendChecked debugText store (some repoId) identity events =
        (.ok (pushResponse store repoId events), after) ∧
      after.eventLog = store.eventLog ++ (store.newEvents (some repoId) events).map .event := by
  have fits := fits_of_not_refused passes
  have appended := ServerStore.appendEventsForRepo_of_fits store fits
  have log := ServerStore.appendEventsForRepo_eventLog store (some repoId) events
  unfold appendRefusal at passes
  unfold appendChecked
  cases bound : enforceActorBinding debugText identity events with
  | error cause =>
      rw [bound] at passes
      cases passes
  | ok _ =>
      dsimp only at appended ⊢
      refine ⟨_, ?_, log⟩
      rw [appended]
      rfl

/-- An admitted push appends to a store with the same log. -/
theorem pushRepoEvents_of_admitted (debugText : String → String) {store : ServerStore}
    (admitted : ∀ cause, admission store identity repoId true events ≠ .denied cause) :
    ∃ ready : ServerStore, ready.eventLog = store.eventLog ∧
      pushRepoEvents debugText store repoId identity events =
        appendChecked debugText ready (some repoId) identity events := by
  obtain ⟨ready, same, pushed⟩ := pushRepoEvents_eq debugText store repoId identity events
  cases decision : admission store identity repoId true events with
  | denied cause => exact absurd decision (admitted cause)
  | admitted =>
      rw [decision] at pushed
      exact ⟨ready, same.eventLog, pushed⟩
  | claims orgId =>
      rw [decision] at pushed
      refine ⟨ready.claimRepoOrg repoId orgId, ?_, pushed⟩
      rw [ServerStore.claimRepoOrg, ServerStore.recordRepoOrgs_eventLog, same.eventLog]

/-- A push that is refused leaves the log as it is. -/
theorem pushRepoEvents_of_refused {store : ServerStore}
    (refused : pushRefusal debugText store repoId identity events = some failure) :
    ∃ after, pushRepoEvents debugText store repoId identity events = (.error failure, after) ∧
      after.eventLog = store.eventLog := by
  unfold pushRefusal at refused
  split at refused
  · rename_i cause decision
    cases refused
    obtain ⟨ready, same, pushed⟩ := pushRepoEvents_eq debugText store repoId identity events
    rw [decision] at pushed
    exact ⟨ready, pushed, same.eventLog⟩
  · rename_i admitted
    obtain ⟨ready, same, pushed⟩ := pushRepoEvents_of_admitted debugText admitted
    exact ⟨ready, pushed.trans (appendChecked_of_refused refused ready), same⟩

theorem fits_of_passes {store : ServerStore}
    (passes : pushRefusal debugText store repoId identity events = none) :
    ∀ event ∈ events, FitsRepo (some repoId) event := by
  unfold pushRefusal at passes
  split at passes
  · cases passes
  · exact fits_of_not_refused passes

theorem pushRepoEvents_of_passes {store : ServerStore}
    (passes : pushRefusal debugText store repoId identity events = none) :
    ∃ after, pushRepoEvents debugText store repoId identity events =
        (.ok (pushResponse store repoId events), after) ∧
      after.eventLog = store.eventLog ++ (store.newEvents (some repoId) events).map .event := by
  unfold pushRefusal at passes
  split at passes
  · cases passes
  · rename_i admitted
    obtain ⟨ready, same, pushed⟩ := pushRepoEvents_of_admitted debugText admitted
    obtain ⟨after, answered, log⟩ := appendChecked_of_passes passes ready
    refine ⟨after, ?_, ?_⟩
    · rw [pushed, answered, pushResponse, pushResponse, newEvents_congr same, same]
    · rw [log, newEvents_congr same, same]

end Push

/-! ## What a push and the listing after it show -/

/-- The new events of a push to a repo all belong to the repo. -/
theorem matchingEvents_of_pushed {repoId : String} {store after : ServerStore}
    {events : List TraceEvent} (fits : ∀ event ∈ events, FitsRepo (some repoId) event)
    (log : after.eventLog = store.eventLog ++ (store.newEvents (some repoId) events).map .event) :
    matchingEvents (some repoId) after.eventLog =
      matchingEvents (some repoId) store.eventLog ++ store.newEvents (some repoId) events := by
  have own : ∀ event ∈ store.newEvents (some repoId) events,
      repoMatches event.repoId (some repoId) = true := by
    rw [ServerStore.newEvents_of_fits store fits]
    intro event member
    obtain ⟨pushed, isFresh, rfl⟩ := List.mem_map.mp member
    have isPushed := (FirstSeen.fresh_sublist (fun event : TraceEvent => event.eventId) _ _).subset isFresh
    rw [fillRepo_repoId (fits pushed isPushed)]
    simp [repoMatches]
  unfold matchingEvents
  rw [log, logEvents_append, logEvents_map_event, List.filter_append, List.filter_eq_self.mpr own]

/-- The ids of the events that are stored under a repo. -/
def repoIds (repoId : String) (log : List LogLine) : List Uuid :=
  (matchingEvents (some repoId) log).map (·.eventId)

theorem logIds_of_repoIds {repoId : String} {log : List LogLine} {id : Uuid}
    (member : id ∈ repoIds repoId log) : id ∈ logIds log := by
  obtain ⟨event, matching, rfl⟩ := List.mem_map.mp member
  exact List.mem_map_of_mem (List.mem_filter.mp matching).1

/-- The ids of a push, known and new. -/
theorem mem_pushResponse_iff {store : ServerStore} {repoId : String} {events : List TraceEvent}
    (fits : ∀ event ∈ events, FitsRepo (some repoId) event) {id : Uuid} :
    id ∈ (pushResponse store repoId events).acceptedEventIds ++
        (pushResponse store repoId events).duplicateEventIds ↔ id ∈ events.map (·.eventId) := by
  unfold pushResponse
  rw [ServerStore.newEvents_of_fits store fits, map_eventId_fillRepo, ← List.map_append]
  exact ((FirstSeen.fresh_repeated_perm (fun event : TraceEvent => event.eventId) _ events).map _).mem_iff

/-- Which pushed ids are listed afterwards. -/
theorem mem_repoIds_of_pushed {repoId : String} {store after : ServerStore}
    {events : List TraceEvent} (fits : ∀ event ∈ events, FitsRepo (some repoId) event)
    (log : after.eventLog = store.eventLog ++ (store.newEvents (some repoId) events).map .event)
    {id : Uuid} (pushed : id ∈ events.map (·.eventId)) :
    id ∈ repoIds repoId after.eventLog ↔
      (id ∈ logIds store.eventLog → id ∈ repoIds repoId store.eventLog) := by
  have split : id ∈ repoIds repoId after.eventLog ↔
      id ∈ repoIds repoId store.eventLog ∨ id ∈ (store.newEvents (some repoId) events).map (·.eventId) := by
    unfold repoIds
    rw [matchingEvents_of_pushed fits log, List.map_append, List.mem_append]
  have fresh : id ∈ (store.newEvents (some repoId) events).map (·.eventId) ↔ id ∉ logIds store.eventLog := by
    rw [ServerStore.newEvents_of_fits store fits, map_eventId_fillRepo,
      FirstSeen.mem_fresh_keys (fun event : TraceEvent => event.eventId)]
    exact and_iff_left pushed
  rw [split, fresh]
  constructor
  · rintro (own | unknown) known
    · exact own
    · exact absurd known unknown
  · intro held
    by_cases known : id ∈ logIds store.eventLog
    · exact Or.inl (held known)
    · exact Or.inr known

/-- Servers on which the same pushed ids are known answer alike and store the same. -/
theorem pushResponse_congr {repoId : String} {first second : ServerStore} {events : List TraceEvent}
    (fits : ∀ event ∈ events, FitsRepo (some repoId) event)
    (same : ∀ event ∈ events,
      event.eventId ∈ logIds first.eventLog ↔ event.eventId ∈ logIds second.eventLog) :
    pushResponse first repoId events = pushResponse second repoId events ∧
      first.newEvents (some repoId) events = second.newEvents (some repoId) events := by
  obtain ⟨kept, dropped⟩ := FirstSeen.fresh_congr (fun event : TraceEvent => event.eventId) same
  have stored : first.newEvents (some repoId) events = second.newEvents (some repoId) events := by
    rw [ServerStore.newEvents_of_fits first fits, ServerStore.newEvents_of_fits second fits, kept]
  refine ⟨?_, stored⟩
  unfold pushResponse
  rw [stored, dropped]

/-- Two servers that agree on a repo answer a push to it alike and list the same events of it
afterwards, every answered one among them, exactly when the push is refused or no pushed id
is stored on either server outside the repo only. -/
theorem push_shows_no_other_repo_iff (debugText : String → String) {repoId : String}
    {first second : ServerStore} (agree : AgreeOn repoId first second)
    (identity : Option AuthedIdentity) (events : List TraceEvent) {one other : ServerStore}
    {answer otherAnswer : Except Failure PushEventsResponse}
    (pushed : pushRepoEvents debugText first repoId identity events = (answer, one))
    (otherPushed : pushRepoEvents debugText second repoId identity events = (otherAnswer, other))
    (countable : one.eventLog.length < 2 ^ 64) (otherCountable : other.eventLog.length < 2 ^ 64) :
    (answer = otherAnswer ∧ ∃ listing, ListsAs repoId one listing ∧ ListsAs repoId other listing ∧
        ∀ response, answer = .ok response →
          ∀ id ∈ response.acceptedEventIds ++ response.duplicateEventIds,
            ∃ event ∈ listing, event.eventId = id) ↔
      (pushRefusal debugText first repoId identity events = none → ∀ event ∈ events,
        event.eventId ∈ logIds first.eventLog ∨ event.eventId ∈ logIds second.eventLog →
          event.eventId ∈ repoIds repoId first.eventLog) := by
  have refusals : pushRefusal debugText first repoId identity events =
      pushRefusal debugText second repoId identity events := pushRefusal_of_agree agree
  cases refusal : pushRefusal debugText first repoId identity events with
  | some failure =>
      rw [refusal] at refusals
      obtain ⟨_, refused, log⟩ := pushRepoEvents_of_refused refusal
      obtain ⟨_, otherRefused, otherLog⟩ := pushRepoEvents_of_refused refusals.symm
      cases pushed.symm.trans refused
      cases otherPushed.symm.trans otherRefused
      refine iff_of_true ⟨rfl, _, listsAs_matchingEvents repoId one, ?_, ?_⟩ ?_
      · rw [log, agree.events, ← otherLog]
        exact listsAs_matchingEvents repoId other
      · intro response answered
        cases answered
      · intro passes
        cases passes
  | none =>
      rw [refusal] at refusals
      have fits := fits_of_passes refusal
      obtain ⟨_, passed, log⟩ := pushRepoEvents_of_passes refusal
      obtain ⟨_, otherPassed, otherLog⟩ := pushRepoEvents_of_passes refusals.symm
      cases pushed.symm.trans passed
      cases otherPushed.symm.trans otherPassed
      have sameIds : repoIds repoId first.eventLog = repoIds repoId second.eventLog :=
        congrArg (List.map fun event : TraceEvent => event.eventId) agree.events
      constructor
      · rintro ⟨-, listing, lists, otherLists, answered⟩ - event member known
        have isPushed : event.eventId ∈ events.map (·.eventId) := List.mem_map_of_mem member
        obtain ⟨held, isHeld, same⟩ := answered _ rfl event.eventId
          ((mem_pushResponse_iff fits).mpr isPushed)
        have listed : event.eventId ∈ listing.map (·.eventId) := List.mem_map.mpr ⟨held, isHeld, same⟩
        rcases known with here | there
        · rw [lists.eq_matchingEvents countable] at listed
          exact (mem_repoIds_of_pushed fits log isPushed).mp listed here
        · rw [otherLists.eq_matchingEvents otherCountable] at listed
          rw [sameIds]
          exact (mem_repoIds_of_pushed fits otherLog isPushed).mp listed there
      · intro held
        have known : ∀ event ∈ events,
            event.eventId ∈ logIds first.eventLog ↔ event.eventId ∈ logIds second.eventLog := by
          intro event member
          constructor
          · intro here
            exact logIds_of_repoIds (sameIds ▸ held rfl event member (Or.inl here))
          · intro there
            exact logIds_of_repoIds (held rfl event member (Or.inr there))
        obtain ⟨responses, stored⟩ := pushResponse_congr fits known
        refine ⟨by rw [responses], _, listsAs_matchingEvents repoId one, ?_, ?_⟩
        · rw [matchingEvents_of_pushed fits log, agree.events, stored,
            ← matchingEvents_of_pushed fits otherLog]
          exact listsAs_matchingEvents repoId other
        · intro response answered id reported
          cases answered
          have isPushed := (mem_pushResponse_iff fits).mp reported
          obtain ⟨event, member, same⟩ := List.mem_map.mp isPushed
          have listed := (mem_repoIds_of_pushed fits log isPushed).mpr fun stored =>
            same ▸ held rfl event member (Or.inl (same ▸ stored))
          exact List.mem_map.mp listed

/-- A server with an event of another repo. -/
def sharedStart : ServerStore := firstStart [.event (pushedEvent 1 (some "repo-b") none)] none

def emptyStart : ServerStore := firstStart [] none

theorem agreeOn_sharedStart : AgreeOn "repo-a" sharedStart emptyStart :=
  agreeOn_of_started (by rfl) none

/-- A push of an event that is new to both servers. -/
theorem push_of_new_event_shows_no_other_repo :
    (pushRepoEvents id sharedStart "repo-a" none [pushedEvent 2 none none]).1 =
      (pushRepoEvents id emptyStart "repo-a" none [pushedEvent 2 none none]).1 := by
  have shows := push_shows_no_other_repo_iff id agreeOn_sharedStart none [pushedEvent 2 none none]
    Prod.mk.eta.symm Prod.mk.eta.symm (by decide) (by decide)
  refine (shows.mpr ?_).1
  intro _ event member stored
  rw [List.mem_singleton.mp member] at stored
  exact absurd stored (by decide)

/-- An event of another repo swallows a push: the id is answered as a duplicate only where
the other repo has it, and is not listed there. -/
theorem push_shows_event_of_other_repo :
    let one := pushRepoEvents id sharedStart "repo-a" none [pushedEvent 1 none none]
    let other := pushRepoEvents id emptyStart "repo-a" none [pushedEvent 1 none none]
    matchingEvents (some "repo-a") sharedStart.eventLog =
        matchingEvents (some "repo-a") emptyStart.eventLog ∧
      one.1 = .ok ⟨[], [⟨1⟩]⟩ ∧ other.1 = .ok ⟨[⟨1⟩], []⟩ ∧
      one.2.listEventsPage (some "repo-a") none none = .ok ⟨[], none, none⟩ :=
  ⟨rfl, rfl, rfl, rfl⟩

end BrickTrace
