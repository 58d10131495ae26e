import BrickTrace.Lib.Interleaving
import BrickTrace.Lib.Runs
import BrickTrace.Server.MemberGate

/-!
# Concurrent pushes of Supabase users

A push to a repo is three steps: the question which org owns the repo, with the
membership check; the claim, when the repo is not bound; the append.  The claim
of a repo that has been bound in between changes nothing, and the push goes on.
-/

set_option autoImplicit false

namespace BrickTrace

open OrderedMap Interleaving

structure PushRequest where
  repoId : String
  userId : String
  events : List TraceEvent

inductive PushState where
  | resolve (request : PushRequest)
  | claim (request : PushRequest) (orgId : String)
  | append (request : PushRequest)
  | done (result : Except Failure PushEventsResponse)

section Steps
variable (debugText : String → String)

def pushStep (store : ServerStore) : PushState → Option (ServerStore × PushState)
  | .resolve request =>
      match store.resolveRepoOrg request.repoId with
      | (some orgId, store) =>
          match store.isOrgMember orgId request.userId with
          | (true, store) => some (store, .append request)
          | (false, store) => some (store, .done (.error notAMember))
      | (none, store) =>
          match store.findMemberOrg request.userId (orgTexts request.events) with
          | (some orgId, store) => some (store, .claim request orgId)
          | (none, store) => some (store, .done (.error noOrgToClaim))
  | .claim request orgId => some (store.claimRepoOrg request.repoId orgId, .append request)
  | .append request =>
      let (result, store) := store.appendEventsForRepo (some request.repoId) request.events
      some (store, .done (storeResult debugText result))
  | .done _ => none

theorem alone_appended (store : ServerStore) (request : PushRequest) :
    let (result, after) := store.appendEventsForRepo (some request.repoId) request.events
    Alone (pushStep debugText) store (.append request) after
      (.done (storeResult debugText result)) :=
  .next rfl (.done _ _)

/-- A push that runs alone does what the handler does for a Supabase identity. -/
theorem alone_push (store : ServerStore) (request : PushRequest) {identity : AuthedIdentity}
    {email : Option String} (supabase : identity.kind = .supabase request.userId email) :
    let (result, after) :=
      pushRepoEvents debugText store request.repoId (some identity) request.events
    Alone (pushStep debugText) store (.resolve request) after (.done result) := by
  have kind : (some identity).map (·.kind) = some (AuthKind.supabase request.userId email) := by
    simp [supabase]
  have anyActor := enforceActorBinding_of_supabase debugText kind request.events
  dsimp only
  simp only [pushRepoEvents, enforceRepoMember, kind, anyActor]
  rw [ServerStore.resolveRepoOrg_eq]
  cases bound : store.currentRepoOrg[request.repoId]? with
  | some orgId =>
      dsimp only
      rw [ServerStore.isOrgMember_eq]
      cases member : store.ensureRepoOrgLoaded.memberOf orgId request.userId with
      | true =>
          dsimp only
          refine .next ?_ (alone_appended debugText _ request)
          simp only [pushStep, ServerStore.resolveRepoOrg_eq, bound, ServerStore.isOrgMember_eq, member]
      | false =>
          dsimp only
          refine .next ?_ (.done _ _)
          simp only [pushStep, ServerStore.resolveRepoOrg_eq, bound, ServerStore.isOrgMember_eq, member]
  | none =>
      simp only [if_true]
      cases found : store.ensureRepoOrgLoaded.findMemberOrg request.userId
          (orgTexts request.events) with
      | mk orgId ready =>
          cases orgId with
          | some orgId =>
              dsimp only
              have claimed : pushStep debugText ready (.claim request orgId) =
                  some (ready.claimRepoOrg request.repoId orgId, .append request) := rfl
              refine .next ?_ (.next claimed (alone_appended debugText _ request))
              simp only [pushStep, ServerStore.resolveRepoOrg_eq, bound, found]
          | none =>
              dsimp only
              refine .next ?_ (.done _ _)
              simp only [pushStep, ServerStore.resolveRepoOrg_eq, bound, found]

/-! ## All pushes together -/

inductive PushLabel where
  | request (request : PushRequest)
  | step (index : Nat)

def pushNext (pool : Pool ServerStore PushState) : PushLabel → Pool ServerStore PushState
  | .request request => spawn pool (.resolve request)
  | .step index => advance (pushStep debugText) pool index

end Steps

/-- An append that stores events is made by a member of the org that the repo is
bound to at that moment. -/
def AppendsForMember (pool : Pool ServerStore PushState) : PushLabel → Prop
  | .step index =>
      match pool.threads[index]? with
      | some (.append request) =>
          (pool.shared.newEvents (some request.repoId) request.events).isEmpty = false →
            (pool.shared.currentRepoOrg[request.repoId]?.any fun orgId =>
              pool.shared.memberOf orgId request.userId) = true
      | _ => True
  | .request _ => True

/-- A claim finds the repo not bound, or bound to an org of the user. -/
def ClaimFindsOwnOrg (pool : Pool ServerStore PushState) : PushLabel → Prop
  | .step index =>
      match pool.threads[index]? with
      | some (.claim request _) =>
          (pool.shared.currentRepoOrg[request.repoId]?.all fun orgId =>
            pool.shared.memberOf orgId request.userId) = true
      | _ => True
  | .request _ => True

/-- What a push relies on between its steps. -/
def Entitled (store : ServerStore) : PushState → Prop
  | .claim request orgId => store.memberOf orgId request.userId = true
  | .append request => ∃ orgId, store.currentRepoOrg[request.repoId]? = some orgId ∧
      store.memberOf orgId request.userId = true
  | _ => True

/-- What every step leaves to the other pushes: the bindings there are, and the members. -/
structure LeavesEntitled (before after : ServerStore) : Prop where
  current : Included before.currentRepoOrg after.currentRepoOrg
  members : after.memberOf = before.memberOf

theorem Entitled.stable {before after : ServerStore} {state : PushState}
    (entitled : Entitled before state) (leaves : LeavesEntitled before after) :
    Entitled after state := by
  cases state with
  | claim request orgId =>
      rw [Entitled, leaves.members]
      exact entitled
  | append request =>
      obtain ⟨orgId, bound, member⟩ := entitled
      exact ⟨orgId, leaves.current _ _ bound, by rwa [leaves.members]⟩
  | resolve request => trivial
  | done result => trivial

theorem leavesEntitled_of_sameRecords {before after : ServerStore}
    (same : ServerStore.SameRecords before after) : LeavesEntitled before after :=
  ⟨by rw [same.current]; exact included_refl _, same.members⟩

theorem memberOf_congr {before after : ServerStore} (cache : after.orgMembers = before.orgMembers)
    (file : after.orgMembersFile = before.orgMembersFile) : after.memberOf = before.memberOf := by
  funext orgId userId
  simp only [ServerStore.memberOf, ServerStore.currentOrgMembers, cache, file]

theorem memberOf_recordRepoOrgs (store : ServerStore) (bindings : List (String × String)) :
    (store.recordRepoOrgs bindings).memberOf = store.memberOf := by
  apply memberOf_congr <;> simp [ServerStore.recordRepoOrgs]

theorem memberOf_appendEventsForRepo (store : ServerStore) (repoId : Option String)
    (events : List TraceEvent) :
    (store.appendEventsForRepo repoId events).2.memberOf = store.memberOf := by
  by_cases fits : ∀ event ∈ events, FitsRepo repoId event
  · rw [ServerStore.appendEventsForRepo_of_fits store fits]
    dsimp only
    split
    · exact memberOf_congr rfl rfl
    · rw [memberOf_recordRepoOrgs]
      exact memberOf_congr rfl rfl
  · obtain ⟨_, _, _, _, rejected⟩ := store.appendEventsForRepo_of_not_fits fits
    rw [rejected]

/-- What the first step of a push finds out. -/
theorem pushStep_resolve {debugText : String → String} {before after : ServerStore}
    {request : PushRequest} {moved : PushState}
    (taken : pushStep debugText before (.resolve request) = some (after, moved)) :
    ServerStore.SameRecords before after ∧ Entitled after moved := by
  have loaded := ServerStore.sameRecords_ensureRepoOrgLoaded before
  simp only [pushStep, ServerStore.resolveRepoOrg_eq] at taken
  cases bound : before.currentRepoOrg[request.repoId]? with
  | some orgId =>
      have asked := loaded.trans
        (ServerStore.sameRecords_ensureOrgMembersLoaded before.ensureRepoOrgLoaded)
      simp only [bound, ServerStore.isOrgMember_eq, loaded.members] at taken
      cases member : before.memberOf orgId request.userId with
      | true =>
          simp only [member, Option.some.injEq, Prod.mk.injEq] at taken
          obtain ⟨rfl, rfl⟩ := taken
          exact ⟨asked, orgId, by rw [asked.current, bound], by rw [asked.members, member]⟩
      | false =>
          simp only [member, Option.some.injEq, Prod.mk.injEq] at taken
          obtain ⟨rfl, rfl⟩ := taken
          exact ⟨asked, trivial⟩
  | none =>
      have searched := loaded.trans (ServerStore.findMemberOrg_sameRecords
        before.ensureRepoOrgLoaded request.userId (orgTexts request.events))
      have found := ServerStore.findMemberOrg_fst before.ensureRepoOrgLoaded request.userId
        (orgTexts request.events)
      simp only [bound] at taken
      cases result : before.ensureRepoOrgLoaded.findMemberOrg request.userId
          (orgTexts request.events) with
      | mk orgId ready =>
          rw [result] at searched found
          cases orgId with
          | some orgId =>
              simp only [result, Option.some.injEq, Prod.mk.injEq] at taken
              obtain ⟨rfl, rfl⟩ := taken
              refine ⟨searched, ?_⟩
              rw [Entitled, searched.members, ← loaded.members]
              have chosen : (orgTexts request.events).find? (fun orgId =>
                  before.ensureRepoOrgLoaded.memberOf orgId request.userId) = some orgId := found.symm
              simpa using List.find?_some chosen
          | none =>
              simp only [result, Option.some.injEq, Prod.mk.injEq] at taken
              obtain ⟨rfl, rfl⟩ := taken
              exact ⟨searched, trivial⟩

/-- One step keeps every push entitled, the moving one included. -/
theorem pushStep_entitled {debugText : String → String} {before after : ServerStore}
    {mover moved : PushState} (entitled : Entitled before mover)
    (own : ∀ request orgId, mover = .claim request orgId →
      ∀ bound, before.currentRepoOrg[request.repoId]? = some bound →
        before.memberOf bound request.userId = true)
    (taken : pushStep debugText before mover = some (after, moved)) :
    LeavesEntitled before after ∧ Entitled after moved := by
  cases mover with
  | resolve request =>
      obtain ⟨same, ready⟩ := pushStep_resolve taken
      exact ⟨leavesEntitled_of_sameRecords same, ready⟩
  | claim request orgId =>
      cases taken
      have current : (before.claimRepoOrg request.repoId orgId).currentRepoOrg =
          bindAll before.currentRepoOrg [(request.repoId, orgId)] := by
        rw [ServerStore.claimRepoOrg, ServerStore.recordRepoOrgs_current]
      have members : (before.claimRepoOrg request.repoId orgId).memberOf = before.memberOf :=
        memberOf_recordRepoOrgs before _
      refine ⟨⟨by rw [current]; exact included_bindAll _ _, members⟩, ?_⟩
      cases bound : before.currentRepoOrg[request.repoId]? with
      | some there =>
          refine ⟨there, ?_, ?_⟩
          · rw [current]
            exact bindAll_keeps _ _ _ _ bound
          · rw [members]
            exact own request orgId rfl there bound
      | none =>
          refine ⟨orgId, ?_, ?_⟩
          · rw [current, getElem?_bindAll, bound]
            simp
          · rw [members]
            exact entitled
  | append request =>
      simp only [pushStep, Option.some.injEq, Prod.mk.injEq] at taken
      obtain ⟨rfl, rfl⟩ := taken
      refine ⟨⟨?_, memberOf_appendEventsForRepo before _ _⟩, trivial⟩
      rw [ServerStore.appendEventsForRepo_current]
      exact included_bindAll _ _
  | done result => cases taken

abbrev NoDemand (_ : ServerStore) : Prop := True

abbrev NoTie (_ : ServerStore) (_ _ : PushState) : Prop := True

section Runs
variable (debugText : String → String)

theorem pushNext_entitled (pool : Pool ServerStore PushState) (label : PushLabel)
    (holds : Holds NoDemand Entitled NoTie pool) (clean : ClaimFindsOwnOrg pool label) :
    Holds NoDemand Entitled NoTie (pushNext debugText pool label) := by
  cases label with
  | request request => exact spawn_holds holds trivial fun _ => ⟨trivial, trivial⟩
  | step index =>
      refine advance_holds (pushStep debugText) pool index holds ?_
      intro state after moved found taken
      have own : ∀ request orgId, state = .claim request orgId →
          ∀ bound, pool.shared.currentRepoOrg[request.repoId]? = some bound →
            pool.shared.memberOf bound request.userId = true := by
        rintro request orgId rfl bound held
        simpa [ClaimFindsOwnOrg, found, held] using clean
      obtain ⟨leaves, ready⟩ := pushStep_entitled (holds.thread index state found) own taken
      exact ⟨trivial, ready, fun _ _ relied _ _ => ⟨relied.stable leaves, trivial, trivial⟩,
        fun _ _ _ _ _ _ _ => trivial⟩

/-- Events are stored only for members of the owning org, along every run in which no
claim finds the repo bound to an org that the user does not belong to. -/
theorem concurrent_pushes_append_for_members (store : ServerStore) (labels : List PushLabel)
    (clean : Runs.Meets (pushNext debugText) ClaimFindsOwnOrg ⟨store, []⟩ labels) :
    Runs.Meets (pushNext debugText) AppendsForMember ⟨store, []⟩ labels := by
  have start : Holds NoDemand Entitled NoTie (⟨store, []⟩ : Pool ServerStore PushState) :=
    ⟨trivial, fun index state found => by simp at found, fun _ _ _ _ _ _ _ => trivial⟩
  refine Runs.meets_of_meets (pushNext debugText) (pushNext_entitled debugText) ?_ start clean
  intro pool label holds _
  cases label with
  | request request => trivial
  | step index =>
      simp only [AppendsForMember]
      split
      · rename_i request found
        obtain ⟨orgId, bound, member⟩ := holds.thread index _ found
        intro _
        simp [bound, member]
      · trivial

end Runs

/-- Two orgs with one member each. -/
def twoOrgStore : ServerStore :=
  (ServerStore.new.addOrgMember "org-1" "user-1").addOrgMember "org-2" "user-2"

def pushFor (userId orgId : String) (eventId : Fin (16 ^ 32)) : PushRequest :=
  ⟨"repo-a", userId, [pushedEvent eventId none (some ⟨orgId⟩)]⟩

/-- One push after the other: the second user is turned away. -/
theorem pushes_in_turn_append_for_members :
    Runs.Meets (pushNext id) AppendsForMember ⟨twoOrgStore, []⟩
      [.request (pushFor "user-1" "org-1" 1), .step 0, .step 0, .step 0,
        .request (pushFor "user-2" "org-2" 2), .step 1] :=
  concurrent_pushes_append_for_members id twoOrgStore _
    ⟨trivial, trivial, by rfl, trivial, trivial, trivial, trivial⟩

/-- Both users find the repo unbound; the second claim comes too late, and the events
of the second user are stored although the repo belongs to the other org. -/
theorem late_claim_appends_for_stranger :
    ¬ Runs.Meets (pushNext id) AppendsForMember ⟨twoOrgStore, []⟩
      [.request (pushFor "user-1" "org-1" 1), .request (pushFor "user-2" "org-2" 2),
        .step 0, .step 1, .step 0, .step 1, .step 1] := by
  rintro ⟨-, -, -, -, -, -, entitled, -⟩
  have member : false = true := entitled rfl
  cases member

end BrickTrace
