import BrickTrace.Server.Routes

/-!
# Who reaches the events of a repo

What `enforce_repo_member` decides, which repo routes ask it, and what a push
leaves behind when a later check rejects it.
-/

set_option autoImplicit false

namespace BrickTrace

open OrderedMap

inductive Admission where
  | admitted
  | claims (orgId : String)
  | denied (failure : Failure)

/-- The decision of `enforce_repo_member`, read off the maps in force. -/
def admission (store : ServerStore) (identity : Option AuthedIdentity) (repoId : String)
    (claimIfMissing : Bool) (events : List TraceEvent) : Admission :=
  match identity.map (·.kind) with
  | some (AuthKind.supabase userId _) =>
      match store.currentRepoOrg[repoId]? with
      | some orgId => if store.memberOf orgId userId then .admitted else .denied notAMember
      | none =>
          if claimIfMissing then
            match (orgTexts events).find? fun orgId => store.memberOf orgId userId with
            | some orgId => .claims orgId
            | none => .denied noOrgToClaim
          else .denied notBound
  | _ => .admitted

def Admission.carryOut (repoId : String) (ready : ServerStore) :
    Admission → Except Failure Unit × ServerStore
  | .admitted => (.ok (), ready)
  | .claims orgId => (.ok (), ready.claimRepoOrg repoId orgId)
  | .denied failure => (.error failure, ready)

theorem enforceRepoMember_eq (identity : Option AuthedIdentity) (store : ServerStore)
    (repoId : String) (claimIfMissing : Bool) (events : List TraceEvent) :
    ∃ ready, ServerStore.SameRecords store ready ∧
      enforceRepoMember identity store repoId claimIfMissing events =
        (admission store identity repoId claimIfMissing events).carryOut repoId ready := by
  unfold enforceRepoMember admission
  have loaded := ServerStore.sameRecords_ensureRepoOrgLoaded store
  cases kind : identity.map (·.kind) with
  | none => exact ⟨store, .refl store, rfl⟩
  | some known =>
      cases known with
      | localToken => exact ⟨store, .refl store, rfl⟩
      | supabase userId email =>
          simp only [ServerStore.resolveRepoOrg_eq]
          cases bound : store.currentRepoOrg[repoId]? with
          | some orgId =>
              have asked := ServerStore.sameRecords_ensureOrgMembersLoaded store.ensureRepoOrgLoaded
              refine ⟨_, loaded.trans asked, ?_⟩
              simp only [ServerStore.isOrgMember_eq, loaded.members]
              cases store.memberOf orgId userId <;> rfl
          | none =>
              cases claimIfMissing with
              | false => exact ⟨_, loaded, rfl⟩
              | true =>
                  have searched := ServerStore.findMemberOrg_sameRecords store.ensureRepoOrgLoaded
                    userId (orgTexts events)
                  have found := ServerStore.findMemberOrg_fst store.ensureRepoOrgLoaded
                    userId (orgTexts events)
                  rw [loaded.members] at found
                  refine ⟨_, loaded.trans searched, ?_⟩
                  simp only [if_true, ← found]
                  cases result : store.ensureRepoOrgLoaded.findMemberOrg userId (orgTexts events) with
                  | mk orgId ready =>
                      cases orgId <;> rfl

/-- A claim is made by a Supabase user for a repo that is not bound. -/
theorem admission_claims_iff {store : ServerStore} {identity : Option AuthedIdentity}
    {repoId orgId : String} {events : List TraceEvent} :
    admission store identity repoId true events = .claims orgId ↔
      ∃ userId email, identity.map (·.kind) = some (.supabase userId email) ∧
        store.currentRepoOrg[repoId]? = none ∧
        (orgTexts events).find? (fun orgId => store.memberOf orgId userId) = some orgId := by
  unfold admission
  cases kind : identity.map (·.kind) with
  | none => simp
  | some known =>
      cases known with
      | localToken => simp
      | supabase userId email =>
          cases bound : store.currentRepoOrg[repoId]? with
          | some other =>
              dsimp only
              split <;> simp
          | none =>
              simp only [if_true]
              cases found : (orgTexts events).find? fun orgId => store.memberOf orgId userId with
              | none => simp [found]
              | some other => simp [found]

section Push
variable (debugText : String → String)

/-- A Supabase identity binds no actor. -/
theorem enforceActorBinding_of_supabase {identity : Option AuthedIdentity} {userId : String}
    {email : Option String} (supabase : identity.map (·.kind) = some (.supabase userId email))
    (events : List TraceEvent) : enforceActorBinding debugText identity events = .ok () := by
  obtain ⟨known, rfl, kind⟩ := Option.map_eq_some_iff.mp supabase
  simp [enforceActorBinding, known.supabaseUnbound userId email kind]

/-- The store that a push appends to, once it is admitted. -/
def admittedStore (repoId : String) (ready : ServerStore) : Admission → ServerStore
  | .claims orgId => ready.claimRepoOrg repoId orgId
  | _ => ready

/-- The end of a push, shared by both push routes. -/
def appendChecked (store : ServerStore) (repoId : Option String)
    (identity : Option AuthedIdentity) (events : List TraceEvent) :
    Except Failure PushEventsResponse × ServerStore :=
  match enforceActorBinding debugText identity events with
  | .error failure => (.error failure, store)
  | .ok () =>
      let (response, store) := store.appendEventsForRepo repoId events
      (storeResult debugText response, store)

theorem pushRepoEvents_eq (store : ServerStore) (repoId : String)
    (identity : Option AuthedIdentity) (events : List TraceEvent) :
    ∃ ready, ServerStore.SameRecords store ready ∧
      pushRepoEvents debugText store repoId identity events =
        match admission store identity repoId true events with
        | .denied failure => (.error failure, ready)
        | decision =>
            appendChecked debugText (admittedStore repoId ready decision) (some repoId)
              identity events := by
  obtain ⟨ready, same, decided⟩ := enforceRepoMember_eq identity store repoId true events
  refine ⟨ready, same, ?_⟩
  unfold pushRepoEvents
  rw [decided]
  cases admission store identity repoId true events <;> rfl

theorem storeResult_error {A : Type} {result : Except StoreError A} {failure : Failure}
    (failed : storeResult debugText result = .error failure) :
    ∃ cause, result = .error cause := by
  cases result with
  | ok value => cases failed
  | error cause => exact ⟨cause, rfl⟩

/-- The log and both views of the map of the orgs are as they were. -/
def NothingChanged (before after : ServerStore) : Prop :=
  after.eventLog = before.eventLog ∧ after.currentRepoOrg = before.currentRepoOrg ∧
    after.persistedRepoOrg = before.persistedRepoOrg

theorem nothingChanged_of_sameRecords {before after : ServerStore}
    (same : ServerStore.SameRecords before after) : NothingChanged before after :=
  ⟨same.eventLog, same.current, same.persisted⟩

/-- Whether a push claims the repo although one of its events belongs to another repo. -/
def ClaimsThenRejects (store : ServerStore) (repoId : String) (identity : Option AuthedIdentity)
    (events : List TraceEvent) : Prop :=
  (∃ userId email, identity.map (·.kind) = some (.supabase userId email) ∧
      store.currentRepoOrg[repoId]? = none ∧
      ∃ orgId ∈ orgTexts events, store.memberOf orgId userId = true) ∧
    ∃ event ∈ events, ∃ named, event.repoId = some named ∧ named ≠ repoId

theorem not_fits_iff_foreign {repoId : String} {events : List TraceEvent} :
    (¬ ∀ event ∈ events, FitsRepo (some repoId) event) ↔
      ∃ event ∈ events, ∃ named, event.repoId = some named ∧ named ≠ repoId := by
  simp [FitsRepo]

theorem claimsThenRejects_iff {store : ServerStore} {repoId : String}
    {identity : Option AuthedIdentity} {events : List TraceEvent} :
    ClaimsThenRejects store repoId identity events ↔
      (∃ orgId, admission store identity repoId true events = .claims orgId) ∧
        ¬ ∀ event ∈ events, FitsRepo (some repoId) event := by
  rw [ClaimsThenRejects, not_fits_iff_foreign]
  refine and_congr_left fun _ => ?_
  constructor
  · rintro ⟨userId, email, supabase, unbound, orgId, offered, member⟩
    cases found : (orgTexts events).find? fun orgId => store.memberOf orgId userId with
    | none => exact absurd member (List.find?_eq_none.mp found orgId offered)
    | some claimed => exact ⟨claimed, admission_claims_iff.mpr ⟨userId, email, supabase, unbound, found⟩⟩
  · rintro ⟨claimed, claims⟩
    obtain ⟨userId, email, supabase, unbound, found⟩ := admission_claims_iff.mp claims
    exact ⟨userId, email, supabase, unbound, claimed, List.mem_of_find?_eq_some found,
      by simpa using List.find?_some found⟩

/-- A rejected push changes nothing, except when it has claimed the repo first. -/
theorem failed_push_changes_nothing_iff (store : ServerStore) (repoId : String)
    (identity : Option AuthedIdentity) (events : List TraceEvent) :
    (∀ failure, (pushRepoEvents debugText store repoId identity events).1 = .error failure →
        NothingChanged store (pushRepoEvents debugText store repoId identity events).2) ↔
      ¬ ClaimsThenRejects store repoId identity events := by
  obtain ⟨ready, same, pushed⟩ := pushRepoEvents_eq debugText store repoId identity events
  rw [claimsThenRejects_iff, pushed]
  cases decision : admission store identity repoId true events with
  | denied failure =>
      simp only [reduceCtorEq, exists_false, false_and, not_false_eq_true, iff_true]
      exact fun _ _ => nothingChanged_of_sameRecords same
  | admitted =>
      simp only [reduceCtorEq, exists_false, false_and, not_false_eq_true, iff_true, admittedStore,
        appendChecked]
      intro failure failed
      cases bound : enforceActorBinding debugText identity events with
      | error _ =>
          simpa only [bound] using nothingChanged_of_sameRecords same
      | ok _ =>
          simp only [bound] at failed ⊢
          obtain ⟨cause, rejected⟩ := storeResult_error debugText failed
          by_cases fits : ∀ event ∈ events, FitsRepo (some repoId) event
          · rw [ServerStore.appendEventsForRepo_of_fits ready fits] at rejected
            cases rejected
          · obtain ⟨_, _, _, _, unchanged⟩ := ready.appendEventsForRepo_of_not_fits fits
            rw [unchanged]
            exact nothingChanged_of_sameRecords same
  | claims orgId =>
      obtain ⟨userId, email, supabase, unbound, -⟩ := admission_claims_iff.mp decision
      have anyActor := enforceActorBinding_of_supabase debugText supabase events
      simp only [appendChecked, anyActor, admittedStore, Admission.claims.injEq, exists_eq', true_and, not_not]
      constructor
      · intro atomic
        by_contra foreign
        obtain ⟨_, _, _, _, unchanged⟩ :=
          (ready.claimRepoOrg repoId orgId).appendEventsForRepo_of_not_fits foreign
        rw [unchanged] at atomic
        -- the claim stays although the append is rejected
        have kept := (atomic _ rfl).2.1
        rw [ServerStore.claimRepoOrg, ServerStore.recordRepoOrgs_current, same.current] at kept
        have claimed : (bindAll store.currentRepoOrg [(repoId, orgId)])[repoId]? = some orgId := by
          rw [getElem?_bindAll, unbound]
          simp
        rw [kept, unbound] at claimed
        cases claimed
      · intro fits failure failed
        obtain ⟨cause, rejected⟩ := storeResult_error debugText failed
        rw [ServerStore.appendEventsForRepo_of_fits _ fits] at rejected
        cases rejected

end Push

/-- An identity verified from an external access token. -/
def supabaseUser (userId : String) : AuthedIdentity where
  label := "supabase:" ++ userId
  actorId := none
  kind := .supabase userId none
  supabaseUnbound := fun _ _ _ => rfl

/-- A member's first push to a repo, with an event of another repo in the batch. -/
theorem push_with_foreign_event_keeps_claim :
    let store := ServerStore.new.addOrgMember "org-1" "user-1"
    let pushed := pushRepoEvents id store "repo-a" (some (supabaseUser "user-1"))
      [pushedEvent 1 none (some ⟨"org-1"⟩), pushedEvent 2 (some "repo-b") none]
    ¬ ∀ failure, pushed.1 = .error failure → NothingChanged store pushed.2 := by
  intro store pushed atomic
  have failed : ∃ failure, pushed.1 = .error failure := ⟨_, rfl⟩
  obtain ⟨failure, failed⟩ := failed
  have kept := congrArg (fun map => map["repo-a"]?) (atomic failure failed).2.1
  have before : store.currentRepoOrg["repo-a"]? = none := by decide
  have after : pushed.2.currentRepoOrg["repo-a"]? = some "org-1" := by decide
  rw [before, after] at kept
  cases kept

/-! ## The routes that ask for membership -/

/-- The handlers that call `enforce_repo_member`. -/
def RepoRoute.asksForMembership : RepoRoute → Bool
  | .pushEvents _ | .listEvents _ => true
  | .indexStatus | .sessions _ => false

def Denies {A : Type} (result : Except Failure A) : Prop :=
  ∃ error, result = .error (.response error) ∧
    (error.status = .unauthorized ∨ error.status = .forbidden)

/-- Data and accepted events only for members, a denial for all others. -/
def KeepsToMembers (isMember : Bool) (before : ServerStore)
    (answer : Except Failure RepoBody × ServerStore) : Prop :=
  (∀ body, answer.1 = .ok body → isMember = true) ∧
    (isMember = false → Denies answer.1 ∧ answer.2.eventLog = before.eventLog)

theorem routeError_not_denied {A : Type} (message : String) :
    ¬ Denies (.error (routeError message) : Except Failure A) := by
  rintro ⟨error, same, denied⟩
  unfold routeError at same
  split at same
  · cases same
    simp at denied
  · cases same
    simp at denied

theorem serverIndex_not_denied {A : Type} (mode : OverflowMode) (now : DateTime)
    (store : ServerStore) (repoId : Option String) (answer : TraceIndex → A) :
    ¬ Denies ((serverIndex mode now store repoId).map answer) := by
  unfold serverIndex
  cases rebuildServerIndex mode now repoId (store.readEventsForRepo repoId) with
  | ok index =>
      rintro ⟨error, same, -⟩
      cases same
  | error failure =>
      cases failure with
      | overflow =>
          rintro ⟨error, same, -⟩
          cases same
      | payload eventId eventType => exact routeError_not_denied _

/-- A status or session query never asks who wants to know. -/
theorem handleRepoRoute_not_denied (env : ServerEnv) (now : DateTime) (store : ServerStore)
    (repoId : String) (identity : Option AuthedIdentity) {route : RepoRoute}
    (silent : route.asksForMembership = false) :
    ¬ Denies (handleRepoRoute env now store repoId identity route).1 := by
  cases route with
  | pushEvents events => cases silent
  | listEvents query => cases silent
  | indexStatus =>
      have unasked := serverIndex_not_denied env.mode now store (some repoId)
        fun index => RepoBody.status (serverIndexStatus (some repoId) index)
      simp only [handleRepoRoute, repoIndexStatus, indexStatusResponse]
      cases built : serverIndex env.mode now store (some repoId) <;> rw [built] at unasked <;> exact unasked
  | sessions query =>
      have unasked := serverIndex_not_denied env.mode now store (some repoId)
        fun index => RepoBody.sessions (queryServerSessions (some repoId) index query)
      simp only [handleRepoRoute, repoSessions, sessionsResponse]
      cases built : serverIndex env.mode now store (some repoId) <;> rw [built] at unasked <;> exact unasked

theorem admission_of_bound {store : ServerStore} {identity : AuthedIdentity} {userId : String}
    {email : Option String} {repoId orgId : String}
    (supabase : identity.kind = .supabase userId email)
    (bound : store.currentRepoOrg[repoId]? = some orgId) (claimIfMissing : Bool)
    (events : List TraceEvent) :
    admission store (some identity) repoId claimIfMissing events =
      if store.memberOf orgId userId then .admitted else .denied notAMember := by
  simp only [admission, Option.map_some, supabase, bound]

/-- A route that asks turns away whoever is not a member, and leaves the log alone. -/
theorem handleRepoRoute_denies_stranger (env : ServerEnv) (now : DateTime) (store : ServerStore)
    {repoId orgId userId : String} {email : Option String} {identity : AuthedIdentity}
    {route : RepoRoute} (asks : route.asksForMembership = true)
    (supabase : identity.kind = .supabase userId email)
    (bound : store.currentRepoOrg[repoId]? = some orgId)
    (stranger : store.memberOf orgId userId = false) :
    ∃ ready, ServerStore.SameRecords store ready ∧
      handleRepoRoute env now store repoId (some identity) route = (.error notAMember, ready) := by
  cases route with
  | indexStatus => cases asks
  | sessions query => cases asks
  | pushEvents events =>
      obtain ⟨ready, same, pushed⟩ :=
        pushRepoEvents_eq env.debugText store repoId (some identity) events
      refine ⟨ready, same, ?_⟩
      simp only [handleRepoRoute, pushed, admission_of_bound supabase bound, stranger,
        Bool.false_eq_true, if_false]
      rfl
  | listEvents query =>
      obtain ⟨ready, same, decided⟩ := enforceRepoMember_eq (some identity) store repoId false []
      refine ⟨ready, same, ?_⟩
      rw [admission_of_bound supabase bound, stranger] at decided
      simp only [handleRepoRoute, listRepoEvents, decided]
      rfl

/-- Passing the gate changes nothing that handlers read. -/
theorem requireBearerToken_sameRecords (hashToken : String → String) (now : DateTime)
    (config : AuthConfig) (head : RequestHead) (store : ServerStore) :
    ServerStore.SameRecords store (requireBearerToken hashToken now config head store).2 := by
  have target : ServerStore.SameRecords store
      (resourceTargetForPath head.path config.needsOrgResolution store).2 := by
    unfold resourceTargetForPath
    split
    · split
      · simp only [ServerStore.resolveRepoOrg_eq]
        exact ServerStore.sameRecords_ensureRepoOrgLoaded store
      · exact .refl store
    · exact .refl store
  unfold requireBearerToken
  split
  · exact .refl store
  · dsimp only
    split <;> exact target

/-- For a Supabase user and a bound repo, a route keeps to the members of the org
exactly when its handler asks for membership or the user is a member. -/
theorem repo_route_keeps_to_members_iff (env : ServerEnv) (now : DateTime) (store : ServerStore)
    (head : RequestHead) (repoId : String) (route : RepoRoute) {config : AuthConfig}
    {identity : AuthedIdentity} {ready : ServerStore} {userId orgId : String}
    {email : Option String} (configured : env.auth = some config)
    (authenticated :
      requireBearerToken env.hashToken now config head store = (.ok identity, ready))
    (supabase : identity.kind = .supabase userId email)
    (bound : store.currentRepoOrg[repoId]? = some orgId) :
    KeepsToMembers (store.memberOf orgId userId) store
        (serveRepoRoute env now store head repoId route) ↔
      route.asksForMembership = true ∨ store.memberOf orgId userId = true := by
  have passed := requireBearerToken_sameRecords env.hashToken now config head store
  rw [authenticated] at passed
  have served : serveRepoRoute env now store head repoId route =
      handleRepoRoute env now ready repoId (some identity) route := by
    simp only [serveRepoRoute, configured, authenticated]
  rw [served]
  cases member : store.memberOf orgId userId with
  | true => simp [KeepsToMembers]
  | false =>
      simp only [Bool.false_eq_true, or_false]
      constructor
      · intro keeps
        by_contra silent
        exact handleRepoRoute_not_denied env now ready repoId (some identity)
          (Bool.eq_false_iff.mpr silent) (keeps.2 rfl).1
      · intro asks
        have boundThere := bound
        have strangerThere := member
        rw [← passed.current] at boundThere
        rw [← passed.members] at strangerThere
        obtain ⟨after, same, denied⟩ :=
          handleRepoRoute_denies_stranger env now ready asks supabase boundThere strangerThere
        rw [denied]
        refine ⟨?_, fun _ => ⟨⟨_, rfl, Or.inr rfl⟩, same.eventLog.trans passed.eventLog⟩⟩
        intro body served
        cases served

/-- Two users with access tokens, one of them a member of `org-1`, which owns `repo-a`. -/
def twoUserEnv : ServerEnv where
  mode := .wrapping
  debugText := id
  hashToken := id
  auth := some
    { tokens := ⟨[]⟩
      supabase := some fun token =>
        if token = "jwt-1" then some ⟨"user-1", none⟩
        else if token = "jwt-2" then some ⟨"user-2", none⟩
        else none }

def ownedStore : ServerStore :=
  (pushRepoEvents id (ServerStore.new.addOrgMember "org-1" "user-1") "repo-a"
    (some (supabaseUser "user-1")) [pushedEvent 1 none (some ⟨"org-1"⟩)]).2

def strangerHead : RequestHead := ⟨.get, "/v1/repos/repo-a/sessions", some "Bearer jwt-2"⟩

theorem repo_listing_keeps_stranger_out :
    KeepsToMembers (ownedStore.memberOf "org-1" "user-2") ownedStore
        (serveRepoRoute twoUserEnv ⟨0⟩ ownedStore strangerHead "repo-a" (.listEvents ⟨none, none, none⟩)) ↔
      RepoRoute.asksForMembership (.listEvents ⟨none, none, none⟩) = true ∨
        ownedStore.memberOf "org-1" "user-2" = true :=
  repo_route_keeps_to_members_iff twoUserEnv ⟨0⟩ ownedStore strangerHead "repo-a"
    (.listEvents ⟨none, none, none⟩) rfl rfl rfl (by decide)

/-- A user of another org is given the sessions of the repo. -/
theorem repo_sessions_served_to_stranger :
    ownedStore.currentRepoOrg["repo-a"]? = some "org-1" ∧
      ownedStore.memberOf "org-1" "user-2" = false ∧
      ¬ KeepsToMembers (ownedStore.memberOf "org-1" "user-2") ownedStore
        (serveRepoRoute twoUserEnv ⟨0⟩ ownedStore strangerHead "repo-a"
          (.sessions ⟨⟨none, none, none, none, none⟩, none⟩)) := by
  have stranger : ownedStore.memberOf "org-1" "user-2" = false := by decide
  refine ⟨by decide, stranger, ?_⟩
  intro keeps
  have served := keeps.1 _ rfl
  rw [stranger] at served
  cases served

end BrickTrace
