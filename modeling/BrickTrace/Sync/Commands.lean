import BrickTrace.Lib.LastWrite
import BrickTrace.Sync.Client
import Mathlib.Data.List.Dedup

/-!
# The sync commands

A login keeps the session of an account in a file.  A push and a pull need one, and get a new
access token when the old one is about to expire.  A push sends one request for each repo;
a request or its answer may be lost, which ends the command.
-/

set_option autoImplicit false

namespace BrickTrace

open KeyedRows (KeyedTable)

/-! ## The login session -/

structure Identity where
  userId : String
  email : Option String
  accessToken : String
  refreshToken : String
  expiresAt : Option DateTime
deriving DecidableEq

/-- A token that expires within half a minute counts as expired. -/
def Identity.isExpiredAt (identity : Identity) (now : DateTime) : Bool :=
  match identity.expiresAt with
  | some expiry => decide (expiry.nanoseconds ≤ now.nanoseconds + 30 * 1000000000)
  | none => false

structure SupabaseUser where
  id : String
  email : Option String

structure TokenResponse where
  accessToken : String
  refreshToken : String
  expiresIn : Option Int
  user : Option SupabaseUser

def TokenResponse.intoIdentity (response : TokenResponse) (now : DateTime) : Identity where
  userId := (response.user.map SupabaseUser.id).getD ""
  email := response.user.bind SupabaseUser.email
  accessToken := response.accessToken
  refreshToken := response.refreshToken
  expiresAt := response.expiresIn.map fun seconds => ⟨now.nanoseconds + seconds * 1000000000⟩

/-- What is at the path of the session. -/
inductive SessionFile where
  | missing
  | unreadable
  | blank
  | malformed
  | stored (identity : Identity)

section Session
variable (path : String)

def loadFrom : SessionFile → Except String (Option Identity)
  | .missing => .ok none
  | .unreadable => .error ("failed to read identity at " ++ path)
  | .blank => .ok none
  | .malformed => .error ("failed to parse identity at " ++ path)
  | .stored identity => .ok (some identity)

def isLoggedIn (now : DateTime) (file : SessionFile) : Bool :=
  match loadFrom path file with
  | .ok (some identity) => !identity.isExpiredAt now
  | _ => false

/-- Whether there was a file. -/
def clearSession : SessionFile → Bool × SessionFile
  | .missing => (false, .missing)
  | _ => (true, .missing)

/-- The answers of Supabase to a verification as `email` and as `signup`. -/
def verifyEmailOtp (now : DateTime) (email signup : Except String TokenResponse)
    (file : SessionFile) : Except String Identity × SessionFile :=
  match email with
  | .ok response => (.ok (response.intoIdentity now), .stored (response.intoIdentity now))
  | .error _ =>
      match signup with
      | .ok response => (.ok (response.intoIdentity now), .stored (response.intoIdentity now))
      | .error _ =>
          (.error "failed to verify the one-time code (tried both email and signup types)", file)

def notLoggedIn : String := "not logged in; run \x60brick login\x60 first"

/-- `exchange` is Supabase's answer to a refresh token. -/
def refresh (now : DateTime) (exchange : String → Except String TokenResponse)
    (file : SessionFile) : Except String Identity × SessionFile :=
  match loadFrom path file with
  | .error failure => (.error failure, file)
  | .ok none => (.error notLoggedIn, file)
  | .ok (some current) =>
      match exchange current.refreshToken with
      | .error failure => (.error failure, file)
      | .ok response => (.ok (response.intoIdentity now), .stored (response.intoIdentity now))

def refreshIfNeeded (now : DateTime) (exchange : String → Except String TokenResponse)
    (file : SessionFile) : Except String Identity × SessionFile :=
  match loadFrom path file with
  | .error failure => (.error failure, file)
  | .ok none => (.error notLoggedIn, file)
  | .ok (some current) =>
      if current.isExpiredAt now then refresh path now exchange file else (.ok current, file)

/-! ### Who the requests are made for -/

/-- `callback` is what a magic link carries; a sync makes requests to the remote. -/
inductive AccountCommand where
  | login (email signup : Except String TokenResponse)
  | callback (identity : Except String Identity)
  | logout
  | sync (exchange : String → Except String TokenResponse)

/-- The identity that the requests of the command are made for, if it makes any, and the
file afterwards. -/
def AccountCommand.run (now : DateTime) (file : SessionFile) :
    AccountCommand → Option Identity × SessionFile
  | .login email signup => (none, (verifyEmailOtp now email signup file).2)
  | .callback (.ok identity) => (none, .stored identity)
  | .callback (.error _) => (none, file)
  | .logout => (none, (clearSession file).2)
  | .sync exchange =>
      ((refreshIfNeeded path now exchange file).1.toOption,
        (refreshIfNeeded path now exchange file).2)

/-- The session after commands, each at its time. -/
def sessionAfter (file : SessionFile) (commands : List (DateTime × AccountCommand)) : SessionFile :=
  commands.foldl (fun file timed => (timed.2.run path timed.1 file).2) file

/-! ### A request has a login behind it -/

/-- The command can save the identity, with what Supabase answers to it. -/
def AccountCommand.Grants (now : DateTime) (identity : Identity) : AccountCommand → Prop
  | .login email signup =>
      ∃ response, (email = .ok response ∨ signup = .ok response) ∧
        response.intoIdentity now = identity
  | .callback answer => answer = .ok identity
  | .logout => False
  | .sync exchange =>
      ∃ token response, exchange token = .ok response ∧ response.intoIdentity now = identity

/-- Of the commands one granted the identity, and none has logged out since. -/
def GrantedSince (commands : List (DateTime × AccountCommand)) (identity : Identity) : Prop :=
  ∃ earlier granting later, commands = earlier ++ granting :: later ∧
    granting.2.Grants granting.1 identity ∧ ∀ timed ∈ later, timed.2 ≠ .logout

variable {path}

theorem refresh_cases (path : String) (now : DateTime)
    (exchange : String → Except String TokenResponse) (current : Identity) :
    (∃ failure, exchange current.refreshToken = .error failure ∧
        refresh path now exchange (.stored current) = (.error failure, .stored current)) ∨
      ∃ response, exchange current.refreshToken = .ok response ∧
        refresh path now exchange (.stored current) =
          (.ok (response.intoIdentity now), .stored (response.intoIdentity now)) := by
  unfold refresh loadFrom
  dsimp only
  cases answered : exchange current.refreshToken with
  | error failure => exact Or.inl ⟨failure, rfl, rfl⟩
  | ok response => exact Or.inr ⟨response, rfl, rfl⟩

/-- Without a stored session nothing is asked for and nothing is changed. -/
theorem refreshIfNeeded_of_not_stored (path : String) (now : DateTime)
    (exchange : String → Except String TokenResponse) {file : SessionFile}
    (none : ∀ current, file ≠ .stored current) :
    ∃ failure, refreshIfNeeded path now exchange file = (.error failure, file) := by
  cases file with
  | stored current => exact absurd rfl (none current)
  | missing => exact ⟨notLoggedIn, rfl⟩
  | blank => exact ⟨notLoggedIn, rfl⟩
  | unreadable => exact ⟨_, rfl⟩
  | malformed => exact ⟨_, rfl⟩

theorem refreshIfNeeded_stored (now : DateTime) (exchange : String → Except String TokenResponse)
    (current : Identity) : refreshIfNeeded path now exchange (.stored current) =
      if current.isExpiredAt now then refresh path now exchange (.stored current)
      else (.ok current, .stored current) := rfl

/-- What a command leaves stored was there before it, or is granted by it. -/
theorem stored_after_command {now : DateTime} {file : SessionFile} {command : AccountCommand}
    {current : Identity} (after : (command.run path now file).2 = .stored current) :
    file = .stored current ∧ command ≠ .logout ∨ command.Grants now current := by
  cases command with
  | login email signup =>
      change (verifyEmailOtp now email signup file).2 = _ at after
      cases answeredEmail : email with
      | ok response =>
          rw [answeredEmail] at after
          exact Or.inr ⟨response, Or.inl rfl, SessionFile.stored.inj after⟩
      | error _ =>
          rw [answeredEmail] at after
          cases answeredSignup : signup with
          | ok response =>
              rw [answeredSignup] at after
              exact Or.inr ⟨response, Or.inr rfl, SessionFile.stored.inj after⟩
          | error _ =>
              rw [answeredSignup] at after
              exact Or.inl ⟨after, nofun⟩
  | callback answer =>
      cases answer with
      | ok identity => exact Or.inr (congrArg Except.ok (SessionFile.stored.inj after))
      | error _ => exact Or.inl ⟨after, nofun⟩
  | logout =>
      change (clearSession file).2 = _ at after
      cases file <;> cases after
  | sync exchange =>
      change (refreshIfNeeded path now exchange file).2 = _ at after
      by_cases held : ∃ identity, file = .stored identity
      · obtain ⟨identity, rfl⟩ := held
        rw [refreshIfNeeded_stored] at after
        split at after
        · rcases refresh_cases path now exchange identity with
            ⟨_, _, done⟩ | ⟨response, answered, done⟩
          · rw [done] at after
            exact Or.inl ⟨after, nofun⟩
          · rw [done] at after
            exact Or.inr ⟨_, response, answered, SessionFile.stored.inj after⟩
        · exact Or.inl ⟨after, nofun⟩
      · obtain ⟨_, done⟩ := refreshIfNeeded_of_not_stored path now exchange
          fun identity same => held ⟨identity, same⟩
        rw [done] at after
        exact Or.inl ⟨after, nofun⟩

theorem granted_of_stored {commands : List (DateTime × AccountCommand)} {current : Identity}
    (stored : sessionAfter path .missing commands = .stored current) :
    GrantedSince commands current := by
  induction commands using List.reverseRecOn generalizing current with
  | nil => cases stored
  | append_singleton commands last ih =>
      unfold sessionAfter at stored
      rw [List.foldl_append] at stored
      rcases stored_after_command stored with ⟨before, noLogout⟩ | grants
      · obtain ⟨earlier, granting, later, rfl, isGrant, quiet⟩ := ih before
        refine ⟨earlier, granting, later ++ [last], by simp, isGrant, fun timed member => ?_⟩
        rcases List.mem_append.mp member with inner | final
        · exact quiet timed inner
        · rw [List.mem_singleton.mp final]
          exact noLogout
      · exact ⟨commands, last, [], rfl, grants, nofun⟩

/-- In every run from a machine without a session, requests are made for an identity that was
granted after the last logout and does not expire within half a minute, or that Supabase gives
for the refresh token of such a one that does. -/
theorem requests_have_a_login (path : String) {commands : List (DateTime × AccountCommand)}
    {now : DateTime} {command : AccountCommand} {identity : Identity}
    (made : (command.run path now (sessionAfter path .missing commands)).1 = some identity) :
    ∃ current, GrantedSince commands current ∧
      (current.isExpiredAt now = false ∧ identity = current ∨
        current.isExpiredAt now = true ∧ ∃ exchange response, command = .sync exchange ∧
          exchange current.refreshToken = .ok response ∧
          identity = response.intoIdentity now ∧
          (command.run path now (sessionAfter path .missing commands)).2 = .stored identity) := by
  cases command with
  | login email signup => cases made
  | callback answer => cases answer <;> cases made
  | logout => cases made
  | sync exchange =>
      change (refreshIfNeeded path now exchange _).1.toOption = some identity at made
      by_cases held : ∃ current, sessionAfter path .missing commands = .stored current
      · obtain ⟨current, stored⟩ := held
        refine ⟨current, granted_of_stored stored, ?_⟩
        have done : (AccountCommand.sync exchange).run path now (.stored current) =
          ((refreshIfNeeded path now exchange (.stored current)).1.toOption,
            (refreshIfNeeded path now exchange (.stored current)).2) := rfl
        rw [stored] at made ⊢
        rw [done]
        rw [refreshIfNeeded_stored] at made ⊢
        cases expired : current.isExpiredAt now with
        | false =>
            rw [expired] at made
            exact Or.inl ⟨rfl, (Option.some.inj made).symm⟩
        | true =>
            rw [expired, if_pos rfl] at made
            rcases refresh_cases path now exchange current with
              ⟨_, _, failed⟩ | ⟨response, answered, renewed⟩
            · rw [failed] at made
              cases made
            · rw [renewed] at made
              have same := Option.some.inj made
              refine Or.inr ⟨rfl, exchange, response, rfl, answered, same.symm, ?_⟩
              rw [if_pos rfl, renewed, same]
      · obtain ⟨_, done⟩ := refreshIfNeeded_of_not_stored path now exchange
          fun current same => held ⟨current, same⟩
        rw [done] at made
        cases made

/-- A callback's token has run out when the next sync renews it. -/
theorem renewed_request_has_a_login :
    ∃ current, GrantedSince [(⟨0⟩, .callback (.ok ⟨"user-1", none, "old", "refresh", some ⟨0⟩⟩))]
        current ∧ current.isExpiredAt ⟨0⟩ = true := by
  obtain ⟨current, granted, (⟨_, same⟩ | ⟨expired, _⟩)⟩ := @requests_have_a_login "identity.json"
    [(⟨0⟩, .callback (.ok ⟨"user-1", none, "old", "refresh", some ⟨0⟩⟩))] ⟨0⟩
    (.sync fun _ => .ok ⟨"new", "refresh", none, none⟩) ⟨"", none, "new", "refresh", none⟩ rfl
  · obtain ⟨earlier, granting, later, split, grants, _⟩ := granted
    cases earlier with
    | nil =>
        cases split
        cases grants
        exact absurd same (by decide)
    | cons first rest => exact absurd (congrArg List.length split) (by simp)
  · exact ⟨current, granted, expired⟩

end Session

/-! ## Pushing all repos -/

/-- The repos of the events, in order and each once. -/
def LocalEventStore.repoIds (store : LocalEventStore) : List String :=
  (((store.events.rows.map BrickEventRow.repoId).filter fun repoId => repoId ≠ "").dedup).mergeSort
    fun first second => decide (first ≤ second)

def pushTargets (store : LocalEventStore) (currentRepoId : String) (allRepos : Bool) :
    List String :=
  if allRepos then
    store.repoIds.foldl
      (fun repoIds repoId => if repoId ∈ repoIds then repoIds else repoIds ++ [repoId])
      [currentRepoId]
  else [currentRepoId]

/-- The route of a repo; a blank id is that of all events. -/
def eventsRoute (repoId : String) : Option String := if repoId = "" then none else some repoId

/-- What becomes of a request: it is answered, its answer is lost, or it does not arrive. -/
inductive Delivery where
  | answered
  | answerLost
  | unsent

inductive PushError where
  | login (reason : String)
  | scope (failure : ScopeError)
  | remote (failure : SyncError)
  | unsent (repoId : String)
  | answerLost (repoId : String)

structure PushReport where
  acceptedCount : Nat
  duplicateCount : Nat
  eventCount : Nat

/-- The loop over the repos; repos without events take no request. -/
def pushLoop (store : LocalEventStore) (orgId : Option String) (server : NumberedStore) :
    List Delivery → List String → Except PushError (List PushReport) × NumberedStore
  | _, [] => (.ok [], server)
  | deliveries, repoId :: rest =>
      let events := collectPushEvents store (some repoId)
      if events.isEmpty then pushLoop store orgId server deliveries rest
      else
        match scopedEvents events (some repoId) orgId with
        | .error failure => (.error (.scope failure), server)
        | .ok scopedList =>
            let outcome := pushEventsToRemote server (eventsRoute repoId) scopedList
            match deliveries.headD .answered with
            | .unsent => (.error (.unsent repoId), server)
            | .answerLost => (.error (.answerLost repoId), outcome.2)
            | .answered =>
                match outcome.1 with
                | .error failure => (.error (.remote failure), outcome.2)
                | .ok response =>
                    let later := pushLoop store orgId outcome.2 deliveries.tail rest
                    (later.1.map fun reports =>
                      ⟨response.acceptedEventIds.length, response.duplicateEventIds.length,
                        scopedList.length⟩ :: reports, later.2)

/-- What a push finds of the account and of the network. -/
structure PushConditions where
  now : DateTime
  exchange : String → Except String TokenResponse
  deliveries : List Delivery

/-- `handle_push` without a dry run; a login that fails ends it before the first request. -/
def handlePush (path : String) (store : LocalEventStore) (currentRepoId : String)
    (orgId : Option String) (allRepos : Bool) (conditions : PushConditions)
    (machine : SessionFile × NumberedStore) :
    Except PushError (List PushReport) × SessionFile × NumberedStore :=
  let targets := pushTargets store currentRepoId allRepos
  match refreshIfNeeded path conditions.now conditions.exchange machine.1 with
  | (.error reason, file) => (.error (.login reason), file, machine.2)
  | (.ok _, file) =>
      let outcome := pushLoop store orgId machine.2 conditions.deliveries targets
      (outcome.1, file, outcome.2)

/-! ### What a push leaves on the server -/

/-- The log once the new ones of some events are appended. -/
def logWith (log : List LogLine) (events : List TraceEvent) : List LogLine :=
  log ++ (FirstSeen.fresh (·.eventId) (logIds log) events).map .event

theorem logIds_logWith (log : List LogLine) (events : List TraceEvent) :
    logIds (logWith log events) =
      logIds log ++ (FirstSeen.fresh (·.eventId) (logIds log) events).map (·.eventId) := by
  unfold logWith logIds
  rw [logEvents_append, logEvents_map_event, List.map_append]

theorem logWith_append (log : List LogLine) (first second : List TraceEvent) :
    logWith (logWith log first) second = logWith log (first ++ second) := by
  change logWith log first ++ List.map _ (FirstSeen.fresh _ (logIds (logWith log first)) second) = _
  rw [logIds_logWith]
  unfold logWith
  rw [FirstSeen.fresh_append_kept, List.map_append, List.append_assoc]

theorem logWith_of_stored {log : List LogLine} {events : List TraceEvent}
    (stored : ∀ event ∈ events, event.eventId ∈ logIds log) : logWith log events = log := by
  unfold logWith
  rw [FirstSeen.fresh_eq_nil _ stored, List.map_nil, List.append_nil]

theorem logWith_nil (log : List LogLine) : logWith log [] = log := logWith_of_stored (by simp)

theorem mem_logIds_logWith {log : List LogLine} {events : List TraceEvent} {eventId : Uuid} :
    eventId ∈ logIds (logWith log events) ↔
      eventId ∈ logIds log ∨ eventId ∈ events.map (·.eventId) := by
  rw [logIds_logWith, List.mem_append, FirstSeen.mem_fresh_keys]
  by_cases known : eventId ∈ logIds log <;> simp [known]

/-- Appending again what has been appended, in whatever part, changes nothing. -/
theorem logWith_again (log : List LogLine) {some all : List TraceEvent} (part : some ⊆ all) :
    logWith (logWith log all) some = logWith log all :=
  logWith_of_stored fun _ member =>
    mem_logIds_logWith.mpr (Or.inr (List.mem_map_of_mem (part member)))

theorem logWith_rest (log : List LogLine) {taken all : List TraceEvent} (isPrefix : taken <+: all) :
    logWith (logWith log taken) all = logWith log all := by
  obtain ⟨rest, rfl⟩ := isPrefix
  rw [← logWith_append, logWith_again log (List.Subset.refl taken), logWith_append]

theorem logWith_isPrefix (log : List LogLine) {taken all : List TraceEvent}
    (isPrefix : taken <+: all) : logWith log taken <+: logWith log all := by
  obtain ⟨rest, rfl⟩ := isPrefix
  rw [← logWith_append]
  exact List.prefix_append _ _

theorem nodup_logIds_logWith {log : List LogLine} (distinct : (logIds log).Nodup)
    (events : List TraceEvent) : (logIds (logWith log events)).Nodup := by
  rw [logIds_logWith, List.nodup_append]
  refine ⟨distinct, FirstSeen.nodup_fresh_keys _ _ _, ?_⟩
  rintro eventId isHeld _ isFresh rfl
  exact ((FirstSeen.mem_fresh_keys _).mp isFresh).1 isHeld

section Push
variable {store : LocalEventStore} {orgId : Option String}

/-- The events that the request of a repo carries. -/
def requested (store : LocalEventStore) (orgId : Option String) (repoId : String) :
    List TraceEvent :=
  (scopedEvents (collectPushEvents store (some repoId)) (some repoId) orgId).toOption.getD []

theorem requested_spec {repoId : String} {scopedList : List TraceEvent}
    (scoping : scopedEvents (collectPushEvents store (some repoId)) (some repoId) orgId =
      .ok scopedList) :
    requested store orgId repoId = scopedList ∧
      (∀ event ∈ scopedList, event.repoId = some repoId) ∧
      scopedList.map (·.eventId) = store.knownEventIds repoId := by
  have named : ∀ event ∈ collectPushEvents store (some repoId), event.repoId = some repoId :=
    fun _ => repoId_of_mem_collected
  obtain ⟨org, rfl⟩ := scopedEvents_of_named named scoping
  refine ⟨?_, ?_, ?_⟩
  · unfold requested
    rw [scoping]
    rfl
  · intro event member
    obtain ⟨collected, isCollected, rfl⟩ := List.mem_map.mp member
    exact named collected isCollected
  · rw [← collected_ids, List.map_map]
    rfl

theorem requested_of_none {repoId : String}
    (nothing : (collectPushEvents store (some repoId)).isEmpty = true) :
    requested store orgId repoId = [] := by
  unfold requested
  cases scoping : scopedEvents (collectPushEvents store (some repoId)) (some repoId) orgId with
  | error failure => rfl
  | ok scopedList =>
      obtain ⟨_, _, ids⟩ := requested_spec scoping
      rw [← collected_ids, List.isEmpty_iff.mp nothing] at ids
      exact List.map_eq_nil_iff.mp ids

theorem newEvents_of_named (server : ServerStore) {repoId : String} {events : List TraceEvent}
    (named : ∀ event ∈ events, event.repoId = some repoId) :
    (∀ event ∈ events, FitsRepo (eventsRoute repoId) event) ∧
      server.newEvents (eventsRoute repoId) events =
        FirstSeen.fresh (·.eventId) (logIds server.eventLog) events := by
  have fits : ∀ event ∈ events, FitsRepo (eventsRoute repoId) event := by
    intro event member route other isRoute isNamed
    unfold eventsRoute at isRoute
    split at isRoute
    · cases isRoute
    · rw [named event member] at isNamed
      exact (Option.some.inj isNamed).symm.trans (Option.some.inj isRoute)
  refine ⟨fits, ?_⟩
  rw [ServerStore.newEvents_of_fits server fits]
  refine (List.map_congr_left fun event member => ?_).trans (List.map_id _)
  exact fillRepo_of_named _
    (named event ((FirstSeen.fresh_sublist _ _ _).subset member))

/-- A request that arrives is stored whole, where the log has room for it. -/
theorem push_request (server : NumberedStore) {repoId : String} {events : List TraceEvent}
    (named : ∀ event ∈ events, event.repoId = some repoId) :
    let outcome := pushEventsToRemote server (eventsRoute repoId) events
    ((logWith server.eventLog events).length < 2 ^ 64 ∧ (∃ response, outcome.1 = .ok response) ∧
        outcome.2.eventLog = logWith server.eventLog events) ∨
      (¬ (logWith server.eventLog events).length < 2 ^ 64 ∧ outcome = (.error .logFull, server)) := by
  obtain ⟨fits, fresh⟩ := newEvents_of_named server.toServerStore named
  have log : (server.appendEventsForRepo (eventsRoute repoId) events).2.eventLog =
      logWith server.eventLog events := by
    rw [ServerStore.appendEventsForRepo_eventLog, fresh]
    rfl
  unfold pushEventsToRemote
  dsimp only
  by_cases room : (logWith server.eventLog events).length < 2 ^ 64
  · have countable := room
    rw [← log] at countable
    rw [dif_pos countable]
    have answered := congrArg Prod.fst
      (ServerStore.appendEventsForRepo_of_fits server.toServerStore fits)
    exact Or.inl ⟨room, ⟨_, congrArg (Except.mapError SyncError.server) answered⟩, log⟩
  · have full := room
    rw [← log] at full
    rw [dif_neg full]
    exact Or.inr ⟨room, rfl⟩

/-- Nothing keeps the repo's events from being sent. -/
def Sendable (store : LocalEventStore) (orgId : Option String) (repoId : String) : Prop :=
  (collectPushEvents store (some repoId)).isEmpty = true ∨
    ∃ scopedList,
      scopedEvents (collectPushEvents store (some repoId)) (some repoId) orgId = .ok scopedList

theorem pushLoop_of_none {server : NumberedStore} {deliveries : List Delivery} {repoId : String}
    {rest : List String} (nothing : (collectPushEvents store (some repoId)).isEmpty = true) :
    pushLoop store orgId server deliveries (repoId :: rest) =
      pushLoop store orgId server deliveries rest := by
  conv_lhs => unfold pushLoop
  exact if_pos nothing

theorem pushLoop_of_scoped {server : NumberedStore} {deliveries : List Delivery} {repoId : String}
    {rest : List String} {scopedList : List TraceEvent}
    (something : (collectPushEvents store (some repoId)).isEmpty = false)
    (scoping : scopedEvents (collectPushEvents store (some repoId)) (some repoId) orgId =
      .ok scopedList) :
    pushLoop store orgId server deliveries (repoId :: rest) =
      let outcome := pushEventsToRemote server (eventsRoute repoId) scopedList
      match deliveries.headD .answered with
      | .unsent => (.error (.unsent repoId), server)
      | .answerLost => (.error (.answerLost repoId), outcome.2)
      | .answered =>
          match outcome.1 with
          | .error failure => (.error (.remote failure), outcome.2)
          | .ok response =>
              let later := pushLoop store orgId outcome.2 deliveries.tail rest
              (later.1.map fun reports =>
                ⟨response.acceptedEventIds.length, response.duplicateEventIds.length,
                  scopedList.length⟩ :: reports, later.2) := by
  conv_lhs => unfold pushLoop
  dsimp only
  rw [if_neg (by rw [something]; decide), scoping]

/-- A push leaves the events of the first of its repos on the server, and where it succeeds
those of all. -/
theorem pushLoop_log (store : LocalEventStore) (orgId : Option String) (server : NumberedStore)
    (deliveries : List Delivery) (targets : List String) :
    ∃ taken, taken <+: targets ∧
      (pushLoop store orgId server deliveries targets).2.eventLog =
        logWith server.eventLog (taken.flatMap (requested store orgId)) ∧
      ∀ reports, (pushLoop store orgId server deliveries targets).1 = .ok reports →
        taken = targets ∧ ∀ repoId ∈ targets, Sendable store orgId repoId := by
  induction targets generalizing server deliveries with
  | nil => exact ⟨[], List.prefix_refl _, (logWith_nil _).symm, fun _ _ => ⟨rfl, nofun⟩⟩
  | cons repoId rest ih =>
      -- nothing of the repo is stored
      have untouched (failure : PushError) : ∃ taken, taken <+: repoId :: rest ∧
          server.eventLog = logWith server.eventLog (taken.flatMap (requested store orgId)) ∧
            ∀ reports : List PushReport, Except.error failure = Except.ok reports →
              taken = repoId :: rest ∧ ∀ other ∈ repoId :: rest, Sendable store orgId other :=
        ⟨[], List.nil_prefix, (logWith_nil _).symm, nofun⟩
      cases something : (collectPushEvents store (some repoId)).isEmpty with
      | true =>
          obtain ⟨taken, isPrefix, log, whole⟩ := ih server deliveries
          rw [pushLoop_of_none something]
          refine ⟨repoId :: taken, List.cons_prefix_cons.mpr ⟨rfl, isPrefix⟩, ?_, ?_⟩
          · rw [log, List.flatMap_cons, requested_of_none something, List.nil_append]
          · intro reports ok
            obtain ⟨rfl, sendable⟩ := whole reports ok
            exact ⟨rfl, List.forall_mem_cons.mpr ⟨Or.inl something, sendable⟩⟩
      | false =>
          cases scoping : scopedEvents (collectPushEvents store (some repoId)) (some repoId) orgId with
          | error failure =>
              have done : pushLoop store orgId server deliveries (repoId :: rest) =
                  (.error (.scope failure), server) := by
                unfold pushLoop
                dsimp only
                rw [if_neg (by rw [something]; decide), scoping]
              rw [done]
              exact untouched (.scope failure)
          | ok scopedList =>
              obtain ⟨isRequested, named, _⟩ := requested_spec scoping
              have single : [repoId].flatMap (requested store orgId) = scopedList := by
                rw [List.flatMap_singleton, isRequested]
              rw [pushLoop_of_scoped something scoping]
              dsimp only
              rcases push_request server named with ⟨_, ⟨response, answered⟩, stored⟩ | ⟨_, full⟩
              · cases deliveries.headD .answered with
                | unsent => exact untouched (.unsent repoId)
                | answerLost =>
                    refine ⟨[repoId], List.cons_prefix_cons.mpr ⟨rfl, List.nil_prefix⟩, ?_, nofun⟩
                    rw [single]
                    exact stored
                | answered =>
                    dsimp only
                    rw [answered]
                    dsimp only
                    obtain ⟨taken, isPrefix, log, whole⟩ := ih
                      (pushEventsToRemote server (eventsRoute repoId) scopedList).2 deliveries.tail
                    refine ⟨repoId :: taken, List.cons_prefix_cons.mpr ⟨rfl, isPrefix⟩, ?_, ?_⟩
                    · rw [log, stored, logWith_append, List.flatMap_cons, isRequested]
                    · intro reports ok
                      cases later : (pushLoop store orgId
                          (pushEventsToRemote server (eventsRoute repoId) scopedList).2
                            deliveries.tail rest).1 with
                      | error failure =>
                          rw [later] at ok
                          cases ok
                      | ok others =>
                          obtain ⟨rfl, sendable⟩ := whole others later
                          exact ⟨rfl, List.forall_mem_cons.mpr ⟨Or.inr ⟨_, scoping⟩, sendable⟩⟩
              · rw [full]
                cases deliveries.headD .answered with
                | unsent => exact untouched (.unsent repoId)
                | answerLost => exact untouched (.answerLost repoId)
                | answered => exact untouched (.remote .logFull)

/-- A push without losses goes through where nothing keeps the events from being sent and the
log has room for them. -/
theorem pushLoop_ok {server : NumberedStore} {targets : List String}
    (sendable : ∀ repoId ∈ targets, Sendable store orgId repoId)
    (room : (logWith server.eventLog
      (targets.flatMap (requested store orgId))).length < 2 ^ 64) :
    ∃ reports, (pushLoop store orgId server [] targets).1 = .ok reports := by
  induction targets generalizing server with
  | nil => exact ⟨[], rfl⟩
  | cons repoId rest ih =>
      obtain ⟨first, others⟩ := List.forall_mem_cons.mp sendable
      cases something : (collectPushEvents store (some repoId)).isEmpty with
      | true =>
          rw [pushLoop_of_none something]
          refine ih others ?_
          rwa [List.flatMap_cons, requested_of_none something, List.nil_append] at room
      | false =>
          rcases first with nothing | ⟨scopedList, scoping⟩
          · rw [something] at nothing
            cases nothing
          · obtain ⟨isRequested, named, _⟩ := requested_spec scoping
            rw [List.flatMap_cons, isRequested] at room
            have roomFirst : (logWith server.eventLog scopedList).length < 2 ^ 64 :=
              Nat.lt_of_le_of_lt
                (logWith_isPrefix server.eventLog (List.prefix_append _ _)).length_le room
            rw [pushLoop_of_scoped something scoping]
            rcases push_request server named with ⟨_, ⟨response, answered⟩, stored⟩ | ⟨noRoom, _⟩
            · dsimp only [List.headD_nil, List.tail_nil]
              rw [answered]
              have roomRest := room
              rw [← logWith_append, ← stored] at roomRest
              obtain ⟨reports, ok⟩ := ih others roomRest
              dsimp only
              rw [ok]
              exact ⟨_, rfl⟩
            · exact absurd roomFirst noRoom

/-! ### Running a push again -/

theorem mem_pushTargets {currentRepoId : String} {allRepos : Bool} {repoId : String}
    (target : repoId = currentRepoId ∨ allRepos = true ∧ repoId ∈ store.repoIds) :
    repoId ∈ pushTargets store currentRepoId allRepos := by
  have collects (repoIds held : List String) (member : repoId ∈ held ∨ repoId ∈ repoIds) :
      repoId ∈ repoIds.foldl
        (fun repoIds repoId => if repoId ∈ repoIds then repoIds else repoIds ++ [repoId]) held := by
    induction repoIds generalizing held with
    | nil => exact member.resolve_right (List.not_mem_nil)
    | cons first rest ih =>
        refine ih _ ?_
        dsimp only
        rcases member with isHeld | isLater
        · refine Or.inl ?_
          split
          · exact isHeld
          · exact List.mem_append_left _ isHeld
        · rcases List.mem_cons.mp isLater with rfl | later
          · refine Or.inl ?_
            split
            · assumption
            · exact List.mem_append_right _ (List.mem_singleton_self _)
          · exact Or.inr later
  unfold pushTargets
  split
  · refine collects _ _ ?_
    rcases target with same | ⟨_, member⟩
    · exact Or.inl (List.mem_singleton.mpr same)
    · exact Or.inr member
  · rcases target with same | ⟨all, _⟩
    · exact List.mem_singleton.mpr same
    · contradiction

theorem mem_repoIds {row : BrickEventRow} (member : row ∈ store.events.rows)
    (named : row.repoId ≠ "") : row.repoId ∈ store.repoIds := by
  unfold LocalEventStore.repoIds
  rw [List.mem_mergeSort, List.mem_dedup, List.mem_filter]
  exact ⟨List.mem_map_of_mem member, by simpa using named⟩

/-- The machine after pushes that may fail. -/
def afterPushes (path : String) (store : LocalEventStore) (currentRepoId : String)
    (orgId : Option String) (allRepos : Bool) (machine : SessionFile × NumberedStore)
    (attempts : List PushConditions) : SessionFile × NumberedStore :=
  attempts.foldl (fun machine conditions =>
    (handlePush path store currentRepoId orgId allRepos conditions machine).2) machine

theorem handlePush_cases (path : String) (store : LocalEventStore) (currentRepoId : String)
    (orgId : Option String) (allRepos : Bool) (conditions : PushConditions)
    (machine : SessionFile × NumberedStore) :
    ((∃ failure,
        (handlePush path store currentRepoId orgId allRepos conditions machine).1 = .error failure) ∧
      (handlePush path store currentRepoId orgId allRepos conditions machine).2.2 = machine.2) ∨
    ((handlePush path store currentRepoId orgId allRepos conditions machine).1 =
        (pushLoop store orgId machine.2 conditions.deliveries
          (pushTargets store currentRepoId allRepos)).1 ∧
      (handlePush path store currentRepoId orgId allRepos conditions machine).2.2 =
        (pushLoop store orgId machine.2 conditions.deliveries
          (pushTargets store currentRepoId allRepos)).2) := by
  unfold handlePush
  dsimp only
  split
  · exact Or.inl ⟨⟨_, rfl⟩, rfl⟩
  · exact Or.inr ⟨rfl, rfl⟩

theorem afterPushes_log (path : String) (store : LocalEventStore) (currentRepoId : String)
    (orgId : Option String) (allRepos : Bool) (machine : SessionFile × NumberedStore)
    (attempts : List PushConditions) :
    ∃ taken, taken <+: pushTargets store currentRepoId allRepos ∧
      (afterPushes path store currentRepoId orgId allRepos machine attempts).2.eventLog =
        logWith machine.2.eventLog (taken.flatMap (requested store orgId)) := by
  induction attempts using List.reverseRecOn with
  | nil => exact ⟨[], List.nil_prefix, (logWith_nil _).symm⟩
  | append_singleton attempts last ih =>
      obtain ⟨taken, isPrefix, log⟩ := ih
      unfold afterPushes
      rw [List.foldl_append]
      rcases handlePush_cases path store currentRepoId orgId allRepos last
        (afterPushes path store currentRepoId orgId allRepos machine attempts) with
        ⟨_, untouched⟩ | ⟨_, pushed⟩
      · exact ⟨taken, isPrefix, (congrArg (·.eventLog) untouched).trans log⟩
      · obtain ⟨more, morePrefix, moreLog, _⟩ := pushLoop_log store orgId
          (afterPushes path store currentRepoId orgId allRepos machine attempts).2 last.deliveries
          (pushTargets store currentRepoId allRepos)
        have final := (congrArg (·.eventLog) pushed).trans moreLog
        rw [log] at final
        rcases List.prefix_or_prefix_of_prefix isPrefix morePrefix with grows | shrinks
        · refine ⟨more, morePrefix, final.trans (logWith_rest _ ?_)⟩
          obtain ⟨rest, rfl⟩ := grows
          rw [List.flatMap_append]
          exact List.prefix_append _ _
        · refine ⟨taken, isPrefix, final.trans (logWith_again _ ?_)⟩
          obtain ⟨rest, rfl⟩ := shrinks
          rw [List.flatMap_append]
          exact List.subset_append_left _ _

/-- However many pushes were cut short before, and wherever, by a lost request or answer or by
a login that failed: a push that succeeds leaves the log that a single push without losses would
have left.  Every event of its repos is then stored, and no id twice. -/
theorem retried_push_is_one_push (path : String) (store : LocalEventStore)
    (currentRepoId : String) (orgId : Option String) (allRepos : Bool)
    (machine : SessionFile × NumberedStore) (attempts : List PushConditions)
    (last : PushConditions) {reports : List PushReport}
    (succeeded : (handlePush path store currentRepoId orgId allRepos last
      (afterPushes path store currentRepoId orgId allRepos machine attempts)).1 = .ok reports) :
    let final := (handlePush path store currentRepoId orgId allRepos last
      (afterPushes path store currentRepoId orgId allRepos machine attempts)).2.2
    let once := pushLoop store orgId machine.2 [] (pushTargets store currentRepoId allRepos)
    (∃ onceReports, once.1 = .ok onceReports) ∧
      final.eventLog = once.2.eventLog ∧
      (∀ row ∈ store.events.rows,
        row.repoId = currentRepoId ∨ allRepos = true ∧ row.repoId ≠ "" →
          row.eventId ∈ logIds final.eventLog) ∧
      ((logIds machine.2.eventLog).Nodup → (logIds final.eventLog).Nodup) := by
  intro final once
  obtain ⟨taken, isPrefix, before⟩ := afterPushes_log path store currentRepoId orgId allRepos
    machine attempts
  obtain ⟨⟨failure, failed⟩, _⟩ | ⟨answer, pushed⟩ := handlePush_cases path store currentRepoId
    orgId allRepos last (afterPushes path store currentRepoId orgId allRepos machine attempts)
  · exact nomatch failed.symm.trans succeeded
  obtain ⟨more, _, after, whole⟩ := pushLoop_log store orgId
    (afterPushes path store currentRepoId orgId allRepos machine attempts).2 last.deliveries
    (pushTargets store currentRepoId allRepos)
  obtain ⟨rfl, sendable⟩ := whole reports (answer.symm.trans succeeded)
  have log : final.eventLog = logWith machine.2.eventLog
      ((pushTargets store currentRepoId allRepos).flatMap (requested store orgId)) := by
    have eventLog : final.eventLog = _ := (congrArg (·.eventLog) pushed).trans after
    rw [eventLog, before]
    refine logWith_rest _ ?_
    obtain ⟨rest, same⟩ := isPrefix
    rw [← same, List.flatMap_append]
    exact List.prefix_append _ _
  have onceOk : ∃ onceReports, once.1 = .ok onceReports :=
    pushLoop_ok sendable (log ▸ final.countable)
  refine ⟨onceOk, ?_, fun row member ofTarget => ?_, fun distinct => ?_⟩
  · obtain ⟨onceReports, ok⟩ := onceOk
    obtain ⟨whole, _, onceLog, all⟩ := pushLoop_log store orgId machine.2 []
      (pushTargets store currentRepoId allRepos)
    obtain ⟨rfl, _⟩ := all onceReports ok
    rw [log]
    exact onceLog.symm
  · have target : row.repoId ∈ pushTargets store currentRepoId allRepos :=
      mem_pushTargets (ofTarget.imp_right fun ⟨all, named⟩ => ⟨all, mem_repoIds member named⟩)
    have known : row.eventId ∈ store.knownEventIds row.repoId :=
      LocalEventStore.mem_knownEventIds.mpr ⟨row, member, rfl, rfl⟩
    rw [log]
    refine mem_logIds_logWith.mpr (Or.inr ?_)
    rcases sendable row.repoId target with nothing | ⟨scopedList, scoping⟩
    · rw [← collected_ids, List.isEmpty_iff.mp nothing] at known
      cases known
    · obtain ⟨isRequested, _, ids⟩ := requested_spec scoping
      rw [← ids, ← isRequested] at known
      obtain ⟨event, inRequest, same⟩ := List.mem_map.mp known
      exact List.mem_map.mpr ⟨event, List.mem_flatMap.mpr ⟨row.repoId, target, inRequest⟩, same⟩
  · rw [log]
    exact nodup_logIds_logWith distinct _

end Push

/-! ### A push whose answer was lost -/

def soonExpired : Identity := ⟨"user-1", none, "token", "refresh", some ⟨0⟩⟩

def renewing (_ : String) : Except String TokenResponse := .ok ⟨"renewed", "refresh", none, none⟩

def oneEvent : LocalEventStore where
  path := "brick.sqlite"
  events := ⟨[⟨⟨1⟩, "repo-a", none, "2026-01-01T00:00:00+00:00",
    pushedEvent 1 (some "repo-a") none, rfl, rfl⟩], by decide⟩
  chunks := .empty

def emptyServer : NumberedStore := { toServerStore := ServerStore.new, countable := by decide }

/-- The answer to the first push is lost after the server has stored its event. -/
theorem push_after_lost_answer :
    let machine := afterPushes "identity.json" oneEvent "repo-a" none false
      (.stored soonExpired, emptyServer) [⟨⟨0⟩, renewing, [.answerLost]⟩]
    let final := (handlePush "identity.json" oneEvent "repo-a" none false
      ⟨⟨0⟩, renewing, []⟩ machine).2.2
    final.eventLog = (pushLoop oneEvent none emptyServer []
      (pushTargets oneEvent "repo-a" false)).2.eventLog :=
  (@retried_push_is_one_push "identity.json" oneEvent "repo-a" none false
    (.stored soonExpired, emptyServer) [⟨⟨0⟩, renewing, [.answerLost]⟩] ⟨⟨0⟩, renewing, []⟩
    [⟨0, 1, 1⟩] rfl).2.1

end BrickTrace
