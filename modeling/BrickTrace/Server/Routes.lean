import BrickTrace.Server.Index
import BrickTrace.Server.Members
import BrickTrace.Protocol.Text

/-!
# Routes of the server

The bearer-token gate, the checks that handlers make, and the handlers of the
event, status and session routes.  A handler answers with a body, with an error
response, or not at all when it panics.
-/

set_option autoImplicit false

namespace BrickTrace

inductive StatusCode where
  | badRequest
  | unauthorized
  | forbidden
  | internalServerError
deriving DecidableEq

structure ErrorResponse where
  status : StatusCode
  message : String
deriving DecidableEq

inductive Failure where
  | response (error : ErrorResponse)
  | panic
deriving DecidableEq

def unauthorized : Failure :=
  .response ⟨.unauthorized, "missing or invalid bearer token"⟩

def forbidden : Failure :=
  .response ⟨.forbidden, "token not permitted for this resource"⟩

def routeError (message : String) : Failure :=
  if containsText message "repo_id" || containsText message "cursor" then
    .response ⟨.badRequest, message⟩
  else .response ⟨.internalServerError, "internal server error"⟩

/-- An overflow of a checked addition is a panic, not an error value. -/
def buildFailure : BuildError → Failure
  | .overflow => .panic
  | .payload eventId eventType => routeError (BuildError.payload eventId eventType).message

/-! ## The gate -/

/-- The token table, and how external access tokens are decoded where they are accepted. -/
structure AuthConfig where
  tokens : TokenStore
  supabase : Option (String → Option SupabaseClaims)

namespace AuthConfig

def needsOrgResolution (config : AuthConfig) : Bool := config.tokens.hasOrgScope

def authorize (hashToken : String → String) (now : DateTime) (config : AuthConfig)
    (token : String) (target : ResourceTarget) (required : Access) :
    Except AuthDenial AuthedIdentity :=
  match config.tokens.authorizeAt hashToken token target required now with
  | .ok identity => .ok identity
  | .error .unknownToken =>
      match config.supabase with
      | none => .error .unknownToken
      | some decode =>
          match verifySupabase decode token with
          | .error denial => .error denial
          | .ok identity =>
              match target with
              | .repo _ _ => .ok identity
              | .global => .error .forbidden
  | .error denial => .error denial

end AuthConfig

structure RequestHead where
  method : Method
  path : String
  authorization : Option String

/-- The token of an `Authorization` header. -/
def bearerToken (head : RequestHead) : Option String :=
  head.authorization.bind fun value =>
    (value.toList.dropPrefix? "Bearer ".toList).map fun rest => String.ofList rest

def resourceTargetForPath (path : String) (needsOrgResolution : Bool) (store : ServerStore) :
    ResourceTarget × ServerStore :=
  match repoIdForPath path with
  | some repoId =>
      if needsOrgResolution then
        let (orgId, store) := store.resolveRepoOrg repoId
        (.repo repoId orgId, store)
      else (.repo repoId none, store)
  | none => (.global, store)

def requireBearerToken (hashToken : String → String) (now : DateTime) (config : AuthConfig)
    (head : RequestHead) (store : ServerStore) : Except Failure AuthedIdentity × ServerStore :=
  match bearerToken head with
  | none => (.error unauthorized, store)
  | some token =>
      let (target, store) := resourceTargetForPath head.path config.needsOrgResolution store
      match config.authorize hashToken now token target (requiredAccess head.method) with
      | .ok identity => (.ok identity, store)
      | .error .unknownToken => (.error unauthorized, store)
      | .error .expired => (.error unauthorized, store)
      | .error .forbidden => (.error forbidden, store)

/-! ## Checks of the handlers -/

def notAMember : Failure :=
  .response ⟨.forbidden, "repo belongs to an org this Supabase user is not a member of"⟩

def noOrgToClaim : Failure :=
  .response ⟨.forbidden, "repo has no org binding yet; push at least one event tagged with an " ++
    "org_id this user belongs to"⟩

def notBound : Failure := .response ⟨.forbidden, "repo has not been bound to an org"⟩

def orgTexts (events : List TraceEvent) : List String :=
  events.filterMap fun event => event.orgId.map (·.text)

def enforceRepoMember (identity : Option AuthedIdentity) (store : ServerStore) (repoId : String)
    (claimIfMissing : Bool) (events : List TraceEvent) : Except Failure Unit × ServerStore :=
  match identity.map (·.kind) with
  | some (AuthKind.supabase userId _) =>
      match store.resolveRepoOrg repoId with
      | (some orgId, store) =>
          match store.isOrgMember orgId userId with
          | (true, store) => (.ok (), store)
          | (false, store) => (.error notAMember, store)
      | (none, store) =>
          if claimIfMissing then
            match store.findMemberOrg userId (orgTexts events) with
            | (some orgId, store) => (.ok (), store.claimRepoOrg repoId orgId)
            | (none, store) => (.error noOrgToClaim, store)
          else (.error notBound, store)
  | _ => (.ok (), store)

section Handlers
variable (debugText : String → String)

def actorMismatch (event : TraceEvent) (bound : String) : Failure :=
  .response ⟨.forbidden, "event " ++ event.eventId.text ++ " actor_id " ++
    debugText event.actor.actorId ++ " does not match token's bound actor " ++ debugText bound⟩

/-- The first event of another actor is refused. -/
def enforceActorBinding (identity : Option AuthedIdentity) (events : List TraceEvent) :
    Except Failure Unit :=
  match identity.bind (·.actorId) with
  | none => .ok ()
  | some bound =>
      match events.find? fun event => event.actor.actorId ≠ bound with
      | some event => .error (actorMismatch debugText event bound)
      | none => .ok ()

/-! ## Handlers -/

structure ListEventsQuery where
  after : Option String
  limit : Option Nat
  repoId : Option String

def storeResult {A : Type} : Except StoreError A → Except Failure A
  | .ok value => .ok value
  | .error failure => .error (routeError (failure.message debugText))

def listEvents (store : ServerStore) (query : ListEventsQuery) :
    Except Failure ListEventsResponse :=
  storeResult debugText (store.listEventsPage query.repoId query.after query.limit)

def listRepoEvents (store : ServerStore) (repoId : String) (identity : Option AuthedIdentity)
    (query : ListEventsQuery) : Except Failure ListEventsResponse × ServerStore :=
  match enforceRepoMember identity store repoId false [] with
  | (.error failure, store) => (.error failure, store)
  | (.ok (), store) =>
      (storeResult debugText (store.listEventsPage (some repoId) query.after query.limit), store)

def pushEvents (store : ServerStore) (identity : Option AuthedIdentity)
    (events : List TraceEvent) : Except Failure PushEventsResponse × ServerStore :=
  match enforceActorBinding debugText identity events with
  | .error failure => (.error failure, store)
  | .ok () =>
      let (response, store) := store.appendEvents events
      (storeResult debugText response, store)

def pushRepoEvents (store : ServerStore) (repoId : String) (identity : Option AuthedIdentity)
    (events : List TraceEvent) : Except Failure PushEventsResponse × ServerStore :=
  match enforceRepoMember identity store repoId true events with
  | (.error failure, store) => (.error failure, store)
  | (.ok (), store) =>
      match enforceActorBinding debugText identity events with
      | .error failure => (.error failure, store)
      | .ok () =>
          let (response, store) := store.appendEventsForRepo (some repoId) events
          (storeResult debugText response, store)

end Handlers

section Queries
variable (mode : OverflowMode) (now : DateTime)

def serverIndex (store : ServerStore) (repoId : Option String) : Except Failure TraceIndex :=
  match rebuildServerIndex mode now repoId (store.readEventsForRepo repoId) with
  | .ok index => .ok index
  | .error failure => .error (buildFailure failure)

def indexStatusResponse (store : ServerStore) (repoId : Option String) :
    Except Failure ServerIndexStatus := do
  let index ← serverIndex mode now store repoId
  return serverIndexStatus repoId index

def sessionsResponse (store : ServerStore) (repoId : Option String) (query : ServerSessionQuery) :
    Except Failure ServerSessionsResponse := do
  let index ← serverIndex mode now store repoId
  return queryServerSessions repoId index query

def globalIndexStatus (store : ServerStore) : Except Failure ServerIndexStatus :=
  indexStatusResponse mode now store none

def repoIndexStatus (store : ServerStore) (repoId : String) : Except Failure ServerIndexStatus :=
  indexStatusResponse mode now store (some repoId)

def globalSessions (store : ServerStore) (query : ServerSessionQuery) :
    Except Failure ServerSessionsResponse :=
  sessionsResponse mode now store none query

def repoSessions (store : ServerStore) (repoId : String) (query : ServerSessionQuery) :
    Except Failure ServerSessionsResponse :=
  sessionsResponse mode now store (some repoId) query

end Queries

/-! ## The repo-scoped routes behind the gate -/

inductive RepoRoute where
  | pushEvents (events : List TraceEvent)
  | listEvents (query : ListEventsQuery)
  | indexStatus
  | sessions (query : ServerSessionQuery)

inductive RepoBody where
  | pushed (response : PushEventsResponse)
  | listed (response : ListEventsResponse)
  | status (response : ServerIndexStatus)
  | sessions (response : ServerSessionsResponse)

/-- What the server is started with. -/
structure ServerEnv where
  mode : OverflowMode
  debugText : String → String
  hashToken : String → String
  auth : Option AuthConfig

def handleRepoRoute (env : ServerEnv) (now : DateTime) (store : ServerStore) (repoId : String)
    (identity : Option AuthedIdentity) : RepoRoute → Except Failure RepoBody × ServerStore
  | .pushEvents events =>
      let (result, store) := pushRepoEvents env.debugText store repoId identity events
      (result.map .pushed, store)
  | .listEvents query =>
      let (result, store) := listRepoEvents env.debugText store repoId identity query
      (result.map .listed, store)
  | .indexStatus => ((repoIndexStatus env.mode now store repoId).map .status, store)
  | .sessions query => ((repoSessions env.mode now store repoId query).map .sessions, store)

/-- A request to a repo-scoped route; `repoId` is the decoded segment of the path. -/
def serveRepoRoute (env : ServerEnv) (now : DateTime) (store : ServerStore) (head : RequestHead)
    (repoId : String) (route : RepoRoute) : Except Failure RepoBody × ServerStore :=
  match env.auth with
  | none => handleRepoRoute env now store repoId none route
  | some config =>
      match requireBearerToken env.hashToken now config head store with
      | (.error failure, store) => (.error failure, store)
      | (.ok identity, store) => handleRepoRoute env now store repoId (some identity) route

end BrickTrace
