import BrickTrace.Protocol.Event

/-!
# Token authorization

A token table with scopes and access levels, and identities verified from
external access tokens.  The hash of a token and the decoding of an external
access token are parameters.
-/

set_option autoImplicit false

namespace BrickTrace

inductive Access where
  | read
  | write
deriving DecidableEq

/-- Write access implies read access. -/
def Access.permits : Access → Access → Bool
  | .write, _ => true
  | .read, .read => true
  | .read, .write => false

inductive Scope where
  | all
  | org (id : String)
  | repo (id : String)
deriving DecidableEq

inductive ResourceTarget where
  | repo (repoId : String) (orgId : Option String)
  | global
deriving DecidableEq

def scopeMatches : Scope → ResourceTarget → Bool
  | .all, _ => true
  | .repo allowed, .repo repoId _ => allowed == repoId
  | .org allowed, .repo _ orgId => orgId == some allowed
  | .org _, .global => false
  | .repo _, .global => false

structure TokenRecord where
  label : String
  tokenSha256 : String
  scopes : List Scope
  access : Access
  expiresAt : Option DateTime
  actorId : Option String

namespace TokenRecord

def authorizes (record : TokenRecord) (target : ResourceTarget) (required : Access) : Bool :=
  record.access.permits required && record.scopes.any fun scope => scopeMatches scope target

def isExpired (record : TokenRecord) (now : DateTime) : Bool :=
  match record.expiresAt with
  | some expiry => decide (expiry.nanoseconds ≤ now.nanoseconds)
  | none => false

end TokenRecord

inductive AuthKind where
  | localToken
  | supabase (userId : String) (email : Option String)
deriving DecidableEq

/-- The identity of an authorized request.  Only a local token binds an actor. -/
structure AuthedIdentity where
  label : String
  actorId : Option String
  kind : AuthKind
  supabaseUnbound : ∀ userId email, kind = .supabase userId email → actorId = none

inductive AuthDenial where
  | unknownToken
  | expired
  | forbidden
deriving DecidableEq

structure TokenStore where
  tokens : List TokenRecord

namespace TokenStore

def hasOrgScope (store : TokenStore) : Bool :=
  store.tokens.any fun token => token.scopes.any fun scope =>
    match scope with
    | .org _ => true
    | _ => false

def lookup (hashToken : String → String) (store : TokenStore) (plaintext : String) :
    Option TokenRecord :=
  store.tokens.find? fun token => token.tokenSha256 == hashToken plaintext

def authorizeAt (hashToken : String → String) (store : TokenStore) (plaintext : String)
    (target : ResourceTarget) (required : Access) (now : DateTime) :
    Except AuthDenial AuthedIdentity :=
  match store.lookup hashToken plaintext with
  | none => .error .unknownToken
  | some record =>
      if record.isExpired now then .error .expired
      else if record.authorizes target required then
        .ok
          { label := record.label
            actorId := record.actorId
            kind := .localToken
            supabaseUnbound := fun _ _ same => nomatch same }
      else .error .forbidden

end TokenStore

structure SupabaseClaims where
  sub : String
  email : Option String

/-- `SupabaseJwtVerifier.verify`; `decode` checks the signature, the issuer and the
expiry of a token and reads its claims. -/
def verifySupabase (decode : String → Option SupabaseClaims) (token : String) :
    Except AuthDenial AuthedIdentity :=
  match decode token with
  | none => .error .unknownToken
  | some claims =>
      if isBlank claims.sub then .error .unknownToken
      else
        .ok
          { label := "supabase:" ++ claims.sub
            actorId := none
            kind := .supabase claims.sub claims.email
            supabaseUnbound := fun _ _ _ => rfl }

inductive Method where
  | get
  | head
  | options
  | post
  | put
  | patch
  | delete
deriving DecidableEq

def requiredAccess : Method → Access
  | .get | .head | .options => .read
  | _ => .write

/-- The repo id of a path `/v1/repos/<repo_id>/...`. -/
def repoIdForPath (path : String) : Option String :=
  match (path.toList.dropWhile (· == '/')).splitOn '/' with
  | version :: collection :: repoId :: _ =>
      if version = "v1".toList ∧ collection = "repos".toList ∧ repoId ≠ [] then
        some (String.ofList repoId)
      else none
  | _ => none

end BrickTrace
