import BrickTrace.Lib.JsonFields
import BrickTrace.Lib.Rfc3339
import BrickTrace.Protocol.Text
import BrickTrace.Server.Auth
import Mathlib.Data.List.Nodup

/-!
# The commands on the token table

`create_token`, `rotate_token` and `revoke_token` load the table of
`tokens.json`, change it and save it.  How a time is written into the file and
read from it again is a parameter; so is the hash.
-/

set_option autoImplicit false

namespace BrickTrace

open Json

/-- The serialized form of times: what is written is read back. -/
structure TimeText where
  write : DateTime → String
  read : String → Option DateTime
  read_write : ∀ time, read (write time) = some time

/-! ## The file -/

def encodeScope : Scope → Json
  | .all => .object [("kind", .string "all")]
  | .org id => .object [("kind", .string "org"), ("value", .string id)]
  | .repo id => .object [("kind", .string "repo"), ("value", .string id)]

/-- A scope from its tag and its content; the scope without content may have a null one. -/
def decodeTaggedScope (kind : Json) (value : Option Json) : Option Scope :=
  match kind, value with
  | .string "all", none => some .all
  | .string "all", some .null => some .all
  | .string "org", some (.string id) => some (.org id)
  | .string "repo", some (.string id) => some (.repo id)
  | _, _ => none

def decodeScope : Json → Option Scope
  | .object entries =>
      (entries.lookup "kind").bind fun kind => decodeTaggedScope kind (entries.lookup "value")
  | .array [kind, value] => decodeTaggedScope kind (some value)
  | _ => none

def encodeAccess : Access → Json
  | .read => .string "read"
  | .write => .string "write"

def decodeAccess : Json → Option Access := decodeVariant [("read", .read), ("write", .write)]

namespace TimeText

def encodeTime (times : TimeText) (time : DateTime) : Json := .string (times.write time)

def decodeTime (times : TimeText) : Json → Option DateTime
  | .string text => times.read text
  | _ => none

end TimeText

namespace TokenRecord

def encode (times : TimeText) (record : TokenRecord) : Json :=
  .object
    [("label", .string record.label),
      ("token_sha256", .string record.tokenSha256),
      ("scopes", .array (record.scopes.map encodeScope)),
      ("access", encodeAccess record.access),
      ("expires_at", encodeNullable times.encodeTime record.expiresAt),
      ("actor_id", encodeNullable .string record.actorId)]

def decode (times : TimeText) : Json → Option TokenRecord :=
  decodeRecord do
    let label ← required "label" decodeString
    let tokenSha256 ← required "token_sha256" decodeString
    let scopes ← required "scopes" (decodeArray decodeScope)
    let access ← required "access" decodeAccess
    let expiresAt ← defaulted "expires_at" (decodeNullable times.decodeTime) none
    let actorId ← defaulted "actor_id" (decodeNullable decodeString) none
    return { label, tokenSha256, scopes, access, expiresAt, actorId }

end TokenRecord

/-- `tokens.json` in the data directory. -/
inductive TokensFile where
  | missing
  | blank
  | written (contents : Json)

namespace TokenStore

def encode (times : TimeText) (store : TokenStore) : Json :=
  .object [("tokens", .array (store.tokens.map (TokenRecord.encode times)))]

def decode (times : TimeText) : Json → Option TokenStore :=
  decodeRecord do
    let tokens ← required "tokens" (decodeArray (TokenRecord.decode times))
    return { tokens }

/-- The table of a file, none when it cannot be parsed. -/
def load (times : TimeText) : TokensFile → Option TokenStore
  | .missing => some ⟨[]⟩
  | .blank => some ⟨[]⟩
  | .written contents => decode times contents

def save (times : TimeText) (store : TokenStore) : TokensFile := .written (store.encode times)

/-! ### What is saved is loaded -/

theorem decodeScope_encodeScope (scope : Scope) : decodeScope (encodeScope scope) = some scope := by
  cases scope with
  | all => rfl
  | org id => rfl
  | repo id => rfl

theorem decodeAccess_encodeAccess (access : Access) :
    decodeAccess (encodeAccess access) = some access := by
  cases access with
  | read => rfl
  | write => rfl

theorem mapM_map_of_left_inverse {A B : Type} {write : A → B} {read : B → Option A}
    (inverse : ∀ item, read (write item) = some item) (items : List A) :
    (items.map write).mapM read = some items := by
  induction items with
  | nil => rfl
  | cons item rest ih => simp [inverse, ih]

theorem decodeNullable_encodeTime (times : TimeText) (time : Option DateTime) :
    decodeNullable times.decodeTime (encodeNullable times.encodeTime time) = some time := by
  cases time with
  | none => rfl
  | some time => simp [encodeNullable, decodeNullable, TimeText.encodeTime, TimeText.decodeTime,
      times.read_write]

theorem decodeNullable_encodeString (text : Option String) :
    decodeNullable decodeString (encodeNullable .string text) = some text := by
  cases text with
  | none => rfl
  | some text => rfl

theorem decodeRecord_encode (times : TimeText) (record : TokenRecord) :
    TokenRecord.decode times (record.encode times) = some record := by
  have scopes : decodeArray decodeScope (.array (record.scopes.map encodeScope)) =
      some record.scopes := mapM_map_of_left_inverse decodeScope_encodeScope record.scopes
  simp only [TokenRecord.decode, TokenRecord.encode, decodeRecord, required_bind_named,
    defaulted_bind_named, requiredIn, defaultedIn]
  simp [List.lookup_cons, decodeString, scopes, decodeAccess_encodeAccess, decodeNullable_encodeTime,
    decodeNullable_encodeString, pure_read]

theorem load_save (times : TimeText) (store : TokenStore) :
    load times (store.save times) = some store := by
  have tokens : decodeArray (TokenRecord.decode times)
      (.array (store.tokens.map (TokenRecord.encode times))) = some store.tokens :=
    mapM_map_of_left_inverse (decodeRecord_encode times) store.tokens
  simp only [load, save, decode, encode, decodeRecord, required_bind_named, requiredIn]
  simp [tokens, pure_read]

/-! ## The operations of the table -/

def add (store : TokenStore) (record : TokenRecord) : TokenStore := ⟨store.tokens ++ [record]⟩

def labels (store : TokenStore) : List String := store.tokens.map TokenRecord.label

/-- The table with the secret and the expiry of the first token with the label replaced,
and whether there was one. -/
def rotateByLabel (store : TokenStore) (label newTokenSha256 : String)
    (expiresAt : Option DateTime) : TokenStore × Bool :=
  match store.tokens.findIdx? (·.label == label) with
  | some index =>
      (⟨store.tokens.modify index fun token =>
          { token with tokenSha256 := newTokenSha256, expiresAt := expiresAt }⟩, true)
  | none => (store, false)

def expiryForLabel (store : TokenStore) (label : String) : Option (Option DateTime) :=
  (store.tokens.find? (·.label == label)).map TokenRecord.expiresAt

def removeByLabel (store : TokenStore) (label : String) : TokenStore × Bool :=
  let kept := store.tokens.filter (·.label != label)
  (⟨kept⟩, kept.length != store.tokens.length)

end TokenStore

/-! ## The commands -/

/-- Why a command stops before it saves anything. -/
inductive TokenFailure where
  /-- `failed to parse token table` -/
  | unreadableTable
  /-- `a token labeled … already exists; revoke it first` -/
  | alreadyExists (label : String)
  /-- `empty … in --scope` -/
  | emptyScope (kind : String)
  /-- `no token labeled …` -/
  | noToken (label : String)
  /-- The addition of the days panics. -/
  | timeOverflow
deriving DecidableEq

def ensureNonEmpty (value kind : String) : Except TokenFailure Unit :=
  if value = "" then .error (.emptyScope kind) else .ok ()

def parseScope (value : String) : Except TokenFailure Scope :=
  let trimmed := trim value
  if trimmed = "*" ∨ trimmed = "all" then .ok .all
  else
    match stripStart trimmed "org:" with
    | some org => (ensureNonEmpty org "org").map fun _ => .org org
    | none =>
        match stripStart trimmed "repo:" with
        | some repo => (ensureNonEmpty repo "repo").map fun _ => .repo repo
        | none => (ensureNonEmpty trimmed "repo").map fun _ => .repo trimmed

/-- The scopes of a new token; one without any is unrestricted. -/
def parseScopes (scopes : List String) : Except TokenFailure (List Scope) :=
  if scopes.isEmpty then .ok [.all] else scopes.mapM parseScope

/-- The last instant of the year 262142, the latest time there is. -/
def latestTime : Int :=
  (Rfc3339.daysBeforeYear 262143 - Rfc3339.daysBeforeYear 1970) * 86400 * 1000000000 - 1

def daysAfter (now : DateTime) (days : UInt32) : Except TokenFailure DateTime :=
  let later := now.nanoseconds + days.toNat * 86400 * 1000000000
  if later ≤ latestTime then .ok ⟨later⟩ else .error .timeOverflow

/-- What a command prints: the label, the expiry it set and the new secret. -/
inductive TokenReport where
  | created (label : String) (write : Bool) (expiresAt : Option DateTime)
      (actorId : Option String) (plaintext : String)
  | rotated (label : String) (expiresAt : Option DateTime) (plaintext : String)
  | revoked (label : String)
  | notFound (label : String)
deriving DecidableEq

inductive TokenCommand where
  | create (label : String) (scopes : List String) (write : Bool) (expiresInDays : Option UInt32)
      (actorId : Option String)
  | rotate (label : String) (expiresInDays : Option UInt32)
  | revoke (label : String)
deriving DecidableEq

/-- A command with the time it reads and the secret that `generate_token` returns to it. -/
structure TokenCall where
  command : TokenCommand
  now : DateTime
  generated : String
deriving DecidableEq

section Commands
variable (times : TimeText) (hashToken : String → String) (file : TokensFile) (now : DateTime)
  (generated : String)

def createToken (label : String) (scopes : List String) (write : Bool)
    (expiresInDays : Option UInt32) (actorId : Option String) :
    Except TokenFailure (TokensFile × TokenReport) :=
  match TokenStore.load times file with
  | none => .error .unreadableTable
  | some store =>
      if label ∈ store.labels then .error (.alreadyExists label)
      else do
        let parsedScopes ← parseScopes scopes
        let expiresAt ← expiresInDays.mapM (daysAfter now)
        let grown := store.add
          { label := label
            tokenSha256 := hashToken generated
            scopes := parsedScopes
            access := if write then .write else .read
            expiresAt := expiresAt
            actorId := actorId }
        return (grown.save times, .created label write expiresAt actorId generated)

def revokeToken (label : String) : Except TokenFailure (TokensFile × TokenReport) :=
  match TokenStore.load times file with
  | none => .error .unreadableTable
  | some store =>
      match store.removeByLabel label with
      | (left, true) => .ok (left.save times, .revoked label)
      | (_, false) => .ok (file, .notFound label)

/-- The expiry a rotation sets: the current one without a number of days, none for zero. -/
def rotatedExpiry (store : TokenStore) (label : String) :
    Option UInt32 → Except TokenFailure (Option DateTime)
  | none =>
      match store.expiryForLabel label with
      | some current => .ok current
      | none => .error (.noToken label)
  | some days => if days = 0 then .ok none else (daysAfter now days).map some

def rotateToken (label : String) (expiresInDays : Option UInt32) :
    Except TokenFailure (TokensFile × TokenReport) :=
  match TokenStore.load times file with
  | none => .error .unreadableTable
  | some store => do
      let expiresAt ← rotatedExpiry now store label expiresInDays
      match store.rotateByLabel label (hashToken generated) expiresAt with
      | (rotated, true) => return (rotated.save times, .rotated label expiresAt generated)
      | (_, false) => .error (.noToken label)

end Commands

def runTokenCommand (times : TimeText) (hashToken : String → String) (file : TokensFile)
    (call : TokenCall) : Except TokenFailure (TokensFile × TokenReport) :=
  match call.command with
  | .create label scopes write expiresInDays actorId =>
      createToken times hashToken file call.now call.generated label scopes write expiresInDays
        actorId
  | .rotate label expiresInDays =>
      rotateToken times hashToken file call.now call.generated label expiresInDays
  | .revoke label => revokeToken times file label

end BrickTrace
