import BrickTrace.Lib.PercentCoding
import BrickTrace.Server.Routes

/-!
# What the gate takes a request to be about

The gate reads a repo off the raw path and looks up its org only where a token of the
table is scoped to an org.  The router takes the repo off the same path, one segment for
a parameter, and hands the handler the segment with its percent escapes decoded.
-/

set_option autoImplicit false

namespace BrickTrace

open PercentCoding

/-! ## The lookup of the org -/

section Lookup
variable (hashToken : String → String) (now : DateTime) (config : AuthConfig)

/-- The gate with the lookup switched on or off, whatever the token table says. -/
def requireBearerTokenResolving (needsOrgResolution : Bool) (head : RequestHead)
    (store : ServerStore) : Except Failure AuthedIdentity × ServerStore :=
  match bearerToken head with
  | none => (.error unauthorized, store)
  | some token =>
      let (target, store) := resourceTargetForPath head.path needsOrgResolution store
      match config.authorize hashToken now token target (requiredAccess head.method) with
      | .ok identity => (.ok identity, store)
      | .error .unknownToken => (.error unauthorized, store)
      | .error .expired => (.error unauthorized, store)
      | .error .forbidden => (.error forbidden, store)

theorem requireBearerToken_eq_resolving (head : RequestHead) (store : ServerStore) :
    requireBearerToken hashToken now config head store =
      requireBearerTokenResolving hashToken now config config.needsOrgResolution head store := rfl

/-- Targets that a table without org scopes does not tell apart. -/
inductive SameButOrg : ResourceTarget → ResourceTarget → Prop where
  | global : SameButOrg .global .global
  | repo (repoId : String) (first second : Option String) :
      SameButOrg (.repo repoId first) (.repo repoId second)

variable {config}

theorem scopeMatches_of_sameButOrg {scope : Scope} {first second : ResourceTarget}
    (same : SameButOrg first second) (unscoped : ∀ org, scope ≠ .org org) :
    scopeMatches scope first = scopeMatches scope second := by
  cases same with
  | global => rfl
  | repo repoId one other =>
      cases scope with
      | all => rfl
      | repo allowed => rfl
      | org allowed => exact absurd rfl (unscoped allowed)

theorem TokenStore.not_org_of_hasOrgScope {store : TokenStore} (none : store.hasOrgScope = false)
    {record : TokenRecord} (member : record ∈ store.tokens) {scope : Scope}
    (held : scope ∈ record.scopes) (org : String) : scope ≠ .org org := by
  rintro rfl
  have scopes := List.any_eq_false.mp none record member
  exact List.any_eq_true.mpr ⟨_, held, rfl⟩ |> scopes

theorem TokenStore.authorizes_of_sameButOrg {store : TokenStore} (none : store.hasOrgScope = false)
    {record : TokenRecord} (member : record ∈ store.tokens) {first second : ResourceTarget}
    (same : SameButOrg first second) (required : Access) :
    record.authorizes first required = record.authorizes second required := by
  have scopes : record.scopes.any (fun scope => scopeMatches scope first) =
      record.scopes.any fun scope => scopeMatches scope second := by
    rw [Bool.eq_iff_iff, List.any_eq_true, List.any_eq_true]
    apply exists_congr
    intro scope
    apply and_congr_right
    intro held
    rw [scopeMatches_of_sameButOrg same (not_org_of_hasOrgScope none member held)]
  unfold TokenRecord.authorizes
  rw [scopes]

theorem TokenStore.authorizeAt_of_sameButOrg {store : TokenStore} (none : store.hasOrgScope = false)
    {first second : ResourceTarget} (same : SameButOrg first second) (token : String)
    (required : Access) :
    store.authorizeAt hashToken token first required now =
      store.authorizeAt hashToken token second required now := by
  unfold authorizeAt
  cases found : store.lookup hashToken token with
  | none => rfl
  | some record =>
      have member : record ∈ store.tokens := List.mem_of_find?_eq_some found
      dsimp only
      rw [authorizes_of_sameButOrg none member same]

/-- Tokens of other issuers are told apart by whether there is a repo at all. -/
theorem AuthConfig.authorize_of_sameButOrg (none : config.needsOrgResolution = false)
    {first second : ResourceTarget} (same : SameButOrg first second) (token : String)
    (required : Access) :
    config.authorize hashToken now token first required =
      config.authorize hashToken now token second required := by
  unfold authorize
  rw [TokenStore.authorizeAt_of_sameButOrg hashToken now none same]
  cases same with
  | global => rfl
  | repo repoId one other => rfl

theorem resourceTargetForPath_sameButOrg (path : String) (first second : Bool)
    (store : ServerStore) :
    SameButOrg (resourceTargetForPath path first store).1
      (resourceTargetForPath path second store).1 := by
  unfold resourceTargetForPath
  cases repoIdForPath path with
  | none => exact .global
  | some repoId =>
      cases first with
      | true =>
          cases second with
          | true => exact .repo ..
          | false => exact .repo ..
      | false =>
          cases second with
          | true => exact .repo ..
          | false => exact .repo ..

variable (config)

/-- The gate answers alike, and with the same identity, whether it looks up the org of
the repo only where some token is scoped to an org, or always. -/
theorem gate_answers_without_lookup (head : RequestHead) (store : ServerStore) :
    (requireBearerToken hashToken now config head store).1 =
      (requireBearerTokenResolving hashToken now config true head store).1 := by
  rw [requireBearerToken_eq_resolving]
  cases needed : config.needsOrgResolution with
  | true => rfl
  | false =>
      unfold requireBearerTokenResolving
      cases bearerToken head with
      | none => rfl
      | some token =>
          have same := config.authorize_of_sameButOrg hashToken now needed
            (resourceTargetForPath_sameButOrg head.path false true store) token
            (requiredAccess head.method)
          dsimp only
          rw [same]
          cases config.authorize hashToken now token (resourceTargetForPath head.path true store).1
              (requiredAccess head.method) with
          | ok identity => rfl
          | error denial =>
              cases denial with
              | unknownToken => rfl
              | expired => rfl
              | forbidden => rfl

end Lookup

/-! ## The repo that the handler serves -/

/-- The segment that the router gives to a repo-scoped handler: the routes are
`/v1/repos/:repo_id/events`, `/v1/repos/:repo_id/sessions` and
`/v1/repos/:repo_id/index/status`, matched on the raw path. -/
def routedRepoSegment (path : String) : Option String :=
  match path.toList.splitOn '/' with
  | [] :: version :: collection :: segment :: rest =>
      if version = "v1".toList ∧ collection = "repos".toList ∧ segment ≠ [] ∧
          (rest = ["events".toList] ∨ rest = ["sessions".toList] ∨
            rest = ["index".toList, "status".toList]) then
        some (String.ofList segment)
      else none
  | _ => none

/-- The repo id that the handler is called with; a segment that does not decode to a text
is answered by the framework. -/
def servedRepoId (path : String) : Option String := (routedRepoSegment path).bind decodeText

/-- Leading slashes are all taken off, and a path with a first segment has one of them. -/
theorem splitOn_dropWhile_slashes {chars first : List Char} {rest : List (List Char)}
    (split : chars.splitOn '/' = [] :: first :: rest) (named : first ≠ []) :
    (chars.dropWhile (· == '/')).splitOn '/' = first :: rest := by
  cases chars with
  | nil => simp at split
  | cons lead tail =>
      rw [List.splitOn_cons_eq_if_modifyHead] at split
      cases slash : lead == '/' with
      | false =>
          rw [if_neg (by simp [slash])] at split
          cases parts : tail.splitOn '/' with
          | nil => simp [parts] at split
          | cons part others => simp [parts] at split
      | true =>
          rw [if_pos slash, List.cons.injEq] at split
          have kept : tail.dropWhile (· == '/') = tail := by
            cases tail with
            | nil => rfl
            | cons next more =>
                cases again : next == '/' with
                | false => rw [List.dropWhile_cons_of_neg (by simp [again])]
                | true =>
                    rw [List.splitOn_cons_eq_if_modifyHead, if_pos again] at split
                    exact absurd (List.cons.inj split.2).1.symm named
          rw [List.dropWhile_cons_of_pos (p := (· == '/')) slash, kept]
          exact split.2

/-- The gate reads the segment that the router picks, as it stands in the path. -/
theorem repoIdForPath_of_routed {path segment : String} (routed : routedRepoSegment path = some segment) :
    repoIdForPath path = some segment := by
  unfold routedRepoSegment at routed
  split at routed
  · rename_i version collection picked rest split
    split at routed
    · rename_i shape
      obtain ⟨isVersion, isCollection, nonempty, -⟩ := shape
      have named : version ≠ [] := by
        rw [isVersion]
        decide
      unfold repoIdForPath
      rw [splitOn_dropWhile_slashes split named]
      dsimp only
      rw [if_pos ⟨isVersion, isCollection, nonempty⟩]
      exact routed
    · cases routed
  · cases routed

/-- The gate authorizes the repo that the handler serves exactly when the segment of the
path has no percent escape. -/
theorem gate_repo_is_served_iff {path segment repoId : String}
    (routed : routedRepoSegment path = some segment) (served : servedRepoId path = some repoId) :
    repoIdForPath path = some repoId ↔ ¬ TextHasEscape segment := by
  have isDecoded : decodeText segment = some repoId := by
    rw [servedRepoId, routed] at served
    exact served
  rw [repoIdForPath_of_routed routed, Option.some.injEq]
  exact decodeText_eq_self_iff isDecoded

theorem gate_repo_of_plain_path :
    repoIdForPath "/v1/repos/repo-a/events" = some "repo-a" ↔ ¬ TextHasEscape "repo-a" :=
  gate_repo_is_served_iff (by decide +kernel) (by decide +kernel)

/-- The gate authorizes `repo%2Da`, and the handler serves `repo-a`. -/
theorem gate_repo_of_escaped_path :
    servedRepoId "/v1/repos/repo%2Da/events" = some "repo-a" ∧
      repoIdForPath "/v1/repos/repo%2Da/events" ≠ some "repo-a" := by
  decide +kernel

end BrickTrace
