import BrickTrace.Core.SourceRoots
import BrickTrace.Cli.RefreshRuns

/-!
# The roots and repositories that refreshes record

A refresh records the roots of every source that it can list, and links every session
that it has indexed to its repo.  It has no URI for any of them.  What it records is
read by no refresh, so the calls are collected along its loops and made in order.
-/

set_option autoImplicit false

namespace BrickTrace

open NumberedRows (NumberedTable)

/-! ## The calls of a refresh -/

inductive RegistryCall where
  | sourceRoot (sourceId rootPath : String)
  | sessionRepo (session : String × String) (repoPath : String)
deriving DecidableEq

namespace RegistryCall

def recordSourceRoots (profile : SourceProfile) : List RegistryCall :=
  let roots := [profile.sessionLogPath, profile.evidenceRoot, profile.sessionDbPath,
    profile.cursorStateDbPath]
  (roots.filterMap id).map (.sourceRoot profile.name)

def linkSessionRepo (db : MetadataDb) (sourceId externalSessionId : String)
    (repoPath : Option String) : List RegistryCall :=
  match repoPath.filter (· != "") with
  | none => []
  | some path =>
      match db.getSourceSession sourceId externalSessionId with
      | none => []
      | some _ => [.sessionRepo (sourceId, externalSessionId) path]

section Calls
variable (rfc3339 : DateTime → String) (newV5 : String → Uuid) (env : RefreshEnv) (repoId : String)

/-- A session is linked last. -/
def sessionCalls (profile : SourceProfile) (progress : ProfileRefresh)
    (session : NativeSourceSession) : List RegistryCall :=
  match refreshSession rfc3339 newV5 env repoId profile progress session with
  | (.error _, _) => []
  | (.ok (), next) =>
      linkSessionRepo next.metadataDb profile.name session.externalSessionId session.repoPath

/-- The roots are recorded before the sessions since the watermark are listed. -/
def profileCalls (progress : RefreshProgress) (profile : SourceProfile) : List RegistryCall :=
  match env.listSourceSessions profile (some 1) none with
  | none => []
  | some newest =>
      recordSourceRoots profile ++
        match env.listSourceSessions profile (some sourceIndexRefreshLimit)
            (sinceWatermark progress.metadataDb profile newest) with
        | none => []
        | some sessions =>
            Loops.collect (refreshSession rfc3339 newV5 env repoId profile)
              (sessionCalls rfc3339 newV5 env repoId profile) (.start progress.toHistoryState) sessions

end Calls

end RegistryCall

def RefreshRun.registryCalls (rfc3339 : DateTime → String) (newV5 : String → Uuid) (run : RefreshRun)
    (state : HistoryState) : List RegistryCall :=
  Loops.collect (refreshProfile rfc3339 newV5 run.env run.repoId (some sourceIndexRefreshLimit))
    (RegistryCall.profileCalls rfc3339 newV5 run.env run.repoId) (.start state) (run.scannedProfiles state)

/-! ## Making the calls -/

namespace SourceRegistry

/-- What `link_session_repo` writes for a session that is on record, with the number of the
repository. -/
def linkRepo (now : DateTime) (session : String × String) (repoPath : String)
    (registry : SourceRegistry) : Option Nat × SourceRegistry :=
  match registry.upsertWorkspaceRoot now repoPath none with
  | (none, written) => (none, written)
  | (some workspaceRootId, written) =>
      match (written.linkSessionWorkspaceRoot session workspaceRootId).upsertGitRepository now
          (some repoPath) none none none with
      | (none, upserted) => (none, upserted)
      | (some gitRepositoryId, upserted) =>
          (some gitRepositoryId, upserted.linkSessionGitRepository session gitRepositoryId)

/-- The repository is upserted as the only one of the call, whatever is linked. -/
theorem linkRepo_upserts (now : DateTime) (session : String × String) (repoPath : String)
    (registry : SourceRegistry) :
    let linked := registry.linkRepo now session repoPath
    let upserted := registry.upsertGitRepository now (some repoPath) none none none
    linked.1 = upserted.1 ∧ linked.2.gitRepositories = upserted.2.gitRepositories ∧
      linked.2.sourceRoots = registry.sourceRoots ∧
      linked.2.workspaceRoots = (registry.upsertWorkspaceRoot now repoPath none).2.workspaceRoots := by
  obtain ⟨root, rooted⟩ := upsertWorkspaceRoot_answers now repoPath none registry
  obtain ⟨number, answered⟩ := upsertGitRepository_answers now (some repoPath) none none none registry
  have workspace : registry.upsertWorkspaceRoot now repoPath none =
      (some root, (registry.upsertWorkspaceRoot now repoPath none).2) := Prod.ext rooted rfl
  unfold linkRepo
  rw [workspace]
  dsimp only
  generalize written : ((registry.upsertWorkspaceRoot now repoPath none).2.linkSessionWorkspaceRoot
    session root) = between
  have sameRepositories : between.gitRepositories = registry.gitRepositories := by
    rw [← written]
    rfl
  have sameRoots : between.sourceRoots = registry.sourceRoots := by
    rw [← written]
    rfl
  have sameWorkspaces : between.workspaceRoots =
      (registry.upsertWorkspaceRoot now repoPath none).2.workspaceRoots := by
    rw [← written]
    rfl
  have upserts : between.upsertGitRepository now (some repoPath) none none none =
      (some number, { between with
        gitRepositories := (registry.upsertGitRepository now (some repoPath) none none
          none).2.gitRepositories }) := by
    rw [← answered]
    unfold upsertGitRepository
    rw [sameRepositories]
  rw [upserts]
  exact ⟨answered.symm, rfl, sameRoots, sameWorkspaces⟩

end SourceRegistry

/-- The tables, with every key that was upserted so far and the number it was answered with. -/
structure ObservedRegistry extends SourceRegistry where
  rootIds : List ((String × Option String × Option String) × Option Nat)
  repoIds : List ((Option String × Option String) × Option Nat)

def ObservedRegistry.empty : ObservedRegistry :=
  { toSourceRegistry := .empty, rootIds := [], repoIds := [] }

def ObservedRegistry.perform (now : DateTime) (observed : ObservedRegistry) :
    RegistryCall → ObservedRegistry
  | .sourceRoot sourceId rootPath =>
      let answer := observed.upsertSourceRoot now sourceId (some rootPath) none
      { observed with
        toSourceRegistry := answer.2
        rootIds := observed.rootIds ++ [((sourceId, some rootPath, none), answer.1)] }
  | .sessionRepo session repoPath =>
      let answer := observed.linkRepo now session repoPath
      { observed with
        toSourceRegistry := answer.2
        repoIds := observed.repoIds ++ [((some repoPath, none), answer.1)] }

/-- The databases of a machine, with these tables. -/
structure RegistryHistory where
  history : HistoryState
  observed : ObservedRegistry

def nextRegistry (rfc3339 : DateTime → String) (newV5 : String → Uuid) (state : RegistryHistory)
    (run : RefreshRun) : RegistryHistory where
  history := nextHistory rfc3339 newV5 state.history run
  observed := (run.registryCalls rfc3339 newV5 state.history).foldl
    (ObservedRegistry.perform run.env.now) state.observed

/-! ## One row for each key -/

def RegistryCall.rootKey : RegistryCall → Option (String × Option String × Option String)
  | .sourceRoot sourceId rootPath => some (sourceId, some rootPath, none)
  | .sessionRepo _ _ => none

def RegistryCall.repoKey : RegistryCall → Option (Option String × Option String)
  | .sourceRoot _ _ => none
  | .sessionRepo _ repoPath => some (some repoPath, none)

namespace ObservedRegistry

/-- A key has one row at most, and was answered with one number. -/
structure Registered (observed : ObservedRegistry) : Prop where
  oneRootRow : (observed.sourceRoots.keys SourceRoot.key).Nodup
  oneRepoRow : (observed.gitRepositories.keys GitRepository.key).Nodup
  oneRootId : NumberedTable.Consistent observed.rootIds
  oneRepoId : NumberedTable.Consistent observed.repoIds

/-- The calls come with keys that have no row yet, each once. -/
structure RecordsNew (observed : ObservedRegistry) (calls : List RegistryCall) : Prop where
  rootsOnce : (calls.filterMap RegistryCall.rootKey).Nodup
  rootsNew : ∀ key ∈ calls.filterMap RegistryCall.rootKey,
    key ∉ observed.sourceRoots.keys SourceRoot.key
  reposOnce : (calls.filterMap RegistryCall.repoKey).Nodup
  reposNew : ∀ key ∈ calls.filterMap RegistryCall.repoKey,
    key ∉ observed.gitRepositories.keys GitRepository.key

/-- The answers are the numbers that the keys have. -/
structure AnswersNumbers (observed : ObservedRegistry) : Prop where
  roots : NumberedTable.Answered SourceRoot.key observed.rootIds observed.sourceRoots
  repos : NumberedTable.Answered GitRepository.key observed.repoIds observed.gitRepositories

variable {now : DateTime} {observed : ObservedRegistry}

theorem answersNumbers_perform (call : RegistryCall) (before : AnswersNumbers observed) :
    AnswersNumbers (observed.perform now call) := by
  cases call with
  | sourceRoot sourceId rootPath =>
      refine ⟨?_, before.repos⟩
      apply NumberedTable.answered_upsert
      · rfl
      · exact fun _ same => same
      · exact before.roots
  | sessionRepo session repoPath =>
      obtain ⟨answer, repositories, roots, _⟩ :=
        SourceRegistry.linkRepo_upserts now session repoPath observed.toSourceRegistry
      constructor
      · unfold perform
        dsimp only
        rw [roots]
        exact before.roots
      · unfold perform
        dsimp only
        rw [repositories, answer]
        apply NumberedTable.answered_upsert
        · rfl
        · exact fun _ same => same
        · exact before.repos

/-- A call adds a row for its key, whether or not there is one. -/
theorem rootKeys_perform (call : RegistryCall) :
    (observed.perform now call).sourceRoots.keys SourceRoot.key =
      observed.sourceRoots.keys SourceRoot.key ++ call.rootKey.toList := by
  cases call with
  | sourceRoot sourceId rootPath => exact SourceRegistry.keys_upsertSourceRoot_of_no_uri ..
  | sessionRepo session repoPath =>
      obtain ⟨_, _, roots, _⟩ :=
        SourceRegistry.linkRepo_upserts now session repoPath observed.toSourceRegistry
      unfold perform
      dsimp only
      rw [roots]
      exact (List.append_nil _).symm

theorem repoKeys_perform (call : RegistryCall) :
    (observed.perform now call).gitRepositories.keys GitRepository.key =
      observed.gitRepositories.keys GitRepository.key ++ call.repoKey.toList := by
  cases call with
  | sourceRoot sourceId rootPath => exact (List.append_nil _).symm
  | sessionRepo session repoPath =>
      obtain ⟨_, repositories, _⟩ :=
        SourceRegistry.linkRepo_upserts now session repoPath observed.toSourceRegistry
      unfold perform
      dsimp only
      rw [repositories]
      exact SourceRegistry.keys_upsertGitRepository_of_no_uri ..

/-- A workspace root is found by its path alone, so a call adds no second row for it. -/
theorem nodup_workspaces_perform (call : RegistryCall)
    (nodup : (observed.workspaceRoots.keys WorkspaceRoot.rootPath).Nodup) :
    ((observed.perform now call).workspaceRoots.keys WorkspaceRoot.rootPath).Nodup := by
  cases call with
  | sourceRoot sourceId rootPath => exact nodup
  | sessionRepo session repoPath =>
      obtain ⟨_, _, _, workspaces⟩ :=
        SourceRegistry.linkRepo_upserts now session repoPath observed.toSourceRegistry
      unfold perform
      dsimp only
      rw [workspaces]
      exact SourceRegistry.nodup_upsertWorkspaceRoot nodup

theorem answersNumbers_performAll (now : DateTime) (calls : List RegistryCall) (before : AnswersNumbers observed) :
    AnswersNumbers (calls.foldl (perform now) observed) := by
  induction calls generalizing observed with
  | nil => exact before
  | cons call rest ih => exact ih (answersNumbers_perform call before)

/-- What each call adds to a list, all calls add in turn. -/
theorem keys_performAll {K : Type} (keys : ObservedRegistry → List K)
    (added : RegistryCall → Option K) {now : DateTime}
    (adds : ∀ (observed : ObservedRegistry) call,
      keys (observed.perform now call) = keys observed ++ (added call).toList)
    (observed : ObservedRegistry) (calls : List RegistryCall) :
    keys (calls.foldl (perform now) observed) = keys observed ++ calls.filterMap added := by
  induction calls generalizing observed with
  | nil => exact (List.append_nil _).symm
  | cons call rest ih =>
      rw [List.foldl_cons, ih, adds, List.append_assoc]
      cases key : added call with
      | none => rw [List.filterMap_cons_none key, Option.toList_none, List.nil_append]
      | some found => rw [List.filterMap_cons_some key, Option.toList_some, List.singleton_append]

theorem rootKeys_performAll (now : DateTime) (observed : ObservedRegistry)
    (calls : List RegistryCall) :
    (calls.foldl (perform now) observed).sourceRoots.keys SourceRoot.key =
      observed.sourceRoots.keys SourceRoot.key ++ calls.filterMap RegistryCall.rootKey :=
  keys_performAll (fun observed => observed.sourceRoots.keys SourceRoot.key) RegistryCall.rootKey
    (fun _ call => rootKeys_perform call) observed calls

theorem repoKeys_performAll (now : DateTime) (observed : ObservedRegistry)
    (calls : List RegistryCall) :
    (calls.foldl (perform now) observed).gitRepositories.keys GitRepository.key =
      observed.gitRepositories.keys GitRepository.key ++ calls.filterMap RegistryCall.repoKey :=
  keys_performAll (fun observed => observed.gitRepositories.keys GitRepository.key)
    RegistryCall.repoKey (fun _ call => repoKeys_perform call) observed calls

theorem nodup_workspaces_performAll (now : DateTime) (calls : List RegistryCall)
    (nodup : (observed.workspaceRoots.keys WorkspaceRoot.rootPath).Nodup) :
    ((calls.foldl (perform now) observed).workspaceRoots.keys WorkspaceRoot.rootPath).Nodup := by
  induction calls generalizing observed with
  | nil => exact nodup
  | cons call rest ih => exact ih (nodup_workspaces_perform call nodup)

/-- Calls keep one row for each key exactly when they come with new ones. -/
theorem registered_performAll_iff {calls : List RegistryCall} (numbers : AnswersNumbers observed)
    (before : Registered observed) :
    Registered (calls.foldl (perform now) observed) ↔ RecordsNew observed calls := by
  have rootRows := rootKeys_performAll now observed calls
  have repoRows := repoKeys_performAll now observed calls
  constructor
  · intro after
    have roots := after.oneRootRow
    have repos := after.oneRepoRow
    rw [rootRows, NumberedRows.nodup_append_iff_of_nodup before.oneRootRow] at roots
    rw [repoRows, NumberedRows.nodup_append_iff_of_nodup before.oneRepoRow] at repos
    exact ⟨roots.1, roots.2, repos.1, repos.2⟩
  · intro new
    have after := answersNumbers_performAll now calls numbers
    refine ⟨?_, ?_, NumberedTable.consistent_of_answered after.roots,
      NumberedTable.consistent_of_answered after.repos⟩
    · rw [rootRows, NumberedRows.nodup_append_iff_of_nodup before.oneRootRow]
      exact ⟨new.rootsOnce, new.rootsNew⟩
    · rw [repoRows, NumberedRows.nodup_append_iff_of_nodup before.oneRepoRow]
      exact ⟨new.reposOnce, new.reposNew⟩

end ObservedRegistry

/-! ## Runs of refreshes -/

section Runs
variable (rfc3339 : DateTime → String) (newV5 : String → Uuid)

theorem answersNumbers_nextRegistry {state : RegistryHistory} (run : RefreshRun)
    (before : state.observed.AnswersNumbers) :
    (nextRegistry rfc3339 newV5 state run).observed.AnswersNumbers :=
  ObservedRegistry.answersNumbers_performAll _ _ before

/-- Refreshes keep one row and one number for each root and each repository, exactly when none
of them comes with a root or a repository that is on record, or with one twice. -/
theorem refreshes_register_once_iff (history : HistoryState) (runs : List RefreshRun) :
    Runs.Always (nextRegistry rfc3339 newV5) (fun state => state.observed.Registered)
        ⟨history, .empty⟩ runs ↔
      Runs.Meets (nextRegistry rfc3339 newV5)
        (fun state run => state.observed.RecordsNew (run.registryCalls rfc3339 newV5 state.history))
        ⟨history, .empty⟩ runs := by
  have numbers : ObservedRegistry.empty.AnswersNumbers :=
    ⟨NumberedTable.answered_nil _, NumberedTable.answered_nil _⟩
  have start : ObservedRegistry.empty.Registered :=
    ⟨List.nodup_nil, List.nodup_nil, NumberedTable.consistent_of_answered numbers.roots,
      NumberedTable.consistent_of_answered numbers.repos⟩
  have keeps : ∀ (state : RegistryHistory) (run : RefreshRun), state.observed.AnswersNumbers →
      (nextRegistry rfc3339 newV5 state run).observed.AnswersNumbers :=
    fun state run before => answersNumbers_nextRegistry rfc3339 newV5 run before
  refine Runs.always_iff_meets (nextRegistry rfc3339 newV5) keeps ?_ runs numbers start
  intro state run answered registered
  exact ObservedRegistry.registered_performAll_iff answered registered

/-- Whatever the refreshes come with, a workspace root keeps one row. -/
theorem refreshes_keep_workspaces_once (history : HistoryState) (runs : List RefreshRun) :
    Runs.Always (nextRegistry rfc3339 newV5)
      (fun state => (state.observed.workspaceRoots.keys WorkspaceRoot.rootPath).Nodup)
      ⟨history, .empty⟩ runs := by
  apply Runs.always_of_step
  · intro state run nodup
    exact ObservedRegistry.nodup_workspaces_performAll run.env.now _ nodup
  · exact List.nodup_nil

end Runs

/-- The root of one source gets a row by every refresh. -/
theorem root_refreshed_twice_has_two_rows :
    ¬ Runs.Always (nextRegistry clockText sessionUuid) (fun state => state.observed.Registered)
      ⟨emptyHistory, .empty⟩
      [refreshFrom "repo-a" 60 (sessionIn "/work/a"), refreshFrom "repo-a" 120 (sessionIn "/work/a")] := by
  intro always
  have oneRow := (Runs.always_last _ always).oneRootRow
  generalize reached : Runs.run (nextRegistry clockText sessionUuid) ⟨emptyHistory, .empty⟩
    [refreshFrom "repo-a" 60 (sessionIn "/work/a"), refreshFrom "repo-a" 120 (sessionIn "/work/a")] =
      final at oneRow
  have rows : final.observed.sourceRoots.keys SourceRoot.key =
      [("claude_code", some "/home/user/.claude", none),
        ("claude_code", some "/home/user/.claude", none)] := by
    rw [← reached]
    decide +kernel
  rw [rows] at oneRow
  exact absurd oneRow (by decide)

end BrickTrace
