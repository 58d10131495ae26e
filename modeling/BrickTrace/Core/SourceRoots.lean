import BrickTrace.Lib.NumberedRows
import BrickTrace.Core.MetadataDb

/-!
# Source roots, workspace roots and repositories

Tables of the metadata database that say where sources keep their sessions, and which
roots and repositories a session belongs to.  The path and the URI of a root may be
absent, and so may those of a repository; a row with an absent column of its key is
never found by an upsert.  A session is named by its key in place of its row number.
-/

set_option autoImplicit false

namespace BrickTrace

open NumberedRows (NumberedTable)

/-! ## Rows -/

/-- A row of `source_roots`. -/
structure SourceRoot where
  sourceId : String
  rootPath : Option String
  rootUri : Option String
  createdAt : DateTime
  updatedAt : DateTime

/-- A row of `workspace_roots`. -/
structure WorkspaceRoot where
  rootPath : String
  rootUri : Option String
  createdAt : DateTime
  updatedAt : DateTime

/-- A row of `git_repositories`. -/
structure GitRepository where
  repoPath : Option String
  repoUri : Option String
  remoteUrl : Option String
  headCommit : Option String
  createdAt : DateTime
  updatedAt : DateTime

def SourceRoot.key (root : SourceRoot) : String × Option String × Option String :=
  (root.sourceId, root.rootPath, root.rootUri)

def SourceRoot.completeKey (key : String × Option String × Option String) : Bool :=
  key.2.1.isSome && key.2.2.isSome

def GitRepository.key (repository : GitRepository) : Option String × Option String :=
  (repository.repoPath, repository.repoUri)

def GitRepository.completeKey (key : Option String × Option String) : Bool :=
  key.1.isSome && key.2.isSome

/-- The tables, and the rows that link sessions to two of them. -/
structure SourceRegistry where
  sourceRoots : NumberedTable SourceRoot
  workspaceRoots : NumberedTable WorkspaceRoot
  gitRepositories : NumberedTable GitRepository
  sessionWorkspaceRoots : List ((String × String) × Nat)
  sessionGitRepositories : List ((String × String) × Nat)

namespace SourceRegistry

def empty : SourceRegistry := ⟨.empty, .empty, .empty, [], []⟩

/-! ## Upserts -/

def upsertSourceRoot (now : DateTime) (sourceId : String) (rootPath rootUri : Option String)
    (registry : SourceRegistry) : Option Nat × SourceRegistry :=
  let sourceRoots := registry.sourceRoots.upsert SourceRoot.key SourceRoot.completeKey
    ⟨sourceId, rootPath, rootUri, now, now⟩ fun held => { held with updatedAt := now }
  (sourceRoots.numberOf SourceRoot.key (sourceId, rootPath, rootUri),
    { registry with sourceRoots := sourceRoots })

def upsertWorkspaceRoot (now : DateTime) (rootPath : String) (rootUri : Option String)
    (registry : SourceRegistry) : Option Nat × SourceRegistry :=
  let workspaceRoots := registry.workspaceRoots.upsert WorkspaceRoot.rootPath (fun _ => true)
    ⟨rootPath, rootUri, now, now⟩ fun held => { held with rootUri := rootUri, updatedAt := now }
  (workspaceRoots.numberOf WorkspaceRoot.rootPath rootPath,
    { registry with workspaceRoots := workspaceRoots })

def upsertGitRepository (now : DateTime) (repoPath repoUri remoteUrl headCommit : Option String)
    (registry : SourceRegistry) : Option Nat × SourceRegistry :=
  let gitRepositories := registry.gitRepositories.upsert GitRepository.key GitRepository.completeKey
    ⟨repoPath, repoUri, remoteUrl, headCommit, now, now⟩ fun held =>
      { held with remoteUrl := remoteUrl, headCommit := headCommit, updatedAt := now }
  (gitRepositories.numberOf GitRepository.key (repoPath, repoUri),
    { registry with gitRepositories := gitRepositories })

def linkSessionWorkspaceRoot (session : String × String) (workspaceRootId : Nat)
    (registry : SourceRegistry) : SourceRegistry :=
  { registry with
    sessionWorkspaceRoots := registry.sessionWorkspaceRoots.insert (session, workspaceRootId) }

def linkSessionGitRepository (session : String × String) (gitRepositoryId : Nat)
    (registry : SourceRegistry) : SourceRegistry :=
  { registry with
    sessionGitRepositories := registry.sessionGitRepositories.insert (session, gitRepositoryId) }

section Upserts
variable {now : DateTime} {registry : SourceRegistry}

/-- An upsert of a source root always answers with a number, which the key keeps. -/
theorem upsertSourceRoot_answers (now : DateTime) (sourceId : String)
    (rootPath rootUri : Option String) (registry : SourceRegistry) :
    ∃ number, (registry.upsertSourceRoot now sourceId rootPath rootUri).1 = some number := by
  apply NumberedTable.numberOf_upsert_self
  · rfl
  · exact fun _ same => same

theorem upsertWorkspaceRoot_answers (now : DateTime) (rootPath : String) (rootUri : Option String)
    (registry : SourceRegistry) :
    ∃ number, (registry.upsertWorkspaceRoot now rootPath rootUri).1 = some number := by
  apply NumberedTable.numberOf_upsert_self
  · rfl
  · exact fun _ same => same

theorem upsertGitRepository_answers (now : DateTime)
    (repoPath repoUri remoteUrl headCommit : Option String) (registry : SourceRegistry) :
    ∃ number,
      (registry.upsertGitRepository now repoPath repoUri remoteUrl headCommit).1 = some number := by
  apply NumberedTable.numberOf_upsert_self
  · rfl
  · exact fun _ same => same

/-- A root without a URI gets a row by every upsert. -/
theorem keys_upsertSourceRoot_of_no_uri (now : DateTime) (sourceId : String)
    (rootPath : Option String) (registry : SourceRegistry) :
    (registry.upsertSourceRoot now sourceId rootPath none).2.sourceRoots.keys SourceRoot.key =
      registry.sourceRoots.keys SourceRoot.key ++ [(sourceId, rootPath, none)] := by
  apply NumberedTable.keys_upsert_of_not_complete
  simp [SourceRoot.completeKey, SourceRoot.key]

theorem keys_upsertGitRepository_of_no_uri (now : DateTime)
    (repoPath remoteUrl headCommit : Option String) (registry : SourceRegistry) :
    (registry.upsertGitRepository now repoPath none remoteUrl headCommit).2.gitRepositories.keys
        GitRepository.key =
      registry.gitRepositories.keys GitRepository.key ++ [(repoPath, none)] := by
  apply NumberedTable.keys_upsert_of_not_complete
  simp [GitRepository.completeKey, GitRepository.key]

/-- A workspace root has one row, whatever its URI. -/
theorem nodup_upsertWorkspaceRoot {rootPath : String} {rootUri : Option String}
    (nodup : (registry.workspaceRoots.keys WorkspaceRoot.rootPath).Nodup) :
    ((registry.upsertWorkspaceRoot now rootPath rootUri).2.workspaceRoots.keys
      WorkspaceRoot.rootPath).Nodup :=
  NumberedTable.nodup_keys_upsert_of_complete (fun _ same => same) rfl nodup

end Upserts

end SourceRegistry

end BrickTrace
