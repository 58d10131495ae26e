import BrickTrace.Cli.McpConfig

/-!
# Brick's server in JSON, over runs of calls

What is not Brick's keeps its value through every run; a call that fails leaves the file; and an
install, the status and an uninstall agree.
-/

set_option autoImplicit false

namespace BrickTrace.McpConfig

open KeyedLists (KeyTable remove lookup_remove_self lookup_remove_of_ne)
open HookFiles (HookAction)

variable {target : Target} {format : Format}

/-! ## What a file shows -/

def keyOf (file : McpFile) (key : String) : Option Json :=
  match file with
  | .document root => root.get key
  | _ => none

def serverOf (format : Format) (file : McpFile) (name : String) : Option Json :=
  (keyOf file format.jsonRootKey).bind (Json.get name)

/-- Files that servers can be put into: an object whose servers, if any, are an object. -/
def Fit (format : Format) : McpFile → Prop
  | .missing => True
  | .blank => True
  | .document root => ∃ parts, ensureServers root format = .ok parts
  | _ => False

structure Keeps (format : Format) (before after : McpFile) : Prop where
  keys : ∀ key, key ≠ format.jsonRootKey → keyOf after key = keyOf before key
  servers : ∀ name, name ≠ serverName → serverOf format after name = serverOf format before name
  unfit : ¬ Fit format before → after = before

theorem Keeps.refl (file : McpFile) : Keeps format file file :=
  ⟨fun _ _ => rfl, fun _ _ => rfl, fun _ => rfl⟩

theorem Keeps.trans {first second third : McpFile} (one : Keeps format first second)
    (two : Keeps format second third) : Keeps format first third where
  keys key other := (two.keys key other).trans (one.keys key other)
  servers name other := (two.servers name other).trans (one.servers name other)
  unfit not := by
    have same := one.unfit not
    subst same
    exact two.unfit not

theorem keyOf_of_read {file : McpFile} {root : Json} (read : readJson target file = .ok root)
    (key : String) : keyOf file key = root.get key := by
  cases file with
  | missing =>
      cases read
      rfl
  | blank =>
      cases read
      rfl
  | unreadable => cases read
  | malformed => cases read
  | document held =>
      cases read
      rfl

theorem fit_of_read {file : McpFile} {root : Json} {parts : KeyTable Json × KeyTable Json}
    (read : readJson target file = .ok root) (ensured : ensureServers root format = .ok parts) :
    Fit format file := by
  cases file with
  | missing => exact trivial
  | blank => exact trivial
  | unreadable => cases read
  | malformed => cases read
  | document held =>
      cases read
      exact ⟨parts, ensured⟩

theorem ensureServers_eq_ok {root : Json} {settings servers : KeyTable Json}
    (ensured : ensureServers root format = .ok (settings, servers)) : root = .object settings ∧
      ∀ name, (root.get format.jsonRootKey).bind (Json.get name) = servers.lookup name := by
  cases root with
  | object held =>
      unfold ensureServers at ensured
      dsimp only at ensured
      cases found : held.lookup format.jsonRootKey with
      | none =>
          rw [found] at ensured
          cases ensured
          refine ⟨rfl, fun name => ?_⟩
          change (List.lookup format.jsonRootKey settings).bind _ = none
          rw [found]
          rfl
      | some value =>
          rw [found] at ensured
          cases value with
          | object inside =>
              cases ensured
              refine ⟨rfl, fun name => ?_⟩
              change (List.lookup format.jsonRootKey settings).bind _ = _
              rw [found]
              rfl
          | _ => cases ensured
  | _ => cases ensured

theorem get_withServers (settings servers : KeyTable Json) :
    (withServers format settings servers).get format.jsonRootKey = some (.object servers) :=
  Json.lookup_insertEntry_self _ _ _

theorem ensureServers_withServers (settings servers : KeyTable Json) :
    ∃ whole, ensureServers (withServers format settings servers) format = .ok (whole, servers) := by
  have found : (Json.insertEntry format.jsonRootKey (.object servers) settings).lookup
      format.jsonRootKey = some (.object servers) := Json.lookup_insertEntry_self _ _ _
  refine ⟨Json.insertEntry format.jsonRootKey (.object servers) settings, ?_⟩
  unfold ensureServers withServers
  dsimp only
  rw [found]
  rfl

/-! ## One call -/

theorem keeps_withServers {file : McpFile} {root : Json} {settings servers new : KeyTable Json}
    (read : readJson target file = .ok root)
    (ensured : ensureServers root format = .ok (settings, servers))
    (others : ∀ name, name ≠ serverName → new.lookup name = servers.lookup name) :
    Keeps format file (.document (withServers format settings new)) := by
  obtain ⟨rfl, inside⟩ := ensureServers_eq_ok ensured
  refine ⟨fun key other => ?_, fun name other => ?_,
    fun unfit => absurd (fit_of_read read ensured) unfit⟩
  · rw [keyOf_of_read read]
    exact Json.lookup_insertEntry_of_ne other
  · unfold serverOf
    rw [keyOf_of_read read, inside]
    change ((withServers format settings new).get format.jsonRootKey).bind _ = _
    rw [get_withServers]
    exact others name other

/-- A write is done whole, or fails and leaves the file. -/
theorem commit_cases (fault : Option Fault) (disk : Disk) (plan : HookAction × Option Json) :
    (plan.2 = none ∧ commit target fault disk plan = (.ok plan.1, disk)) ∨
      (∃ root, plan.2 = some root ∧ fault = none ∧
        commit target fault disk plan = (.ok plan.1, { file := .document root, temp := none })) ∨
      ∃ failure temp,
        commit target fault disk plan = (.error failure, { file := disk.file, temp := temp }) := by
  unfold commit
  cases planned : plan.2 with
  | none => exact Or.inl ⟨rfl, rfl⟩
  | some root =>
      cases fault with
      | none => exact Or.inr (Or.inl ⟨root, rfl, rfl, rfl⟩)
      | some fault =>
          refine Or.inr (Or.inr ?_)
          cases fault with
          | directory => exact ⟨_, disk.temp, rfl⟩
          | temp => exact ⟨_, disk.temp, rfl⟩
          | rename => exact ⟨_, some root, rfl⟩

theorem plannedInstall_eq_ok {root : Json} {brickBin : String} {force : Bool}
    {plan : HookAction × Option Json}
    (planned : plannedInstall root brickBin format force = .ok plan) :
    ∃ settings servers, ensureServers root format = .ok (settings, servers) ∧
      ((plan = (.unchanged, none) ∧ servers.lookup serverName = some (brickJsonEntry brickBin)) ∨
        plan.1 ≠ .unchanged ∧ plan.2 = some (withServers format settings
          (Json.insertEntry serverName (brickJsonEntry brickBin) servers))) := by
  unfold plannedInstall at planned
  obtain ⟨⟨settings, servers⟩, ensured, planned⟩ := Fallible.bind_eq_ok_iff.mp planned
  refine ⟨settings, servers, ensured, ?_⟩
  dsimp only at planned
  cases found : servers.lookup serverName with
  | none =>
      rw [found] at planned
      cases planned
      exact Or.inr ⟨nofun, rfl⟩
  | some existing =>
      rw [found] at planned
      dsimp only at planned
      split at planned
      · rename_i same
        cases planned
        refine Or.inl ⟨rfl, ?_⟩
        rw [Json.eq_of_same ((Bool.and_eq_true ..).mp same).1]
      · cases planned
        exact Or.inr ⟨nofun, rfl⟩

theorem plannedUninstall_cases (root : Json) :
    plannedUninstall root format = (.absent, none) ∨
      ∃ settings servers, ensureServers root format = .ok (settings, servers) ∧
        plannedUninstall root format =
          (.removed, some (withServers format settings (remove serverName servers))) := by
  unfold plannedUninstall
  cases root with
  | object settings =>
      dsimp only
      cases found : settings.lookup format.jsonRootKey with
      | none => exact Or.inl rfl
      | some value =>
          cases value with
          | object servers =>
              dsimp only
              split
              · exact Or.inl rfl
              · refine Or.inr ⟨settings, servers, ?_, rfl⟩
                unfold ensureServers
                dsimp only
                rw [found]
                rfl
          | _ => exact Or.inl rfl
  | _ => exact Or.inl rfl

theorem keeps_commit {fault : Option Fault} {disk : Disk} {plan : HookAction × Option Json}
    (keeps : ∀ root, plan.2 = some root → Keeps format disk.file (.document root)) :
    Keeps format disk.file (commit target fault disk plan).2.file := by
  rcases @commit_cases target fault disk plan with
    ⟨_, same⟩ | ⟨root, planned, _, written⟩ | ⟨failure, temp, same⟩
  · rw [same]
    exact Keeps.refl _
  · rw [written]
    exact keeps root planned
  · rw [same]
    exact Keeps.refl _

theorem run_keeps (disk : Disk) (call : McpCall) :
    Keeps format disk.file (call.run target format disk).2.file := by
  cases call with
  | install brickBin force fault =>
      change Keeps format disk.file (jsonInstall target brickBin format force fault disk).2.file
      unfold jsonInstall
      cases read : readJson target disk.file with
      | error failure => exact Keeps.refl _
      | ok root =>
          dsimp only
          cases planned : plannedInstall root brickBin format force with
          | error failure => exact Keeps.refl _
          | ok plan =>
              refine keeps_commit fun written isWritten => ?_
              obtain ⟨settings, servers, ensured, ⟨rfl, _⟩ | ⟨_, whole⟩⟩ :=
                plannedInstall_eq_ok planned
              · cases isWritten
              · cases whole.symm.trans isWritten
                exact keeps_withServers read ensured
                  fun name other => Json.lookup_insertEntry_of_ne other
  | uninstall fault =>
      change Keeps format disk.file (jsonUninstall target format fault disk).2.file
      unfold jsonUninstall
      cases read : readJson target disk.file with
      | error failure => exact Keeps.refl _
      | ok root =>
          refine keeps_commit fun written isWritten => ?_
          rcases plannedUninstall_cases root with absent | ⟨settings, servers, ensured, removed⟩
          · rw [absent] at isWritten
            cases isWritten
          · rw [removed] at isWritten
            cases isWritten
            exact keeps_withServers read ensured fun name other => lookup_remove_of_ne other servers
  | status brickBin => exact Keeps.refl _

theorem file_of_commit_error {fault : Option Fault} {disk : Disk} {plan : HookAction × Option Json}
    {failure : String} (failed : (commit target fault disk plan).1 = .error failure) :
    (commit target fault disk plan).2.file = disk.file := by
  rcases @commit_cases target fault disk plan with
    ⟨_, same⟩ | ⟨root, _, _, written⟩ | ⟨_, temp, same⟩
  · rw [same]
  · rw [written] at failed
    cases failed
  · rw [same]

/-- A call that fails has not touched the file. -/
theorem file_of_error {disk : Disk} {call : McpCall} {failure : String}
    (failed : (call.run target format disk).1 = .error failure) :
    (call.run target format disk).2.file = disk.file := by
  cases call with
  | install brickBin force fault =>
      change (jsonInstall target brickBin format force fault disk).1 = _ at failed
      change (jsonInstall target brickBin format force fault disk).2.file = _
      unfold jsonInstall at failed ⊢
      cases read : readJson target disk.file with
      | error _ => rfl
      | ok root =>
          rw [read] at failed
          dsimp only at failed ⊢
          cases planned : plannedInstall root brickBin format force with
          | error _ => rfl
          | ok plan =>
              rw [planned] at failed
              exact file_of_commit_error failed
  | uninstall fault =>
      change (jsonUninstall target format fault disk).1 = _ at failed
      change (jsonUninstall target format fault disk).2.file = _
      unfold jsonUninstall at failed ⊢
      cases read : readJson target disk.file with
      | error _ => rfl
      | ok root =>
          rw [read] at failed
          exact file_of_commit_error failed
  | status brickBin => rfl

/-! ## After an install -/

/-- The file has Brick's server as an install for the binary writes it. -/
def Holds (target : Target) (format : Format) (brickBin : String) (file : McpFile) : Prop :=
  ∃ root settings servers, readJson target file = .ok root ∧
    ensureServers root format = .ok (settings, servers) ∧
    servers.lookup serverName = some (brickJsonEntry brickBin)

theorem holds_of_install {brickBin : String} {force : Bool} {fault : Option Fault}
    {disk after : Disk} {action : HookAction}
    (ok : jsonInstall target brickBin format force fault disk = (.ok action, after)) :
    Holds target format brickBin after.file := by
  unfold jsonInstall at ok
  cases read : readJson target disk.file with
  | error _ =>
      rw [read] at ok
      cases ok
  | ok root =>
      rw [read] at ok
      dsimp only at ok
      cases planned : plannedInstall root brickBin format force with
      | error _ =>
          rw [planned] at ok
          cases ok
      | ok plan =>
          rw [planned] at ok
          dsimp only at ok
          obtain ⟨settings, servers, ensured, ⟨rfl, found⟩ | ⟨_, whole⟩⟩ :=
            plannedInstall_eq_ok planned
          · cases ok
            exact ⟨root, settings, servers, read, ensured, found⟩
          · rcases @commit_cases target fault disk plan with
              ⟨nothing, _⟩ | ⟨written, isWritten, _, done⟩ | ⟨_, _, failed⟩
            · exact nomatch whole.symm.trans nothing
            · cases whole.symm.trans isWritten
              rw [done] at ok
              cases ok
              obtain ⟨settingsAfter, ensuredAfter⟩ := @ensureServers_withServers format
                settings (Json.insertEntry serverName (brickJsonEntry brickBin) servers)
              exact ⟨_, settingsAfter, _, rfl, ensuredAfter, Json.lookup_insertEntry_self _ _ _⟩
            · rw [failed] at ok
              cases ok

theorem status_of_holds {brickBin : String} {disk : Disk}
    (holds : Holds target format brickBin disk.file) :
    jsonStatus target brickBin format disk = .ok .present := by
  obtain ⟨root, settings, servers, read, ensured, found⟩ := holds
  have entry := (ensureServers_eq_ok ensured).2 serverName
  unfold jsonStatus
  rw [read]
  simp only [bind, Except.bind, entry, found, if_pos (Json.same_refl _)]
  rfl

theorem install_of_holds {brickBin : String} {disk : Disk}
    (holds : Holds target format brickBin disk.file) (fault : Option Fault) :
    jsonInstall target brickBin format false fault disk = (.ok .unchanged, disk) := by
  obtain ⟨root, settings, servers, read, ensured, found⟩ := holds
  have planned : plannedInstall root brickBin format false = .ok (.unchanged, none) := by
    unfold plannedInstall
    rw [ensured]
    simp only [bind, Except.bind, found, Json.same_refl]
    rfl
  unfold jsonInstall
  rw [read]
  dsimp only
  rw [planned]
  rfl

theorem plannedUninstall_of_found {root : Json} {settings servers : KeyTable Json} {entry : Json}
    (ensured : ensureServers root format = .ok (settings, servers))
    (found : servers.lookup serverName = some entry) : plannedUninstall root format =
      (.removed, some (withServers format settings (remove serverName servers))) := by
  obtain ⟨rfl, _⟩ := ensureServers_eq_ok ensured
  unfold ensureServers at ensured
  dsimp only at ensured
  unfold plannedUninstall
  dsimp only
  cases here : settings.lookup format.jsonRootKey with
  | none =>
      rw [here] at ensured
      cases ensured
      cases found
  | some value =>
      rw [here] at ensured
      cases value with
      | object inside =>
          cases ensured
          dsimp only
          rw [found]
          rfl
      | _ => cases ensured

/-- An uninstall that succeeds where Brick's server is leaves none. -/
theorem uninstall_of_holds {brickBin : String} {disk left : Disk} {fault : Option Fault}
    {action : HookAction} (holds : Holds target format brickBin disk.file)
    (ok : jsonUninstall target format fault disk = (.ok action, left)) :
    action = .removed ∧ serverOf format left.file serverName = none ∧
      ∀ otherBin, jsonStatus target otherBin format left = .ok .absent := by
  obtain ⟨root, settings, servers, read, ensured, found⟩ := holds
  have planned := plannedUninstall_of_found ensured found
  unfold jsonUninstall at ok
  rw [read] at ok
  dsimp only at ok
  rcases @commit_cases target fault disk (plannedUninstall root format) with
    ⟨nothing, _⟩ | ⟨written, isWritten, _, done⟩ | ⟨_, _, failed⟩
  · rw [planned] at nothing
    cases nothing
  · rw [done] at ok
    rw [planned] at isWritten ok
    cases isWritten
    cases ok
    have gone : ((withServers format settings (remove serverName servers)).get
        format.jsonRootKey).bind (Json.get serverName) = none := by
      rw [get_withServers]
      exact lookup_remove_self serverName servers
    refine ⟨rfl, gone, fun otherBin => ?_⟩
    unfold jsonStatus
    simp only [bind, Except.bind, readJson, gone]
    rfl
  · rw [failed] at ok
    cases ok

theorem uninstall_succeeds {brickBin : String} {disk : Disk}
    (holds : Holds target format brickBin disk.file) :
    (jsonUninstall target format none disk).1 = .ok .removed := by
  obtain ⟨root, settings, servers, read, ensured, found⟩ := holds
  unfold jsonUninstall
  rw [read]
  dsimp only
  rw [plannedUninstall_of_found ensured found]
  rfl

/-! ## Runs -/

theorem afterCalls_keeps (disk : Disk) (calls : List McpCall) :
    Keeps format disk.file (afterCalls target format disk calls).file := by
  unfold afterCalls
  induction calls generalizing disk with
  | nil => exact Keeps.refl _
  | cons call rest ih => exact (run_keeps disk call).trans (ih _)

def userTarget : Target := { path := "mcp.json", parent := ".", temp := "mcp.brick-tmp" }

/-- A file with a server of the user's. -/
def oneServer : Disk where
  file := .document (.object [("mcpServers", .object [("other",
    .object [("command", .string "serve")])])])
  temp := none

end BrickTrace.McpConfig
