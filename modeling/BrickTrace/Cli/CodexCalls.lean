import BrickTrace.Cli.CodexConfig
import BrickTrace.Lib.Noninterference

/-!
# Two managers of one configuration

`brick agent` has Codex's hook and Codex's server installed, uninstalled and reported by two
managers, which read and write one file.  The hook's one has the key `hooks` of its document and
the servers' one the key `mcp_servers`.  Any write may fail.
-/

set_option autoImplicit false

namespace BrickTrace.CodexConfig

open KeyedLists SharedLists HookFiles Toml
open McpConfig (serverName tomlInstall tomlServers tomlHasBrick tomlEntryMatches brickTomlTable)
open McpConfig (Fault Target TomlDisk TomlFile readToml writeToml tomlUninstall tomlStatus)
open Noninterference

inductive Side where
  | hook
  | servers

def Side.key : Side → String
  | .hook => "hooks"
  | .servers => "mcp_servers"

inductive HookOp where
  | install (force : Bool)
  | uninstall
  | status

structure ConfigCall where
  side : Side
  op : HookOp
  brickBin : String
  fault : Option Fault

/-- The action, and the document unless there is nothing to write. -/
def toWrite (done : HookAction × KeyTable Item) : HookAction × Option (KeyTable Item) :=
  match done.1 with
  | .unchanged => (.unchanged, none)
  | .absent => (.absent, none)
  | action => (action, some done.2)

def ConfigCall.plan (call : ConfigCall) (document : KeyTable Item) :
    Except String (HookAction × Option (KeyTable Item)) :=
  match call.side, call.op with
  | .hook, .install force => (CodexHook.codexInstall call.brickBin force document).map toWrite
  | .hook, .uninstall => .ok (toWrite (CodexHook.codexUninstall document))
  | .hook, .status => .ok (CodexHook.codexStatus document call.brickBin, none)
  | .servers, .install force => .ok (toWrite (tomlInstall call.brickBin force document))
  | .servers, .uninstall => .ok (toWrite (tomlUninstall document))
  | .servers, .status => .ok (tomlStatus document call.brickBin, none)

variable (target : Target)

def ConfigCall.run (call : ConfigCall) (disk : TomlDisk) : Except String HookAction × TomlDisk :=
  match readToml target disk.file with
  | .error failure => (.error failure, disk)
  | .ok document =>
      match call.plan document with
      | .error failure => (.error failure, disk)
      | .ok (action, none) => (.ok action, disk)
      | .ok (action, some written) =>
          match writeToml target call.fault written disk with
          | (.ok _, after) => (.ok action, after)
          | (.error failure, after) => (.error failure, after)

/-- What a reader of the file finds under a key. -/
def settingAt (disk : TomlDisk) (key : String) : Except String (Option Item) :=
  (readToml target disk.file).map (List.lookup key)

def shownAt (key : String) (plan : HookAction × Option (KeyTable Item)) :
    HookAction × Option (Option Item) :=
  (plan.1, plan.2.map (List.lookup key))

theorem shownAt_toWrite {key : String} {one other : HookAction × KeyTable Item}
    (action : one.1 = other.1) (value : one.2.lookup key = other.2.lookup key) :
    shownAt key (toWrite one) = shownAt key (toWrite other) := by
  unfold toWrite shownAt
  rw [action]
  cases other.1 <;> simp [value]

/-! ## A manager looks at its own key -/

theorem preToolUse_of_lookup {one other : KeyTable Item}
    (same : one.lookup "hooks" = other.lookup "hooks") :
    CodexHook.preToolUse one = CodexHook.preToolUse other := by
  unfold CodexHook.preToolUse listIn
  rw [same]

theorem codexHasBrickHooks_of_lookup {one other : KeyTable Item}
    (same : one.lookup "hooks" = other.lookup "hooks") :
    CodexHook.codexHasBrickHooks one = CodexHook.codexHasBrickHooks other := by
  unfold CodexHook.codexHasBrickHooks
  rw [preToolUse_of_lookup same]

theorem codexMatches_of_lookup {one other : KeyTable Item}
    (same : one.lookup "hooks" = other.lookup "hooks") (brickBin : String) :
    CodexHook.codexMatches one brickBin = CodexHook.codexMatches other brickBin := by
  unfold CodexHook.codexMatches
  rw [preToolUse_of_lookup same]

theorem tomlServers_of_lookup {one other : KeyTable Item}
    (same : one.lookup "mcp_servers" = other.lookup "mcp_servers") :
    tomlServers one = tomlServers other := by
  unfold tomlServers
  rw [same]

theorem tomlHasBrick_of_lookup {one other : KeyTable Item}
    (same : one.lookup "mcp_servers" = other.lookup "mcp_servers") :
    tomlHasBrick one = tomlHasBrick other := by
  unfold tomlHasBrick
  rw [tomlServers_of_lookup same]

theorem tomlEntryMatches_of_lookup {one other : KeyTable Item}
    (same : one.lookup "mcp_servers" = other.lookup "mcp_servers") (brickBin : String) :
    tomlEntryMatches one brickBin = tomlEntryMatches other brickBin := by
  unfold tomlEntryMatches
  rw [tomlServers_of_lookup same]

theorem lookup_withHook_of_lookup {one other : KeyTable Item}
    (same : one.lookup "hooks" = other.lookup "hooks") (brickBin : String) :
    (CodexHook.withHook brickBin one).lookup "hooks" =
      (CodexHook.withHook brickBin other).lookup "hooks" := by
  rw [lookup_withHook, lookup_withHook, CodexHook.entriesOf_eq, CodexHook.entriesOf_eq,
    preToolUse_of_lookup same]
  unfold listsOf
  rw [same]

theorem codexInstall_of_lookup {one other : KeyTable Item}
    (same : one.lookup "hooks" = other.lookup "hooks") (brickBin : String) (force : Bool) :
    ((CodexHook.codexInstall brickBin force one).map toWrite).map (shownAt "hooks") =
      ((CodexHook.codexInstall brickBin force other).map toWrite).map (shownAt "hooks") := by
  have has := codexHasBrickHooks_of_lookup same
  by_cases already : CodexHook.AlreadyInstalled brickBin force one
  · have alike : CodexHook.AlreadyInstalled brickBin force other := by
      unfold CodexHook.AlreadyInstalled at already ⊢
      rwa [← has, ← codexMatches_of_lookup same]
    rw [CodexHook.install_unchanged_iff.mpr already, CodexHook.install_unchanged_iff.mpr alike]
    rfl
  · have alike : ¬ CodexHook.AlreadyInstalled brickBin force other := by
      unfold CodexHook.AlreadyInstalled at already ⊢
      rwa [← has, ← codexMatches_of_lookup same]
    rw [CodexHook.codexInstall_eq already, CodexHook.codexInstall_eq alike, has]
    exact congrArg Except.ok (shownAt_toWrite rfl (lookup_withHook_of_lookup same brickBin))

theorem codexUninstall_of_lookup {one other : KeyTable Item}
    (same : one.lookup "hooks" = other.lookup "hooks") :
    (CodexHook.codexUninstall one).1 = (CodexHook.codexUninstall other).1 ∧
      (CodexHook.codexUninstall one).2.lookup "hooks" =
        (CodexHook.codexUninstall other).2.lookup "hooks" := by
  have taken : (takeOut Toml.format "hooks" "PreToolUse" CodexHook.parties one).map
        (List.lookup "hooks") =
      (takeOut Toml.format "hooks" "PreToolUse" CodexHook.parties other).map (List.lookup "hooks") :=
    lookup_takeOut same
  unfold CodexHook.codexUninstall
  cases first : takeOut Toml.format "hooks" "PreToolUse" CodexHook.parties one with
  | none =>
      cases second : takeOut Toml.format "hooks" "PreToolUse" CodexHook.parties other with
      | none => exact ⟨rfl, same⟩
      | some _ =>
          rw [first, second] at taken
          cases taken
  | some _ =>
      cases second : takeOut Toml.format "hooks" "PreToolUse" CodexHook.parties other with
      | none =>
          rw [first, second] at taken
          cases taken
      | some _ =>
          rw [first, second] at taken
          exact ⟨rfl, Option.some.inj taken⟩

theorem tomlInstall_of_lookup {one other : KeyTable Item}
    (same : one.lookup "mcp_servers" = other.lookup "mcp_servers") (brickBin : String)
    (force : Bool) :
    (tomlInstall brickBin force one).1 = (tomlInstall brickBin force other).1 ∧
      (tomlInstall brickBin force one).2.lookup "mcp_servers" =
        (tomlInstall brickBin force other).2.lookup "mcp_servers" := by
  unfold tomlInstall
  rw [tomlHasBrick_of_lookup same, tomlEntryMatches_of_lookup same, tomlServers_of_lookup same]
  split
  · exact ⟨rfl, same⟩
  · exact ⟨rfl, by rw [Toml.lookup_insert_self, Toml.lookup_insert_self]⟩

theorem tomlUninstall_of_lookup {one other : KeyTable Item}
    (same : one.lookup "mcp_servers" = other.lookup "mcp_servers") :
    (tomlUninstall one).1 = (tomlUninstall other).1 ∧
      (tomlUninstall one).2.lookup "mcp_servers" = (tomlUninstall other).2.lookup "mcp_servers" := by
  unfold tomlUninstall
  rw [tomlServers_of_lookup same]
  split
  · exact ⟨rfl, same⟩
  · split
    · exact ⟨rfl, same⟩
    · split
      · exact ⟨rfl, by rw [lookup_remove_self, lookup_remove_self]⟩
      · exact ⟨rfl, by rw [Toml.lookup_insert_self, Toml.lookup_insert_self]⟩

theorem plan_of_lookup (call : ConfigCall) {one other : KeyTable Item}
    (same : one.lookup call.side.key = other.lookup call.side.key) :
    (call.plan one).map (shownAt call.side.key) = (call.plan other).map (shownAt call.side.key) := by
  obtain ⟨side, op, brickBin, fault⟩ := call
  cases side with
  | hook =>
      cases op with
      | install force => exact codexInstall_of_lookup same brickBin force
      | uninstall =>
          obtain ⟨action, value⟩ := codexUninstall_of_lookup same
          exact congrArg Except.ok (shownAt_toWrite action value)
      | status =>
          unfold ConfigCall.plan CodexHook.codexStatus
          dsimp only
          rw [codexHasBrickHooks_of_lookup same, codexMatches_of_lookup same]
  | servers =>
      cases op with
      | install force =>
          obtain ⟨action, value⟩ := tomlInstall_of_lookup same brickBin force
          exact congrArg Except.ok (shownAt_toWrite action value)
      | uninstall =>
          obtain ⟨action, value⟩ := tomlUninstall_of_lookup same
          exact congrArg Except.ok (shownAt_toWrite action value)
      | status =>
          unfold ConfigCall.plan tomlStatus
          dsimp only
          rw [tomlHasBrick_of_lookup same, tomlEntryMatches_of_lookup same]

/-! ## A manager writes its own key -/

theorem written_of_toWrite {done : HookAction × KeyTable Item} {action : HookAction}
    {written : KeyTable Item} (writes : toWrite done = (action, some written)) : done.2 = written := by
  unfold toWrite at writes
  split at writes
  · cases writes
  · cases writes
  · exact Option.some.inj (congrArg Prod.snd writes)

theorem codexInstall_frame {brickBin : String} {force : Bool} {document : KeyTable Item}
    {done : HookAction × KeyTable Item}
    (ok : CodexHook.codexInstall brickBin force document = .ok done) {name : String}
    (other : name ≠ "hooks") : done.2.lookup name = document.lookup name := by
  by_cases already : CodexHook.AlreadyInstalled brickBin force document
  · rw [CodexHook.install_unchanged_iff.mpr already] at ok
    cases ok
    rfl
  · rw [CodexHook.codexInstall_eq already] at ok
    cases ok
    exact keys_withHook brickBin document name other

theorem codexUninstall_frame (document : KeyTable Item) {name : String} (other : name ≠ "hooks") :
    (CodexHook.codexUninstall document).2.lookup name = document.lookup name := by
  unfold CodexHook.codexUninstall
  cases taken : takeOut Toml.format "hooks" "PreToolUse" CodexHook.parties document with
  | none => rfl
  | some pruned => exact lookup_takeOut_of_ne other taken

theorem tomlInstall_frame (brickBin : String) (force : Bool) (document : KeyTable Item)
    {name : String} (other : name ≠ "mcp_servers") :
    (tomlInstall brickBin force document).2.lookup name = document.lookup name := by
  rcases tomlInstall_eq brickBin force document with ⟨same, _⟩ | written
  · rw [same]
  · rw [written, Toml.lookup_insert_of_ne _ _ other]

theorem tomlUninstall_frame (document : KeyTable Item) {name : String}
    (other : name ≠ "mcp_servers") :
    (tomlUninstall document).2.lookup name = document.lookup name := by
  unfold tomlUninstall
  split
  · rfl
  · split
    · rfl
    · split
      · exact lookup_remove_of_ne other document
      · exact Toml.lookup_insert_of_ne _ _ other

theorem plan_frame {call : ConfigCall} {document written : KeyTable Item} {action : HookAction}
    (planned : call.plan document = .ok (action, some written)) {name : String}
    (other : name ≠ call.side.key) : written.lookup name = document.lookup name := by
  obtain ⟨side, op, brickBin, fault⟩ := call
  cases side with
  | hook =>
      cases op with
      | install force =>
          change (CodexHook.codexInstall brickBin force document).map toWrite = _ at planned
          cases done : CodexHook.codexInstall brickBin force document with
          | error failure =>
              rw [done] at planned
              cases planned
          | ok result =>
              rw [done] at planned
              rw [← written_of_toWrite (Except.ok.inj planned)]
              exact codexInstall_frame done other
      | uninstall =>
          rw [← written_of_toWrite (Except.ok.inj planned)]
          exact codexUninstall_frame document other
      | status => cases planned
  | servers =>
      cases op with
      | install force =>
          rw [← written_of_toWrite (Except.ok.inj planned)]
          exact tomlInstall_frame brickBin force document other
      | uninstall =>
          rw [← written_of_toWrite (Except.ok.inj planned)]
          exact tomlUninstall_frame document other
      | status => cases planned

/-! ## Runs of calls -/

variable {target}

theorem settingAt_document {disk : TomlDisk} {document : KeyTable Item}
    (read : readToml target disk.file = .ok document) (key : String) :
    settingAt target disk key = .ok (document.lookup key) := by
  unfold settingAt
  rw [read]
  rfl

theorem run_unread (call : ConfigCall) {disk : TomlDisk} {failure : String}
    (read : readToml target disk.file = .error failure) :
    call.run target disk = (.error failure, disk) := by
  unfold ConfigCall.run
  rw [read]

theorem run_unplanned {call : ConfigCall} {disk : TomlDisk} {document : KeyTable Item}
    {failure : String} (read : readToml target disk.file = .ok document)
    (planned : call.plan document = .error failure) :
    call.run target disk = (.error failure, disk) := by
  unfold ConfigCall.run
  rw [read]
  dsimp only
  rw [planned]

theorem run_unwritten {call : ConfigCall} {disk : TomlDisk} {document : KeyTable Item}
    {action : HookAction} (read : readToml target disk.file = .ok document)
    (planned : call.plan document = .ok (action, none)) :
    call.run target disk = (.ok action, disk) := by
  unfold ConfigCall.run
  rw [read]
  dsimp only
  rw [planned]

/-- How a write ends is up to the fault, and a failed one leaves the file. -/
theorem run_written {call : ConfigCall} {disk : TomlDisk} {document written : KeyTable Item}
    {action : HookAction} (read : readToml target disk.file = .ok document)
    (planned : call.plan document = .ok (action, some written)) :
    (call.run target disk).1 =
        (writeToml target call.fault [] ⟨.missing, none⟩).1.map (fun _ => action) ∧
      ∀ key, settingAt target (call.run target disk).2 key =
        .ok (if call.fault = none then written.lookup key else document.lookup key) := by
  unfold ConfigCall.run
  rw [read]
  dsimp only
  rw [planned]
  dsimp only
  unfold writeToml
  cases call.fault with
  | none => exact ⟨rfl, fun _ => rfl⟩
  | some fault => cases fault <;> exact ⟨rfl, fun key => settingAt_document read key⟩

theorem run_others (call : ConfigCall) (disk : TomlDisk) {name : String}
    (other : name ≠ call.side.key) :
    settingAt target (call.run target disk).2 name = settingAt target disk name := by
  cases read : readToml target disk.file with
  | error failure => rw [run_unread call read]
  | ok document =>
      cases planned : call.plan document with
      | error failure => rw [run_unplanned read planned]
      | ok plan =>
          obtain ⟨action, write⟩ := plan
          cases write with
          | none => rw [run_unwritten read planned]
          | some written =>
              rw [(run_written read planned).2, settingAt_document read, plan_frame planned other]
              rw [ite_self]

theorem run_of_setting (call : ConfigCall) {one other : TomlDisk}
    (same : settingAt target one call.side.key = settingAt target other call.side.key) :
    (call.run target one).1 = (call.run target other).1 ∧
      settingAt target (call.run target one).2 call.side.key =
        settingAt target (call.run target other).2 call.side.key := by
  cases readOne : readToml target one.file with
  | error failure =>
      cases readOther : readToml target other.file with
      | error failure' =>
          unfold settingAt at same
          rw [readOne, readOther] at same
          cases same
          rw [run_unread call readOne, run_unread call readOther]
          unfold settingAt
          rw [readOne, readOther]
          exact ⟨rfl, rfl⟩
      | ok _ =>
          unfold settingAt at same
          rw [readOne, readOther] at same
          cases same
  | ok first =>
      cases readOther : readToml target other.file with
      | error failure =>
          unfold settingAt at same
          rw [readOne, readOther] at same
          cases same
      | ok second =>
          have alike : first.lookup call.side.key = second.lookup call.side.key := by
            rw [settingAt_document readOne, settingAt_document readOther] at same
            exact Except.ok.inj same
          have plans := plan_of_lookup call alike
          cases planOne : call.plan first with
          | error failure =>
              cases planOther : call.plan second with
              | ok plan =>
                  rw [planOne, planOther] at plans
                  cases plans
              | error failure' =>
                  rw [planOne, planOther] at plans
                  cases plans
                  rw [run_unplanned readOne planOne, run_unplanned readOther planOther]
                  exact ⟨rfl, same⟩
          | ok plan =>
              obtain ⟨action, write⟩ := plan
              cases planOther : call.plan second with
              | error failure =>
                  rw [planOne, planOther] at plans
                  cases plans
              | ok plan =>
                  obtain ⟨action', write'⟩ := plan
                  rw [planOne, planOther] at plans
                  have shown := Except.ok.inj plans
                  have actions : action = action' := congrArg Prod.fst shown
                  have writes : write.map (List.lookup call.side.key) =
                      write'.map (List.lookup call.side.key) := congrArg Prod.snd shown
                  subst actions
                  cases write with
                  | none =>
                      cases write' with
                      | some _ => cases writes
                      | none =>
                          rw [run_unwritten readOne planOne, run_unwritten readOther planOther]
                          exact ⟨rfl, same⟩
                  | some written =>
                      cases write' with
                      | none => cases writes
                      | some written' =>
                          obtain ⟨answerOne, lastOne⟩ := run_written readOne planOne
                          obtain ⟨answerOther, lastOther⟩ := run_written readOther planOther
                          rw [answerOne, answerOther, lastOne, lastOther, alike]
                          refine ⟨rfl, ?_⟩
                          have values := Option.some.inj writes
                          rw [show written.lookup call.side.key =
                            written'.lookup call.side.key from values]

theorem run_keepsTo (call : ConfigCall) :
    KeepsTo (settingAt target) call.side.key (call.run target) where
  answer same := (run_of_setting call same).1
  own same := (run_of_setting call same).2
  others disk := fun other => run_others call disk other

/-- Whatever calls of the two managers follow each other, and whichever writes fail: each
manager's calls are answered as if the other's were not made, its key holds what its own calls
leave there, and every other key what it held. -/
theorem managers_do_not_interfere (target : Target) (disk : TomlDisk) (calls : List ConfigCall) :
    (∀ side : Side,
      (runCalls (ConfigCall.run target) disk calls).1.filter
          (fun answered => answered.1.side.key = side.key) =
        (runCalls (ConfigCall.run target) disk
          (calls.filter fun call => call.side.key = side.key)).1 ∧
      settingAt target (runCalls (ConfigCall.run target) disk calls).2 side.key =
        settingAt target (runCalls (ConfigCall.run target) disk
          (calls.filter fun call => call.side.key = side.key)).2 side.key) ∧
    ∀ key, key ≠ Side.hook.key → key ≠ Side.servers.key →
      settingAt target (runCalls (ConfigCall.run target) disk calls).2 key =
        settingAt target disk key := by
  refine ⟨fun side => runCalls_of_owner run_keepsTo calls side.key rfl, fun key noHook noServers => ?_⟩
  refine part_runCalls run_keepsTo (fun call _ => ?_) disk
  cases held : call.side with
  | hook => exact Ne.symm noHook
  | servers => exact Ne.symm noServers

/-! ## From an install on -/

/-- A status recognises the hook by its command, and Brick's server by its name. -/
def Side.knows (brickBin : String) : Side → Prop
  | .hook => isBrickCommand (explainCommand brickBin) = true
  | .servers => True

theorem codexStatus_of_install {brickBin : String} {force : Bool} {document : KeyTable Item}
    {done : HookAction × KeyTable Item} (known : Side.hook.knows brickBin)
    (ok : CodexHook.codexInstall brickBin force document = .ok done) :
    CodexHook.codexStatus done.2 brickBin = .present := by
  unfold CodexHook.codexStatus
  by_cases already : CodexHook.AlreadyInstalled brickBin force document
  · rw [CodexHook.install_unchanged_iff.mpr already] at ok
    cases ok
    rw [already.1, if_neg (by decide), if_pos already.2.2]
  · rw [CodexHook.codexInstall_eq already] at ok
    cases ok
    rw [CodexHook.codexHasBrickHooks_withHook, show isBrickCommand _ = true from known,
      if_neg (by decide), if_pos (CodexHook.codexMatches_withHook brickBin document)]

theorem tomlServers_insert (servers document : KeyTable Item) :
    tomlServers (Toml.insert "mcp_servers" (.table servers) document) = some servers := by
  unfold tomlServers
  rw [Toml.lookup_insert_self]
  rfl

theorem tomlStatus_of_install (brickBin : String) (force : Bool) (document : KeyTable Item) :
    tomlStatus (tomlInstall brickBin force document).2 brickBin = .present := by
  unfold tomlStatus tomlInstall
  split
  · rename_i already
    rw [already.1, if_neg (by decide), if_pos already.2.2]
  · dsimp only
    have has : tomlHasBrick (Toml.insert "mcp_servers" (.table (Toml.insert serverName
        (.table (brickTomlTable brickBin)) ((tomlServers document).getD []))) document) = true := by
      unfold tomlHasBrick
      rw [tomlServers_insert, Option.any_some, Toml.lookup_insert_self]
      rfl
    have isMatch : tomlEntryMatches (Toml.insert "mcp_servers" (.table (Toml.insert serverName
        (.table (brickTomlTable brickBin)) ((tomlServers document).getD []))) document)
          brickBin = true := by
      unfold tomlEntryMatches
      rw [tomlServers_insert, Option.bind_some, Toml.lookup_insert_self]
      change ((brickBin == brickBin) && _) = true
      rw [beq_self_eq_true]
      rfl
    rw [has, if_neg (by decide), if_pos isMatch]

theorem present_of_plan {install check : ConfigCall} {force : Bool} {document : KeyTable Item}
    {action : HookAction} {write : Option (KeyTable Item)} (installs : install.op = .install force)
    (checks : check.op = .status) (sides : check.side = install.side)
    (binaries : check.brickBin = install.brickBin) (known : install.side.knows install.brickBin)
    (planned : install.plan document = .ok (action, write)) :
    check.plan (write.getD document) = .ok (.present, none) := by
  obtain ⟨side, op, brickBin, fault⟩ := install
  obtain ⟨side', op', brickBin', fault'⟩ := check
  cases installs
  cases checks
  cases sides
  cases binaries
  have kept {done : HookAction × KeyTable Item} (writes : toWrite done = (action, write))
      (unchanged : done.1 = .unchanged → done.2 = document) (never : done.1 ≠ .absent) :
      write.getD document = done.2 := by
    unfold toWrite at writes
    split at writes
    · rename_i same
      cases writes
      exact (unchanged same).symm
    · rename_i absent
      exact absurd absent never
    · cases writes
      rfl
  cases side with
  | hook =>
      change (CodexHook.codexInstall brickBin force document).map toWrite = _ at planned
      cases done : CodexHook.codexInstall brickBin force document with
      | error failure =>
          rw [done] at planned
          cases planned
      | ok result =>
          rw [done] at planned
          have written : write.getD document = result.2 := by
            by_cases already : CodexHook.AlreadyInstalled brickBin force document
            · rw [CodexHook.install_unchanged_iff.mpr already] at done
              cases done
              exact kept (Except.ok.inj planned) (fun _ => rfl) nofun
            · rw [CodexHook.codexInstall_eq already] at done
              cases done
              refine kept (Except.ok.inj planned) (fun same => ?_) (fun same => ?_)
              · dsimp only at same
                split at same <;> cases same
              · dsimp only at same
                split at same <;> cases same
          rw [written]
          exact congrArg (fun status => Except.ok (status, none)) (codexStatus_of_install known done)
  | servers =>
      have written : write.getD document = (tomlInstall brickBin force document).2 := by
        refine kept (Except.ok.inj planned) (fun same => ?_) (fun same => ?_)
        · unfold tomlInstall at same ⊢
          split at same
          · rename_i already
            rw [if_pos already]
          · dsimp only at same
            split at same <;> cases same
        · unfold tomlInstall at same
          split at same
          · cases same
          · dsimp only at same
            split at same <;> cases same
      rw [written]
      exact congrArg (fun status => Except.ok (status, none))
        (tomlStatus_of_install brickBin force document)

theorem read_of_setting {disk : TomlDisk} {key : String} {value : Option Item}
    (holds : settingAt target disk key = .ok value) :
    ∃ document, readToml target disk.file = .ok document ∧ document.lookup key = value := by
  unfold settingAt at holds
  cases read : readToml target disk.file with
  | error failure =>
      rw [read] at holds
      cases holds
  | ok document =>
      rw [read] at holds
      exact ⟨document, rfl, Except.ok.inj holds⟩

theorem present_of_install {install check : ConfigCall} {force : Bool} {disk : TomlDisk}
    {action : HookAction} (installs : install.op = .install force) (checks : check.op = .status)
    (sides : check.side = install.side) (binaries : check.brickBin = install.brickBin)
    (known : install.side.knows install.brickBin)
    (answered : (install.run target disk).1 = .ok action) :
    (check.run target (install.run target disk).2).1 = .ok .present := by
  cases read : readToml target disk.file with
  | error failure =>
      rw [run_unread install read] at answered
      cases answered
  | ok document =>
      cases planned : install.plan document with
      | error failure =>
          rw [run_unplanned read planned] at answered
          cases answered
      | ok plan =>
          obtain ⟨planAction, write⟩ := plan
          have present := present_of_plan installs checks sides binaries known planned
          cases write with
          | none =>
              rw [run_unwritten read planned, run_unwritten read present]
          | some written =>
              obtain ⟨answer, after⟩ := run_written read planned
              have noFault : install.fault = none := by
                rw [answer] at answered
                cases failing : install.fault with
                | none => rfl
                | some fault =>
                    rw [failing] at answered
                    cases fault <;> cases answered
              rw [noFault] at after
              obtain ⟨last, readLast, same⟩ := read_of_setting (after check.side.key)
              have plans := plan_of_lookup check same
              rw [show check.plan written = _ from present] at plans
              cases planLast : check.plan last with
              | error failure =>
                  rw [planLast] at plans
                  cases plans
              | ok plan =>
                  obtain ⟨lastAction, lastWrite⟩ := plan
                  rw [planLast] at plans
                  cases lastWrite with
                  | some _ => cases plans
                  | none =>
                      cases plans
                      rw [run_unwritten readLast planLast]

/-- A status, and a call whose write fails, leave what the file holds. -/
theorem settingAt_run_of_idle {call : ConfigCall} (idle : call.op = .status ∨ call.fault ≠ none)
    (disk : TomlDisk) (key : String) :
    settingAt target (call.run target disk).2 key = settingAt target disk key := by
  cases read : readToml target disk.file with
  | error failure => rw [run_unread call read]
  | ok document =>
      cases planned : call.plan document with
      | error failure => rw [run_unplanned read planned]
      | ok plan =>
          obtain ⟨action, write⟩ := plan
          cases write with
          | none => rw [run_unwritten read planned]
          | some written =>
              rw [(run_written read planned).2, settingAt_document read]
              rcases idle with status | fails
              · obtain ⟨side, op, brickBin, fault⟩ := call
                cases status
                cases side <;> cases planned
              · rw [if_neg fails]

/-- From an install that succeeds on, the status of its manager is that it is present, whatever
the other manager does, up to the next call of its own that changes the file. -/
theorem present_until_changed (target : Target) {install check : ConfigCall} {force : Bool}
    {disk : TomlDisk} {action : HookAction} (later : List ConfigCall)
    (installs : install.op = .install force) (checks : check.op = .status)
    (sides : check.side = install.side) (binaries : check.brickBin = install.brickBin)
    (known : install.side.knows install.brickBin)
    (answered : (install.run target disk).1 = .ok action)
    (idle : ∀ call ∈ later, call.side = install.side → call.op = .status ∨ call.fault ≠ none) :
    (check.run target
      (runCalls (ConfigCall.run target) (install.run target disk).2 later).2).1 = .ok .present := by
  have kept (start : TomlDisk) :
      settingAt target (runCalls (ConfigCall.run target) start later).2 check.side.key =
        settingAt target start check.side.key := by
    induction later generalizing start with
    | nil => rfl
    | cons call rest ih =>
        rw [runCalls_cons]
        refine (ih (fun call member => idle call (List.mem_cons_of_mem _ member)) _).trans ?_
        by_cases own : call.side = install.side
        · exact settingAt_run_of_idle (idle call List.mem_cons_self own) start _
        · refine run_others call start fun same => own ?_
          rw [← sides]
          cases held : check.side <;> cases other : call.side <;>
            first | rfl | (rw [held, other] at same; exact absurd same (by decide))
  rw [(run_of_setting check (kept _)).1]
  exact present_of_install installs checks sides binaries known answered

def serverCall (op : HookOp) : ConfigCall := ⟨.servers, op, "brick", none⟩

def hookCall (op : HookOp) : ConfigCall := ⟨.hook, op, "brick", none⟩

/-- Brick's hook comes and goes after its server is installed. -/
theorem server_present_after_hooks :
    ((serverCall .status).run ⟨"config.toml", ".codex", "config.brick-tmp"⟩
      (runCalls (ConfigCall.run ⟨"config.toml", ".codex", "config.brick-tmp"⟩)
        ((serverCall (.install false)).run ⟨"config.toml", ".codex", "config.brick-tmp"⟩
          ⟨.missing, none⟩).2 [hookCall (.install false), hookCall .uninstall]).2).1 =
      .ok .present := by
  refine @present_until_changed _ (serverCall (.install false)) _ false _ .installed _ rfl rfl rfl
    rfl trivial rfl fun call member own => ?_
  rcases List.mem_cons.mp member with rfl | last
  · cases own
  · rw [List.mem_singleton.mp last] at own
    cases own

end BrickTrace.CodexConfig
