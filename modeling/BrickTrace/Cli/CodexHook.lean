import BrickTrace.Cli.HookFiles
import BrickTrace.Lib.Fallible
import BrickTrace.Lib.TomlTree

/-!
# The hook in Codex's settings

Codex has its hooks in the tables `hooks.PreToolUse` of a TOML document.  An install takes the
entries with a Brick hook out and puts the wanted one at the end; a `hooks` or a `PreToolUse`
of another form makes room for a new one.
-/

set_option autoImplicit false

namespace BrickTrace.CodexHook

open KeyedLists SharedLists HookFiles Toml

def codexExplainMatcher : String :=
  "Read|Grep|Glob|mcp__.*read.*|mcp__.*grep.*|mcp__.*glob.*"

def codexHookTable (matcher command statusMessage : String) : KeyTable Item :=
  [("matcher", .value (.string matcher)),
    ("hooks", .arrayOfTables [[("type", .value (.string "command")),
      ("command", .value (.string command)), ("timeout", .value (.integer 30)),
      ("statusMessage", .value (.string statusMessage))]])]

def codexDesired (brickBin : String) : List (KeyTable Item) :=
  [codexHookTable codexExplainMatcher (explainCommand brickBin) "Loading Brick causal context"]

/-- The hooks of an entry, when they are tables of their own. -/
def entryHooks (entry : KeyTable Item) : List (KeyTable Item) :=
  ((entry.lookup "hooks").bind Item.asArrayOfTables).getD []

def withEntryHooks (entry : KeyTable Item) (hooks : List (KeyTable Item)) : KeyTable Item :=
  Toml.insert "hooks" (.arrayOfTables hooks) entry

def strOf (key : String) (table : KeyTable Item) : Option String := (table.lookup key).bind Item.asStr

def isBrickHook (hook : KeyTable Item) : Bool := (strOf "command" hook).any isBrickCommand

def codexEntryIsBrick (entry : KeyTable Item) : Bool := (entryHooks entry).any isBrickHook

/-- An entry is the user's as far as it has hooks that are not Brick's, or none at all. -/
def parties : Parties (KeyTable Item) := Parties.ofParts entryHooks withEntryHooks isBrickHook

/-! ## The operations -/

def codexView (document : KeyTable Item) : View String Item (KeyTable Item) :=
  view Toml.format "hooks" document

def preToolUse (document : KeyTable Item) : Option (List (KeyTable Item)) :=
  listIn Toml.format "hooks" "PreToolUse" document

def codexHasBrickHooks (document : KeyTable Item) : Bool :=
  (preToolUse document).any fun entries => entries.any codexEntryIsBrick

def codexEntryMatches (entry : KeyTable Item) (matcher command status : String) : Bool :=
  strOf "matcher" entry == some matcher && (entryHooks entry).any fun hook =>
    strOf "type" hook == some "command" && strOf "command" hook == some command &&
      (hook.lookup "timeout").bind Item.asInteger == some 30 &&
      strOf "statusMessage" hook == some status

/-- The matcher of a wanted entry, and the command and the message of its first hook. -/
def wanted (desired : KeyTable Item) : Option (String × String × String) := do
  let matcher ← strOf "matcher" desired
  let hook ← (entryHooks desired).head?
  let command ← strOf "command" hook
  let status ← strOf "statusMessage" hook
  return (matcher, command, status)

def codexMatches (document : KeyTable Item) (brickBin : String) : Bool :=
  (preToolUse document).any fun entries => (codexDesired brickBin).all fun desired =>
    (wanted desired).any fun (matcher, command, status) =>
      entries.any fun entry => codexEntryMatches entry matcher command status

def ensureHooksTable (document : KeyTable Item) : KeyTable Item :=
  if ((document.lookup "hooks").bind Item.asTable).isSome then document
  else Toml.insert "hooks" (.table []) document

def ensurePreToolUse (document : KeyTable Item) : KeyTable Item :=
  if (preToolUse document).isSome then document
  else withEntries Toml.format "hooks" "PreToolUse" document
    (listsOf Toml.format "hooks" document) []

def codexInstall (brickBin : String) (force : Bool) (document : KeyTable Item) :
    Except String (HookAction × KeyTable Item) :=
  if codexHasBrickHooks document = true ∧ force = false ∧ codexMatches document brickBin = true then
    .ok (.unchanged, document)
  else
    let prepared := ensurePreToolUse (ensureHooksTable document)
    match preToolUse prepared with
    | none => .error "hooks.PreToolUse is not an array of tables"
    | some pre => .ok (if codexHasBrickHooks document then .updated else .installed,
        withEntries Toml.format "hooks" "PreToolUse" prepared
          (listsOf Toml.format "hooks" prepared)
          ((pre.filter fun entry => !codexEntryIsBrick entry) ++ codexDesired brickBin))

def codexUninstall (document : KeyTable Item) : HookAction × KeyTable Item :=
  match takeOut Toml.format "hooks" "PreToolUse" parties document with
  | none => (.absent, document)
  | some pruned => (.removed, pruned)

def codexStatus (document : KeyTable Item) (brickBin : String) : HookAction :=
  if codexHasBrickHooks document = false then .absent
  else if codexMatches document brickBin then .present
  else .updated

/-! ### The commands in a document, however its hooks are written -/

def inlineCommand (hook : Toml.Value) : Option String :=
  match hook with
  | .inlineTable fields => (fields.lookup "command").bind Toml.Value.asStr
  | _ => none

def inlineHooks (hooks : Toml.Value) : List String :=
  match hooks with
  | .array hooks => hooks.filterMap inlineCommand
  | _ => []

def inlineEntry (entry : Toml.Value) : List String :=
  match entry with
  | .inlineTable fields => ((fields.lookup "hooks").map inlineHooks).getD []
  | _ => []

def inlineEntries (entries : Toml.Value) : List String :=
  match entries with
  | .array entries => entries.flatMap inlineEntry
  | _ => []

def entryCommands (entry : KeyTable Item) : List String :=
  match entry.lookup "hooks" with
  | some (.arrayOfTables hooks) => hooks.filterMap (strOf "command")
  | some (.value hooks) => inlineHooks hooks
  | _ => []

def placeCommands : Place Item (KeyTable Item) → List String
  | .list entries => entries.flatMap entryCommands
  | .other (.value entries) => inlineEntries entries
  | _ => []

def commandsOf (document : KeyTable Item) (event : String) : List String :=
  match (codexView document).container with
  | .other (.value (.inlineTable fields)) => ((fields.lookup event).map inlineEntries).getD []
  | _ => placeCommands ((codexView document).place event)

def manager : Manager (KeyTable Item) where
  install := codexInstall
  uninstall document := .ok (codexUninstall document)
  status brickBin document := .ok (codexStatus document brickBin)
  commands := commandsOf

inductive HookCall where
  | install (brickBin : String) (force : Bool)
  | uninstall

def HookCall.run (document : KeyTable Item) : HookCall → Except String (KeyTable Item)
  | .install brickBin force => (codexInstall brickBin force document).map Prod.snd
  | .uninstall => .ok (codexUninstall document).2

def afterCalls (document : KeyTable Item) (calls : List HookCall) : Except String (KeyTable Item) :=
  calls.foldlM HookCall.run document

/-! ## What an install writes -/

/-- The entries that are in the list as tables. -/
def entriesOf (document : KeyTable Item) : List (KeyTable Item) :=
  ((codexView document).place "PreToolUse").entries

def withHook (brickBin : String) (document : KeyTable Item) : KeyTable Item :=
  withEntries Toml.format "hooks" "PreToolUse" document (listsOf Toml.format "hooks" document)
    (parties.foreign (entriesOf document) ++ codexDesired brickBin)

theorem entriesOf_eq (document : KeyTable Item) :
    entriesOf document = (preToolUse document).getD [] := entries_eq_listIn document

theorem preToolUse_withEntries (document lists : KeyTable Item) (entries : List (KeyTable Item)) :
    preToolUse (withEntries Toml.format "hooks" "PreToolUse" document lists entries) =
      some entries := listIn_withEntries document lists entries

theorem listsOf_ensureHooksTable (document : KeyTable Item) :
    listsOf Toml.format "hooks" (ensureHooksTable document) =
      listsOf Toml.format "hooks" document := by
  unfold ensureHooksTable
  split
  · rfl
  · rename_i noTable
    unfold listsOf
    rw [Toml.lookup_insert_self, Option.bind_some]
    change [] = ((document.lookup "hooks").bind Item.asTable).getD []
    rw [Option.not_isSome_iff_eq_none.mp noTable]
    rfl

theorem withEntries_ensureHooksTable (document lists : KeyTable Item) (entries : List (KeyTable Item)) :
    withEntries Toml.format "hooks" "PreToolUse" (ensureHooksTable document) lists entries =
      withEntries Toml.format "hooks" "PreToolUse" document lists entries := by
  unfold ensureHooksTable
  split
  · rfl
  · exact Toml.insert_insert _ _ _ _

theorem preToolUse_ensureHooksTable (document : KeyTable Item) :
    preToolUse (ensureHooksTable document) = preToolUse document := by
  unfold ensureHooksTable
  split
  · rfl
  · rename_i noTable
    have missing : (document.lookup "hooks").bind Toml.format.asTable = none :=
      Option.not_isSome_iff_eq_none.mp noTable
    unfold preToolUse listIn
    rw [Toml.lookup_insert_self, missing]
    rfl

theorem ensurePreToolUse_spec (document : KeyTable Item) :
    preToolUse (ensurePreToolUse document) = some ((preToolUse document).getD []) ∧
      ∀ entries, withEntries Toml.format "hooks" "PreToolUse" (ensurePreToolUse document)
          (listsOf Toml.format "hooks" (ensurePreToolUse document)) entries =
        withEntries Toml.format "hooks" "PreToolUse" document
          (listsOf Toml.format "hooks" document) entries := by
  unfold ensurePreToolUse
  split
  · rename_i isSome
    obtain ⟨entries, found⟩ := Option.isSome_iff_exists.mp isSome
    rw [found]
    exact ⟨rfl, fun _ => rfl⟩
  · rename_i noEntries
    rw [Option.not_isSome_iff_eq_none.mp noEntries, preToolUse_withEntries]
    refine ⟨rfl, fun entries => ?_⟩
    unfold withEntries
    rw [listsOf_withLists]
    change Toml.insert "hooks" (.table (Toml.insert "PreToolUse" _ (Toml.insert "PreToolUse" _ _)))
      (Toml.insert "hooks" _ document) = _
    rw [Toml.insert_insert, Toml.insert_insert]
    rfl

/-- An install that changes anything puts the hook after the entries that are not Brick's. -/
theorem codexInstall_eq {brickBin : String} {force : Bool} {document : KeyTable Item}
    (changes : ¬ (codexHasBrickHooks document = true ∧ force = false ∧
      codexMatches document brickBin = true)) :
    codexInstall brickBin force document = .ok
      (if codexHasBrickHooks document then .updated else .installed, withHook brickBin document) := by
  obtain ⟨found, written⟩ := ensurePreToolUse_spec (ensureHooksTable document)
  unfold codexInstall
  rw [if_neg changes]
  dsimp only
  rw [found]
  dsimp only
  rw [written, listsOf_ensureHooksTable, withEntries_ensureHooksTable, preToolUse_ensureHooksTable,
    ← entriesOf_eq]
  rfl

/-! ## One call -/

/-- No entry has hooks of both parties, and there is no empty list or container. -/
def Separated (document : KeyTable Item) : Prop :=
  Separate parties (· = "PreToolUse") (codexView document)

/-- Neither the container nor the list is written inline, or as anything else that is no table. -/
structure Headed (document : KeyTable Item) : Prop where
  container : ∀ item, (codexView document).container ≠ .other item
  place : ∀ item, (codexView document).place "PreToolUse" ≠ .other item

theorem unmixed_codexDesired {brickBin : String} {entry : KeyTable Item}
    (member : entry ∈ codexDesired brickBin) : parties.Unmixed entry := by
  rw [List.mem_singleton.mp member]
  exact Parties.unmixed_of_single rfl

theorem codexInstall_cases {brickBin : String} {force : Bool} {document after : KeyTable Item}
    (run : (HookCall.install brickBin force).run document = .ok after) :
    after = document ∨ after = withHook brickBin document := by
  change (codexInstall brickBin force document).map Prod.snd = .ok after at run
  by_cases unchanged : codexHasBrickHooks document = true ∧ force = false ∧
      codexMatches document brickBin = true
  · unfold codexInstall at run
    rw [if_pos unchanged] at run
    cases run
    exact Or.inl rfl
  · rw [codexInstall_eq unchanged] at run
    cases run
    exact Or.inr rfl

theorem headed_withHook (brickBin : String) (document : KeyTable Item) :
    Headed (withHook brickBin document) := by
  constructor
  · intro item other
    have filled : (codexView (withHook brickBin document)).container = .filled :=
      container_withEntries _ _ _
    exact nomatch filled.symm.trans other
  · intro item other
    have list : (codexView (withHook brickBin document)).place "PreToolUse" =
        .list (parties.foreign (entriesOf document) ++ codexDesired brickBin) :=
      place_withEntries _ _ _
    exact nomatch list.symm.trans other

theorem frame_withHook {brickBin : String} {document : KeyTable Item} (headed : Headed document)
    (unmixed : ∀ entry ∈ entriesOf document, parties.Unmixed entry) :
    Frame parties (· = "PreToolUse") (codexView document)
      (codexView (withHook brickBin document)) := by
  refine frame_withEntries rfl headed.container headed.place ?_
  change (parties.usersPart (entriesOf document)).Sublist _
  rw [parties.usersPart_of_unmixed unmixed]
  conv_lhs => rw [← parties.usersPart_foreign]
  unfold Parties.usersPart
  rw [List.filterMap_append]
  exact List.sublist_append_left _ _

theorem install_keeps {brickBin : String} {force : Bool} {document after : KeyTable Item}
    (separated : Separated document) (headed : Headed document)
    (run : (HookCall.install brickBin force).run document = .ok after) :
    (Separated after ∧ Headed after) ∧
      Frame parties (· = "PreToolUse") (codexView document) (codexView after) := by
  rcases codexInstall_cases run with rfl | rfl
  · exact ⟨⟨separated, headed⟩, Frame.refl _⟩
  · have unmixed := separated.unmixed "PreToolUse" rfl
    refine ⟨⟨separate_withEntries (by simp [codexDesired]) fun entry member => ?_,
      headed_withHook brickBin document⟩, frame_withHook headed unmixed⟩
    rcases List.mem_append.mp member with earlier | last
    · exact unmixed entry (List.mem_of_mem_filter earlier)
    · exact unmixed_codexDesired last

theorem uninstall_keeps {document after : KeyTable Item} (separated : Separated document)
    (headed : Headed document) (run : HookCall.uninstall.run document = .ok after) :
    (Separated after ∧ Headed after) ∧
      Frame parties (· = "PreToolUse") (codexView document) (codexView after) := by
  have after_eq : (codexUninstall document).2 = after := Except.ok.inj run
  unfold codexUninstall at after_eq
  cases taken : takeOut Toml.format "hooks" "PreToolUse" parties document with
  | none =>
      rw [taken] at after_eq
      cases after_eq
      exact ⟨⟨separated, headed⟩, Frame.refl _⟩
  | some pruned =>
      rw [taken] at after_eq
      cases after_eq
      obtain ⟨separatedAfter, frame⟩ := takeOut_keeps separated taken
      refine ⟨⟨separatedAfter, ?_⟩, frame⟩
      obtain ⟨container, place, _⟩ := takeOut_spec taken
      exact ⟨container, place⟩

/-! ## What the calls lose -/

theorem isBrickHook_codexDesired {brickBin : String}
    (brick : isBrickCommand (explainCommand brickBin) = true) {entry : KeyTable Item}
    (member : entry ∈ codexDesired brickBin) : codexEntryIsBrick entry = true := by
  rw [List.mem_singleton.mp member]
  change (isBrickCommand (explainCommand brickBin) || false) = true
  rw [brick, Bool.true_or]

theorem run_install {document : KeyTable Item}
    (noBrick : entriesOf document = []) :
    (HookCall.install "brick" false).run document = .ok (withHook "brick" document) := by
  have changes : ¬ (codexHasBrickHooks document = true ∧ false = false ∧
      codexMatches document "brick" = true) := by
    rintro ⟨existed, _⟩
    unfold codexHasBrickHooks at existed
    rw [entriesOf_eq] at noBrick
    cases found : preToolUse document with
    | none =>
        rw [found] at existed
        cases existed
    | some entries =>
        rw [found] at existed noBrick
        rw [show entries = [] from noBrick] at existed
        cases existed
  change (codexInstall "brick" false document).map Prod.snd = _
  rw [codexInstall_eq changes]
  rfl

theorem run_uninstall {document pruned : KeyTable Item}
    (taken : takeOut Toml.format "hooks" "PreToolUse" parties document = some pruned) :
    HookCall.uninstall.run document = .ok pruned := by
  change Except.ok (codexUninstall document).2 = _
  unfold codexUninstall
  rw [taken]

/-- Brick's entry comes into an empty list and goes, and the list goes with it. -/
theorem install_uninstall {document : KeyTable Item} (empty : entriesOf document = []) :
    ∃ after, afterCalls document [.install "brick" false, .uninstall] = .ok after ∧
      (codexView after).place "PreToolUse" = .missing ∧
      (listsOf Toml.format "hooks" document = [] → (codexView after).container = .missing) := by
  have single : withHook "brick" document = withEntries Toml.format "hooks" "PreToolUse" document
      (listsOf Toml.format "hooks" document) (codexDesired "brick") := by
    unfold withHook
    rw [empty]
    rfl
  obtain ⟨pruned, taken, missing, alone⟩ :
      ∃ pruned, takeOut Toml.format "hooks" "PreToolUse" parties
          (withEntries Toml.format "hooks" "PreToolUse" document
            (listsOf Toml.format "hooks" document) (codexDesired "brick")) = some pruned ∧
        _ ∧ (_ → _) :=
    takeOut_single (isBrickHook_codexDesired isBrickCommand_explainCommand List.mem_cons_self)
  refine ⟨pruned, ?_, missing, fun none => alone ?_⟩
  · unfold afterCalls
    rw [List.foldlM_cons, run_install empty]
    change ([HookCall.uninstall].foldlM HookCall.run (withHook "brick" document)) = _
    rw [List.foldlM_cons, single, run_uninstall taken]
    rfl
  · rw [none]
    rfl

/-- Every run of calls keeps what is the user's, exactly from the separated documents with
headers. -/
theorem keeps_iff (document : KeyTable Item) :
    (∀ calls after, afterCalls document calls = .ok after →
      Keeps parties (codexView document) (codexView after)) ↔
        Separated document ∧ Headed document := by
  constructor
  · intro keeps
    have headed : Headed document := by
      have installed (entries : entriesOf document = []) :=
        keeps [.install "brick" false] (withHook "brick" document) (by
          unfold afterCalls
          rw [List.foldlM_cons, run_install entries]
          rfl)
      constructor
      · intro item other
        have nothing : entriesOf document = [] := by
          unfold entriesOf codexView view
          rw [lists_of_other other]
          rfl
        have still := (installed nothing).container item other
        exact (headed_withHook "brick" document).container item still
      · intro item other
        have nothing : entriesOf document = [] := congrArg Place.entries other
        have still := (installed nothing).value "PreToolUse" item other
        exact (headed_withHook "brick" document).place item still
    refine ⟨⟨?_, ?_, ?_⟩, headed⟩
    · rintro event rfl empty
      obtain ⟨after, run, missing, _⟩ := install_uninstall (congrArg Place.entries empty)
      obtain ⟨entries, still⟩ := (keeps _ _ run).emptyList "PreToolUse" empty
      exact nomatch missing.symm.trans still
    · rintro event rfl entry member
      by_contra mixed
      cases shown : (codexView document).place "PreToolUse" with
      | list entries =>
          rw [shown] at member
          obtain ⟨pruned, taken, lost⟩ := takeOut_loses shown member mixed
          refine lost (keeps [.uninstall] pruned ?_)
          unfold afterCalls
          rw [List.foldlM_cons, run_uninstall taken]
          rfl
      | _ =>
          rw [shown] at member
          cases member
    · intro empty
      have nothing : listsOf Toml.format "hooks" document = [] := lists_of_empty empty
      have noEntries : entriesOf document = [] := by
        unfold entriesOf codexView view
        rw [nothing]
        rfl
      obtain ⟨after, run, _, gone⟩ := install_uninstall noEntries
      rcases (keeps _ _ run).emptyContainer empty with still | filled
      · exact nomatch (gone nothing).symm.trans still
      · exact nomatch (gone nothing).symm.trans filled
  · rintro ⟨separated, headed⟩ calls after run
    have step (document : KeyTable Item) (call : HookCall) (after : KeyTable Item)
        (holds : Separated document ∧ Headed document) (run : call.run document = .ok after) :
        (Separated after ∧ Headed after) ∧
          Frame parties (· = "PreToolUse") (codexView document) (codexView after) := by
      cases call with
      | install brickBin force => exact install_keeps holds.1 holds.2 run
      | uninstall => exact uninstall_keeps holds.1 holds.2 run
    exact (frame_of_run step ⟨separated, headed⟩ run).keeps separated

end BrickTrace.CodexHook
