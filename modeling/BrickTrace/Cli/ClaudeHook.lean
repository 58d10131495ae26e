import BrickTrace.Cli.HookFiles
import BrickTrace.Lib.Fallible

/-!
# The hook in Claude's settings

Claude runs the hooks of the entries under `hooks.PreToolUse`.  Brick's hook stands in an entry
with a matcher.  An install brings the first entry with a Brick hook up to date, or puts one at
the end; an uninstall takes all entries with a Brick hook out.
-/

set_option autoImplicit false

namespace BrickTrace.ClaudeHook

open KeyedLists SharedLists HookFiles

def explainHookMatcher : String := "Read|Grep|Glob"

def brickExplainHookEntry (brickBin : String) : Json :=
  Json.ofFields [("matcher", .string explainHookMatcher),
    ("hooks", .array [Json.ofFields [("type", .string "command"),
      ("command", .string (explainCommand brickBin))]])]

def entryHooks (entry : Json) : List Json :=
  match entry.get "hooks" with
  | some (.array hooks) => hooks
  | _ => []

def withEntryHooks (entry : Json) (hooks : List Json) : Json :=
  match entry with
  | .object fields => .object (Json.insertEntry "hooks" (.array hooks) fields)
  | other => other

/-- Whether an entry has a hook of Brick's. -/
def isBrickEntry (entry : Json) : Bool := (entryHooks entry).any isBrickHook

/-- An entry is the user's as far as it has hooks that are not Brick's, or none at all. -/
def parties : Parties Json := Parties.ofParts entryHooks withEntryHooks isBrickHook

/-! ## The operations -/

/-- The settings; a file that is missing or blank reads as an empty object. -/
def readSettings (path : String) : Json → Except String (KeyTable Json)
  | .object settings => .ok settings
  | _ => .error (path ++ " is not a JSON object")

def ensurePreToolUseArray (settings : KeyTable Json) : Except String (KeyTable Json × List Json) :=
  ensureEntries "PreToolUse" "settings `hooks` is not a JSON object"
    "settings `hooks.PreToolUse` is not a JSON array" settings

inductive EntryChange where
  | installed
  | updated
  | unchanged

/-- The first entry with a Brick hook is replaced, whatever else it has. -/
def upsertEntry (entries : List Json) (desired : Json) (force : Bool) :
    EntryChange × List Json :=
  match entries.findIdx? isBrickEntry with
  | some index =>
      if force = false ∧ (entries[index]?.any fun entry => entry.same desired) = true then
        (.unchanged, entries)
      else (.updated, entries.set index desired)
  | none => (.installed, entries ++ [desired])

def withPreToolUse (settings hooks : KeyTable Json) (entries : List Json) : Json :=
  .object (withEntries jsonFormat "hooks" "PreToolUse" settings hooks entries)

def install (path brickBin : String) (force : Bool) (content : Json) :
    Except String (HookAction × Json) := do
  let settings ← readSettings path content
  let (hooks, preToolUse) ← ensurePreToolUseArray settings
  match upsertEntry preToolUse (brickExplainHookEntry brickBin) force with
  | (.unchanged, _) => return (.unchanged, content)
  | (.installed, entries) => return (.installed, withPreToolUse settings hooks entries)
  | (.updated, entries) => return (.updated, withPreToolUse settings hooks entries)

def uninstall (path : String) (content : Json) : Except String (HookAction × Json) := do
  let settings ← readSettings path content
  match takeOut jsonFormat "hooks" "PreToolUse" parties settings with
  | none => return (.absent, content)
  | some pruned => return (.removed, .object pruned)

def status (path : String) (content : Json) : Except String HookAction := do
  let settings ← readSettings path content
  return if (listIn jsonFormat "hooks" "PreToolUse" settings).any fun entries =>
    entries.any isBrickEntry then .present else .absent

/-- The commands of the hooks in an entry. -/
def entryCommands (entry : Json) : List String := (entryHooks entry).filterMap commandOf

def commandsOf (content : Json) (event : String) : List String :=
  ((jsonView content).place event).entries.flatMap entryCommands

def manager (path : String) : Manager Json where
  install := install path
  uninstall := uninstall path
  status _ := status path
  commands := commandsOf

inductive HookCall where
  | install (brickBin : String) (force : Bool)
  | uninstall

def HookCall.run (path : String) (content : Json) : HookCall → Except String Json
  | .install brickBin force => (ClaudeHook.install path brickBin force content).map Prod.snd
  | .uninstall => (ClaudeHook.uninstall path content).map Prod.snd

def afterCalls (path : String) (content : Json) (calls : List HookCall) : Except String Json :=
  calls.foldlM (HookCall.run path) content

/-! ## One call -/

/-- No entry has hooks of both parties, and there is no empty list or container. -/
def Separated (content : Json) : Prop := Separate parties (· = "PreToolUse") (jsonView content)

theorem entryHooks_brickExplainHookEntry (brickBin : String) :
    entryHooks (brickExplainHookEntry brickBin) = [Json.ofFields [("type", .string "command"),
      ("command", .string (explainCommand brickBin))]] := by
  have distinct : ["matcher", "hooks"].Nodup := by decide
  have found : (brickExplainHookEntry brickBin).get "hooks" = some (.array
      [Json.ofFields [("type", .string "command"),
        ("command", .string (explainCommand brickBin))]]) :=
    @Json.get_ofFields [("matcher", _), ("hooks", _)] distinct "hooks"
  unfold entryHooks
  rw [found]

theorem unmixed_brickExplainHookEntry (brickBin : String) :
    parties.Unmixed (brickExplainHookEntry brickBin) :=
  Parties.unmixed_of_single (entryHooks_brickExplainHookEntry brickBin)

theorem upsertEntry_keeps {entries : List Json} (unmixed : ∀ entry ∈ entries, parties.Unmixed entry)
    {desired : Json} (desiredUnmixed : parties.Unmixed desired) (force : Bool) :
    (upsertEntry entries desired force).2 ≠ [] ∧
      (∀ entry ∈ (upsertEntry entries desired force).2, parties.Unmixed entry) ∧
      (parties.usersPart entries).Sublist
        (parties.usersPart (upsertEntry entries desired force).2) := by
  unfold upsertEntry
  split
  · rename_i index found
    obtain ⟨inRange, mine, _⟩ := List.findIdx?_eq_some_iff_getElem.mp found
    have nonempty : entries ≠ [] := List.ne_nil_of_length_pos (by omega)
    split
    · exact ⟨nonempty, unmixed, List.Sublist.refl _⟩
    · refine ⟨by simpa using nonempty, fun entry member => ?_, ?_⟩
      · rcases List.mem_or_eq_of_mem_set member with inEntries | rfl
        · exact unmixed entry inEntries
        · exact desiredUnmixed
      · -- the entry that goes is Brick's alone
        have gone : parties.users entries[index] = none :=
          unmixed _ (List.getElem_mem inRange) mine
        have whole : entries = entries.take index ++ entries[index] :: entries.drop (index + 1) := by
          rw [← List.drop_eq_getElem_cons inRange, List.take_append_drop]
        unfold Parties.usersPart
        rw [List.set_eq_take_append_cons_drop, if_pos inRange]
        conv_lhs => rw [whole]
        rw [List.filterMap_append, List.filterMap_append, List.filterMap_cons_none gone]
        refine (List.Sublist.refl _).append ?_
        rw [List.filterMap_cons]
        split
        · exact List.Sublist.refl _
        · exact List.sublist_cons_self _ _
  · refine ⟨by simp, fun entry member => ?_, ?_⟩
    · rcases List.mem_append.mp member with inEntries | last
      · exact unmixed entry inEntries
      · rw [List.mem_singleton.mp last]
        exact desiredUnmixed
    · unfold Parties.usersPart
      rw [List.filterMap_append]
      exact List.sublist_append_left _ _

theorem readSettings_eq_ok {path : String} {content : Json} {settings : KeyTable Json}
    (read : readSettings path content = .ok settings) : content = .object settings := by
  cases content with
  | object entries =>
      cases read
      rfl
  | _ => cases read

theorem install_eq_ok {path brickBin : String} {force : Bool} {content after : Json}
    {action : HookAction} (ok : install path brickBin force content = .ok (action, after)) :
    ∃ settings hooks entries, content = .object settings ∧
      ensurePreToolUseArray settings = .ok (hooks, entries) ∧
      (after = content ∨ after = withPreToolUse settings hooks
        (upsertEntry entries (brickExplainHookEntry brickBin) force).2) := by
  unfold install at ok
  obtain ⟨settings, read, ok⟩ := Fallible.bind_eq_ok_iff.mp ok
  obtain ⟨⟨hooks, entries⟩, ensured, ok⟩ := Fallible.bind_eq_ok_iff.mp ok
  refine ⟨settings, hooks, entries, readSettings_eq_ok read, ensured, ?_⟩
  dsimp only at ok
  cases upserted : upsertEntry entries (brickExplainHookEntry brickBin) force with
  | mk change new =>
      rw [upserted] at ok
      cases change with
      | unchanged =>
          cases ok
          exact Or.inl rfl
      | installed =>
          cases ok
          exact Or.inr rfl
      | updated =>
          cases ok
          exact Or.inr rfl

theorem uninstall_eq_ok {path : String} {content after : Json} {action : HookAction}
    (ok : uninstall path content = .ok (action, after)) :
    after = content ∨ ∃ settings pruned, content = .object settings ∧
      takeOut jsonFormat "hooks" "PreToolUse" parties settings = some pruned ∧
      after = .object pruned := by
  unfold uninstall at ok
  obtain ⟨settings, read, ok⟩ := Fallible.bind_eq_ok_iff.mp ok
  cases taken : takeOut jsonFormat "hooks" "PreToolUse" parties settings with
  | none =>
      rw [taken] at ok
      cases ok
      exact Or.inl rfl
  | some pruned =>
      rw [taken] at ok
      cases ok
      exact Or.inr ⟨settings, pruned, readSettings_eq_ok read, taken, rfl⟩

theorem install_keeps {path brickBin : String} {force : Bool} {content after : Json}
    {action : HookAction} (separated : Separated content)
    (ok : install path brickBin force content = .ok (action, after)) :
    Separated after ∧ Frame parties (· = "PreToolUse") (jsonView content) (jsonView after) := by
  obtain ⟨settings, hooks, entries, rfl, ensured, same | rfl⟩ := install_eq_ok ok
  · rw [same]
    exact ⟨separated, Frame.refl _⟩
  · obtain ⟨installable, rfl, rfl⟩ := ensureEntries_ok ensured
    have unmixed := separated.unmixed "PreToolUse" rfl
    have desired := unmixed_brickExplainHookEntry brickBin
    obtain ⟨nonempty, newUnmixed, kept⟩ := upsertEntry_keeps unmixed desired force
    exact ⟨separate_withEntries nonempty newUnmixed,
      frame_withEntries rfl installable.container installable.place kept⟩

theorem uninstall_keeps {path : String} {content after : Json} {action : HookAction}
    (separated : Separated content) (ok : uninstall path content = .ok (action, after)) :
    Separated after ∧ Frame parties (· = "PreToolUse") (jsonView content) (jsonView after) := by
  rcases uninstall_eq_ok ok with same | ⟨settings, pruned, rfl, taken, rfl⟩
  · rw [same]
    exact ⟨separated, Frame.refl _⟩
  · exact takeOut_keeps separated taken

theorem call_keeps {path : String} {content after : Json} {call : HookCall}
    (separated : Separated content) (ok : call.run path content = .ok after) :
    Separated after ∧ Frame parties (· = "PreToolUse") (jsonView content) (jsonView after) := by
  cases call with
  | install brickBin force =>
      obtain ⟨⟨action, new⟩, done, rfl⟩ := Fallible.map_eq_ok_iff.mp ok
      exact install_keeps separated done
  | uninstall =>
      obtain ⟨⟨action, new⟩, done, rfl⟩ := Fallible.map_eq_ok_iff.mp ok
      exact uninstall_keeps separated done

/-! ## What the calls lose -/

theorem ours_brickExplainHookEntry : parties.ours (brickExplainHookEntry "brick") = true := by
  have distinct : ["type", "command"].Nodup := by decide
  have command : (Json.ofFields [("type", .string "command"),
      ("command", .string (explainCommand "brick"))]).get "command" =
        some (.string (explainCommand "brick")) :=
    @Json.get_ofFields [("type", _), ("command", _)] distinct "command"
  change (entryHooks (brickExplainHookEntry "brick")).any isBrickHook = true
  rw [entryHooks_brickExplainHookEntry, List.any_cons, isBrickHook, command]
  dsimp only
  rw [isBrickCommand_explainCommand, Bool.true_or]

theorem run_uninstall {path : String} {settings pruned : KeyTable Json}
    (taken : takeOut jsonFormat "hooks" "PreToolUse" parties settings = some pruned) :
    HookCall.uninstall.run path (.object settings) = .ok (.object pruned) := by
  change (uninstall path (.object settings)).map Prod.snd = _
  have done : uninstall path (.object settings) = .ok (.removed, .object pruned) := by
    unfold uninstall
    change (match takeOut jsonFormat "hooks" "PreToolUse" parties settings with
      | none => _
      | some pruned => _) = _
    rw [taken]
    rfl
  rw [done]
  rfl

theorem run_install {path : String} {settings hooks : KeyTable Json}
    (ready : ensurePreToolUseArray settings = .ok (hooks, [])) :
    (HookCall.install "brick" false).run path (.object settings) =
      .ok (withPreToolUse settings hooks [brickExplainHookEntry "brick"]) := by
  have done : install path "brick" false (.object settings) = .ok (.installed,
      withPreToolUse settings hooks [brickExplainHookEntry "brick"]) := by
    unfold install readSettings
    change (ensurePreToolUseArray settings >>= _) = _
    rw [ready]
    rfl
  change (install path "brick" false (.object settings)).map Prod.snd = _
  rw [done]
  rfl

/-- Brick's entry comes into an empty list and goes, and the list goes with it. -/
theorem install_uninstall (path : String) {settings : KeyTable Json}
    (installable : Installable "PreToolUse" settings)
    (empty : ((view jsonFormat "hooks" settings).place "PreToolUse").entries = []) :
    ∃ after, afterCalls path (.object settings) [.install "brick" false, .uninstall] = .ok after ∧
      (jsonView after).place "PreToolUse" = .missing ∧
      (listsOf jsonFormat "hooks" settings = [] → (jsonView after).container = .missing) := by
  have ready : ensurePreToolUseArray settings = .ok (listsOf jsonFormat "hooks" settings, []) := by
    have ensured := @ensureEntries_of_installable "PreToolUse"
      "settings `hooks` is not a JSON object" "settings `hooks.PreToolUse` is not a JSON array"
      settings installable
    rwa [empty] at ensured
  obtain ⟨pruned, taken, missing, alone⟩ :
      ∃ pruned, takeOut jsonFormat "hooks" "PreToolUse" parties
          (withEntries jsonFormat "hooks" "PreToolUse" settings
            (listsOf jsonFormat "hooks" settings) [brickExplainHookEntry "brick"]) = some pruned ∧
        _ ∧ (_ → _) := takeOut_single ours_brickExplainHookEntry
  refine ⟨.object pruned, ?_, missing, fun none => alone ?_⟩
  · unfold afterCalls
    rw [List.foldlM_cons, run_install ready]
    change ([HookCall.uninstall].foldlM (HookCall.run path) (withPreToolUse settings _ _)) = _
    rw [List.foldlM_cons, withPreToolUse, run_uninstall taken]
    rfl
  · rw [none]
    rfl

/-- Every run of calls keeps what is the user's, exactly from the separated files. -/
theorem keeps_iff (path : String) (content : Json) :
    (∀ calls after, afterCalls path content calls = .ok after →
      Keeps parties (jsonView content) (jsonView after)) ↔ Separated content := by
  constructor
  · intro keeps
    cases content with
    | object settings =>
        refine ⟨?_, ?_, ?_⟩
        · rintro event rfl empty
          have installable : Installable "PreToolUse" settings :=
            ⟨container_of_list empty, fun value other => nomatch empty.symm.trans other⟩
          obtain ⟨after, run, missing, _⟩ := install_uninstall path installable
            (congrArg Place.entries empty)
          obtain ⟨entries, still⟩ := (keeps _ _ run).emptyList "PreToolUse" empty
          exact nomatch missing.symm.trans still
        · rintro event rfl entry member
          by_contra mixed
          cases shown : (view jsonFormat "hooks" settings).place "PreToolUse" with
          | list entries =>
              obtain ⟨pruned, taken, lost⟩ := takeOut_loses shown
                (by rwa [show (jsonView (.object settings)).place "PreToolUse" = .list entries
                  from shown] at member) mixed
              refine lost (keeps [.uninstall] (.object pruned) ?_)
              unfold afterCalls
              rw [List.foldlM_cons, run_uninstall taken]
              rfl
          | _ =>
              rw [show (jsonView (.object settings)).place "PreToolUse" = _ from shown] at member
              cases member
        · intro empty
          have nothing : listsOf jsonFormat "hooks" settings = [] := lists_of_empty empty
          have missing : (view jsonFormat "hooks" settings).place "PreToolUse" = .missing := by
            unfold view
            rw [nothing]
            rfl
          have installable : Installable "PreToolUse" settings :=
            ⟨fun value other => (nomatch empty.symm.trans other),
              fun value other => (nomatch missing.symm.trans other)⟩
          obtain ⟨after, run, _, gone⟩ := install_uninstall path installable
            (congrArg Place.entries missing)
          rcases (keeps _ _ run).emptyContainer empty with still | filled
          · exact nomatch (gone nothing).symm.trans still
          · exact nomatch (gone nothing).symm.trans filled
    | _ => exact ⟨fun _ _ => nofun, fun _ _ => nofun, nofun⟩
  · exact fun separated calls after run =>
      (frame_of_run (fun _ _ _ => call_keeps) separated run).keeps separated

end BrickTrace.ClaudeHook
