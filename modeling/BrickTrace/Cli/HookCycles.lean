import BrickTrace.Cli.ClaudeHook
import BrickTrace.Cli.CodexHook
import BrickTrace.Cli.WindsurfHook

/-!
# Install, status, uninstall

For which binaries and files a manager's operations agree: what an install writes is seen by a
second install and by the status, and goes with an uninstall.  The hooks are known by a text in
their command, and the command is made from the binary's path.
-/

set_option autoImplicit false

namespace BrickTrace.ClaudeHook

open KeyedLists SharedLists HookFiles

/-! ## Claude -/

theorem isBrickEntry_of_command {entry : Json} {command : String}
    (brick : isBrickCommand command = true) (member : command ∈ entryCommands entry) :
    isBrickEntry entry = true := by
  obtain ⟨hook, inEntry, isCommand⟩ := List.mem_filterMap.mp member
  refine List.any_eq_true.mpr ⟨hook, inEntry, ?_⟩
  rw [isBrickHook_eq, isCommand]
  exact brick

theorem command_notMem_of_foreign {entries : List Json} {command : String}
    (brick : isBrickCommand command = true) (foreign : ∀ entry ∈ entries, isBrickEntry entry = false) :
    command ∉ entries.flatMap entryCommands := by
  intro member
  obtain ⟨entry, inEntries, inEntry⟩ := List.mem_flatMap.mp member
  exact nomatch (foreign entry inEntries).symm.trans (isBrickEntry_of_command brick inEntry)

theorem commandOf_brickExplainHook (brickBin : String) :
    commandOf (Json.ofFields [("type", .string "command"),
      ("command", .string (explainCommand brickBin))]) = some (explainCommand brickBin) := by
  have distinct : ["type", "command"].Nodup := by decide
  have command : (Json.ofFields [("type", .string "command"),
      ("command", .string (explainCommand brickBin))]).get "command" =
        some (.string (explainCommand brickBin)) :=
    @Json.get_ofFields [("type", _), ("command", _)] distinct "command"
  unfold commandOf
  rw [command]

theorem entryCommands_brickExplainHookEntry (brickBin : String) :
    entryCommands (brickExplainHookEntry brickBin) = [explainCommand brickBin] := by
  unfold entryCommands
  rw [entryHooks_brickExplainHookEntry,
    List.filterMap_cons_some (commandOf_brickExplainHook brickBin), List.filterMap_nil]

theorem isBrickEntry_brickExplainHookEntry (brickBin : String) :
    isBrickEntry (brickExplainHookEntry brickBin) = isBrickCommand (explainCommand brickBin) := by
  unfold isBrickEntry
  rw [entryHooks_brickExplainHookEntry, List.any_cons, isBrickHook_eq, commandOf_brickExplainHook,
    List.any_nil, Bool.or_false]
  rfl

/-! ### The entries after an install -/

/-- The entries before the first one of Brick's, and those after it. -/
def frontOf (entries : List Json) : List Json := entries.takeWhile fun entry => !isBrickEntry entry

def laterOf (entries : List Json) : List Json :=
  (entries.dropWhile fun entry => !isBrickEntry entry).tail

theorem foreign_frontOf (entries : List Json) : ∀ entry ∈ frontOf entries, isBrickEntry entry = false :=
  fun entry member => by simpa using List.mem_takeWhile_imp member

theorem upsertEntry_cons_of_foreign {entry : Json} (foreign : isBrickEntry entry = false)
    (rest : List Json) (desired : Json) (force : Bool) :
    upsertEntry (entry :: rest) desired force =
      ((upsertEntry rest desired force).1, entry :: (upsertEntry rest desired force).2) := by
  unfold upsertEntry
  rw [List.findIdx?_cons, foreign]
  cases found : rest.findIdx? isBrickEntry with
  | none => rfl
  | some index =>
      change (if force = false ∧ (rest[index]?.any _) = true then _ else _) = _
      dsimp only
      split <;> rfl

theorem upsertEntry_cons_of_brick {entry : Json} (mine : isBrickEntry entry = true)
    (rest : List Json) (desired : Json) (force : Bool) :
    upsertEntry (entry :: rest) desired force =
      if force = false ∧ entry.same desired = true then (.unchanged, entry :: rest)
      else (.updated, desired :: rest) := by
  unfold upsertEntry
  rw [List.findIdx?_cons, mine]
  rfl

/-- The wanted entry stands in the place of the first one of Brick's, or last. -/
theorem upsertEntry_entries (entries : List Json) (desired : Json) (force : Bool) :
    (upsertEntry entries desired force).2 = frontOf entries ++ desired :: laterOf entries := by
  induction entries with
  | nil => rfl
  | cons entry rest ih =>
      unfold frontOf laterOf at ih ⊢
      cases mine : isBrickEntry entry with
      | true =>
          rw [upsertEntry_cons_of_brick mine, List.takeWhile_cons, List.dropWhile_cons, mine]
          split
          · rename_i same
            rw [Json.eq_of_same same.2]
            rfl
          · rfl
      | false =>
          rw [upsertEntry_cons_of_foreign mine, List.takeWhile_cons, List.dropWhile_cons, mine]
          exact congrArg (entry :: ·) ih

theorem upsertEntry_unchanged {entries : List Json} {desired : Json} {force : Bool}
    (unchanged : (upsertEntry entries desired force).1 = .unchanged) :
    isBrickEntry desired = true ∧ (upsertEntry entries desired force).2 = entries := by
  induction entries with
  | nil => cases unchanged
  | cons entry rest ih =>
      cases mine : isBrickEntry entry with
      | true =>
          rw [upsertEntry_cons_of_brick mine] at unchanged ⊢
          split at unchanged
          · rename_i same
            rw [if_pos same, ← Json.eq_of_same same.2]
            exact ⟨mine, rfl⟩
          · cases unchanged
      | false =>
          rw [upsertEntry_cons_of_foreign mine] at unchanged ⊢
          obtain ⟨brick, entries⟩ := ih unchanged
          exact ⟨brick, congrArg (entry :: ·) entries⟩

theorem upsertEntry_again {front later : List Json} {desired : Json}
    (foreign : ∀ entry ∈ front, isBrickEntry entry = false) (mine : isBrickEntry desired = true) :
    (upsertEntry (front ++ desired :: later) desired false).1 = .unchanged := by
  induction front with
  | nil =>
      change (upsertEntry (desired :: later) desired false).1 = .unchanged
      rw [upsertEntry_cons_of_brick mine, if_pos ⟨rfl, Json.same_refl desired⟩]
  | cons entry rest ih =>
      obtain ⟨here, others⟩ := List.forall_mem_cons.mp foreign
      rw [List.cons_append, upsertEntry_cons_of_foreign here]
      exact ih others

/-! ### The cycle -/

def preToolUseEntries (content : Json) : List Json :=
  ((jsonView content).place "PreToolUse").entries

/-- What a file shows after an install. -/
structure InstalledFrom (brickBin : String) (content after : Json) : Prop where
  place : (jsonView after).place "PreToolUse" = .list (frontOf (preToolUseEntries content) ++
    brickExplainHookEntry brickBin :: laterOf (preToolUseEntries content))
  others : ∀ event, event ≠ "PreToolUse" →
    (jsonView after).place event = (jsonView content).place event

theorem installedFrom_withPreToolUse (brickBin : String) (force : Bool) (settings : KeyTable Json) :
    InstalledFrom brickBin (.object settings) (withPreToolUse settings
      (listsOf jsonFormat "hooks" settings) (upsertEntry (preToolUseEntries (.object settings))
        (brickExplainHookEntry brickBin) force).2) := by
  constructor
  · rw [upsertEntry_entries]
    exact place_withEntries settings _ _
  · exact fun event other => place_withEntries_of_ne other settings _ _

/-- What a successful install has found, written and said. -/
theorem install_spec {path brickBin : String} {force : Bool} {content after : Json}
    {action : HookAction} (ok : install path brickBin force content = .ok (action, after)) :
    (∃ settings, content = .object settings ∧ Installable "PreToolUse" settings) ∧
      InstalledFrom brickBin content after ∧
      (action = .unchanged → isBrickCommand (explainCommand brickBin) = true) := by
  unfold install at ok
  obtain ⟨settings, read, ok⟩ := Fallible.bind_eq_ok_iff.mp ok
  obtain ⟨⟨hooks, entries⟩, ensured, ok⟩ := Fallible.bind_eq_ok_iff.mp ok
  cases readSettings_eq_ok read
  obtain ⟨installable, rfl, rfl⟩ := ensureEntries_ok ensured
  have written := installedFrom_withPreToolUse brickBin force settings
  refine ⟨⟨settings, rfl, installable⟩, ?_⟩
  dsimp only at ok
  have same := @upsertEntry_unchanged (preToolUseEntries (.object settings))
    (brickExplainHookEntry brickBin) force
  rw [isBrickEntry_brickExplainHookEntry] at same
  have entriesAt : preToolUseEntries (.object settings) =
      ((view jsonFormat "hooks" settings).place "PreToolUse").entries := rfl
  rw [← entriesAt] at ok
  cases upserted : upsertEntry (preToolUseEntries (.object settings))
      (brickExplainHookEntry brickBin) force with
  | mk change new =>
      rw [upserted] at ok written same
      cases change with
      | unchanged =>
          cases ok
          obtain ⟨brick, rfl⟩ := same rfl
          refine ⟨⟨?_, fun _ _ => rfl⟩, fun _ => brick⟩
          have list := (place_withEntries settings (listsOf jsonFormat "hooks" settings)
            (preToolUseEntries (.object settings))).symm.trans written.place
          injection list with list
          exact Place.eq_list list (by simp)
      | installed =>
          cases ok
          exact ⟨written, fun unchanged => by cases unchanged⟩
      | updated =>
          cases ok
          exact ⟨written, fun unchanged => by cases unchanged⟩

theorem install_object (path brickBin : String) (force : Bool) {settings : KeyTable Json}
    (installable : Installable "PreToolUse" settings) :
    install path brickBin force (.object settings) = .ok
      (match upsertEntry (preToolUseEntries (.object settings)) (brickExplainHookEntry brickBin) force
        with
      | (.unchanged, _) => (.unchanged, .object settings)
      | (.installed, entries) =>
          (.installed, withPreToolUse settings (listsOf jsonFormat "hooks" settings) entries)
      | (.updated, entries) =>
          (.updated, withPreToolUse settings (listsOf jsonFormat "hooks" settings) entries)) := by
  have ensured : ensurePreToolUseArray settings =
      .ok (listsOf jsonFormat "hooks" settings, preToolUseEntries (.object settings)) :=
    ensureEntries_of_installable installable
  unfold install
  change ((ensurePreToolUseArray settings >>= fun _ => _) : Except String _) = _
  rw [ensured]
  cases upserted : upsertEntry (preToolUseEntries (.object settings))
      (brickExplainHookEntry brickBin) force with
  | mk change new =>
      change (match upsertEntry (preToolUseEntries (.object settings)) _ force with
        | (.unchanged, _) => _
        | (.installed, entries) => _
        | (.updated, entries) => _) = _
      rw [upserted]
      cases change <;> rfl

theorem object_of_list {content : Json} {event : String} {entries : List Json}
    (shown : (jsonView content).place event = .list entries) : ∃ settings, content = .object settings := by
  cases content with
  | object settings => exact ⟨settings, rfl⟩
  | _ => cases shown

/-- A second install finds the first one's entry. -/
theorem install_again (path : String) {brickBin : String} {content after : Json}
    (installed : InstalledFrom brickBin content after)
    (brick : isBrickCommand (explainCommand brickBin) = true) :
    install path brickBin false after = .ok (.unchanged, after) := by
  have shown := installed.place
  obtain ⟨settings, rfl⟩ := object_of_list shown
  have installable : Installable "PreToolUse" settings :=
    ⟨container_of_list shown, fun value other => nomatch shown.symm.trans other⟩
  have entries : preToolUseEntries (.object settings) = _ := congrArg Place.entries shown
  have again := @upsertEntry_again _ (laterOf (preToolUseEntries content)) _
    (foreign_frontOf (preToolUseEntries content))
    ((isBrickEntry_brickExplainHookEntry brickBin).trans brick)
  rw [install_object path brickBin false installable, entries]
  change Except.ok (match upsertEntry (frontOf _ ++ _) _ false with
    | (.unchanged, _) => _
    | (.installed, entries) => _
    | (.updated, entries) => _) = _
  cases upserted : upsertEntry (frontOf (preToolUseEntries content) ++
      brickExplainHookEntry brickBin :: laterOf (preToolUseEntries content))
      (brickExplainHookEntry brickBin) false with
  | mk change new =>
      rw [upserted] at again
      cases again
      rfl

theorem status_object (path : String) (settings : KeyTable Json) :
    status path (.object settings) =
      .ok (if (preToolUseEntries (.object settings)).any isBrickEntry then .present else .absent) := by
  change Except.ok (if (listIn jsonFormat "hooks" "PreToolUse" settings).any _ = true then _ else _) = _
  rw [any_listIn]
  rfl

/-- An uninstall that finds an entry of Brick's leaves the others, and the other events. -/
theorem uninstall_spec (path : String) {settings : KeyTable Json}
    (mine : (preToolUseEntries (.object settings)).any isBrickEntry = true) :
    ∃ left, uninstall path (.object settings) = .ok (.removed, .object left) ∧
      preToolUseEntries (.object left) = parties.foreign (preToolUseEntries (.object settings)) ∧
      ∀ event, event ≠ "PreToolUse" →
        (jsonView (.object left)).place event = (jsonView (.object settings)).place event := by
  cases taken : takeOut jsonFormat "hooks" "PreToolUse" parties settings with
  | none =>
      obtain ⟨entry, member, isMine⟩ := List.any_eq_true.mp mine
      cases (takeOut_eq_none taken entry member).symm.trans isMine
  | some left =>
      obtain ⟨_, _, entries, others⟩ := takeOut_spec taken
      refine ⟨left, ?_, entries, others⟩
      unfold uninstall
      simp only [readSettings, bind, Except.bind, taken]
      rfl

/-- What the cycle needs of the binary and of the file. -/
structure Ready (brickBin : String) (content : Json) : Prop where
  file : ∃ settings, content = .object settings ∧ Installable "PreToolUse" settings
  brick : isBrickCommand (explainCommand brickBin) = true
  later : explainCommand brickBin ∉ (laterOf (preToolUseEntries content)).flatMap entryCommands
  others : ∀ event, event ≠ "PreToolUse" → explainCommand brickBin ∉ commandsOf content event

theorem commandsOf_installed {brickBin : String} {content after : Json}
    (installed : InstalledFrom brickBin content after) : commandsOf after "PreToolUse" =
      (frontOf (preToolUseEntries content)).flatMap entryCommands ++ explainCommand brickBin ::
        (laterOf (preToolUseEntries content)).flatMap entryCommands := by
  unfold commandsOf
  rw [installed.place]
  change List.flatMap _ (_ ++ _ :: _) = _
  rw [List.flatMap_append, List.flatMap_cons, entryCommands_brickExplainHookEntry]
  rfl

theorem cycle_iff (path brickBin : String) (force : Bool) (content : Json) :
    (manager path).Cycle brickBin force content ↔ Ready brickBin content := by
  have member {after : Json} (installed : InstalledFrom brickBin content after) :
      explainCommand brickBin ∈ commandsOf after "PreToolUse" := by
    rw [commandsOf_installed installed]
    simp
  have count {after : Json} (installed : InstalledFrom brickBin content after)
      (brick : isBrickCommand (explainCommand brickBin) = true) :
      (commandsOf after "PreToolUse").count (explainCommand brickBin) = 1 ↔
        explainCommand brickBin ∉
          (laterOf (preToolUseEntries content)).flatMap entryCommands := by
    have front := command_notMem_of_foreign brick (foreign_frontOf (preToolUseEntries content))
    rw [commandsOf_installed installed, List.count_append, List.count_eq_zero.mpr front,
      List.count_cons_self, Nat.zero_add, Nat.add_eq_right, List.count_eq_zero]
  have others {after : Json} (installed : InstalledFrom brickBin content after) (event : String)
      (other : event ≠ "PreToolUse") : commandsOf after event = commandsOf content event := by
    unfold commandsOf
    rw [installed.others event other]
  constructor
  · rintro ⟨action, after, ok, again, one, _⟩
    obtain ⟨file, installed, _⟩ := install_spec ok
    have brick := (install_spec again).2.2 rfl
    obtain ⟨once, elsewhere⟩ := (oneHook_iff (member installed)).mp one
    refine ⟨file, brick, (count installed brick).mp once, fun event other => ?_⟩
    rw [← others installed event other]
    exact elsewhere event other
  · rintro ⟨⟨settings, rfl, installable⟩, brick, later, elsewhere⟩
    obtain ⟨⟨action, after⟩, ok⟩ : ∃ result, install path brickBin force (.object settings) =
        .ok result := ⟨_, install_object path brickBin force installable⟩
    obtain ⟨_, installed, _⟩ := install_spec ok
    have one : OneHook (commandsOf after) (explainCommand brickBin) := by
      refine (oneHook_iff (member installed)).mpr ⟨(count installed brick).mpr later,
        fun event other => ?_⟩
      rw [others installed event other]
      exact elsewhere event other
    obtain ⟨new, rfl⟩ := object_of_list installed.place
    have mine : (preToolUseEntries (.object new)).any isBrickEntry = true := by
      refine List.any_eq_true.mpr ⟨brickExplainHookEntry brickBin, ?_,
        (isBrickEntry_brickExplainHookEntry brickBin).trans brick⟩
      unfold preToolUseEntries
      rw [installed.place]
      exact List.mem_append_right _ List.mem_cons_self
    obtain ⟨left, removed, entries, same⟩ := uninstall_spec path mine
    have foreign : ∀ entry ∈ preToolUseEntries (.object left), isBrickEntry entry = false := by
      rw [entries]
      intro entry inForeign
      have notOurs : (!isBrickEntry entry) = true := (List.mem_filter.mp inForeign).2
      simpa using notOurs
    refine ⟨action, .object new, ok, install_again path installed brick, one, ?_, .object left,
      removed, fun event => ?_, ?_⟩
    · exact (status_object path new).trans (by rw [mine]; rfl)
    · by_cases isEvent : event = "PreToolUse"
      · subst isEvent
        exact command_notMem_of_foreign brick foreign
      · change explainCommand brickBin ∉ commandsOf (.object left) event
        have unchanged : commandsOf (.object left) event = commandsOf (.object new) event := by
          unfold commandsOf
          rw [same event isEvent]
        rw [unchanged, others installed event isEvent]
        exact elsewhere event isEvent
    · refine (status_object path left).trans ?_
      rw [List.any_eq_false.mpr fun entry member => by rw [foreign entry member]; decide]
      rfl

end BrickTrace.ClaudeHook

namespace BrickTrace.CodexHook

open KeyedLists SharedLists HookFiles Toml

/-! ## Codex -/

theorem any_foreign (entries : List (KeyTable Item)) :
    (parties.foreign entries).any codexEntryIsBrick = false := by
  refine List.any_eq_false.mpr fun entry member => ?_
  have notOurs : (!codexEntryIsBrick entry) = true := (List.mem_filter.mp member).2
  simpa using notOurs

theorem codexHasBrickHooks_eq (document : KeyTable Item) :
    codexHasBrickHooks document = (entriesOf document).any codexEntryIsBrick := any_listIn document _

/-- Some entry has the matcher and the hook that an install writes. -/
theorem codexMatches_eq (document : KeyTable Item) (brickBin : String) :
    codexMatches document brickBin = (entriesOf document).any fun entry =>
      codexEntryMatches entry codexExplainMatcher (explainCommand brickBin)
        "Loading Brick causal context" := by
  unfold codexMatches
  rw [entriesOf_eq]
  cases preToolUse document with
  | none => rfl
  | some entries =>
      change (entries.any _ && true) = _
      exact Bool.and_true _

theorem codexEntryMatches_desired (brickBin : String) :
    codexEntryMatches (codexHookTable codexExplainMatcher (explainCommand brickBin)
      "Loading Brick causal context") codexExplainMatcher (explainCommand brickBin)
        "Loading Brick causal context" = true := by
  change (codexExplainMatcher == codexExplainMatcher && (("command" == "command" &&
    explainCommand brickBin == explainCommand brickBin && (30 : Int) == 30 &&
    "Loading Brick causal context" == "Loading Brick causal context") || false)) = true
  simp only [beq_self_eq_true, Bool.and_self, Bool.or_false]

theorem command_of_matches {entry : KeyTable Item} {matcher command status : String}
    (isMatch : codexEntryMatches entry matcher command status = true) :
    command ∈ entryCommands entry := by
  obtain ⟨_, anyHook⟩ := (Bool.and_eq_true ..).mp isMatch
  obtain ⟨hook, member, fields⟩ := List.any_eq_true.mp anyHook
  have isCommand : strOf "command" hook = some command := by
    simp only [Bool.and_eq_true, beq_iff_eq] at fields
    exact fields.1.1.2
  unfold entryHooks at member
  unfold entryCommands
  cases found : entry.lookup "hooks" with
  | none =>
      rw [found] at member
      cases member
  | some item =>
      rw [found] at member
      cases item with
      | arrayOfTables hooks => exact List.mem_filterMap.mpr ⟨hook, member, isCommand⟩
      | _ => cases member

theorem commandsOf_eq {document : KeyTable Item} (headed : Headed document) (event : String) :
    commandsOf document event = placeCommands ((codexView document).place event) := by
  unfold commandsOf
  split
  · rename_i other
    exact absurd other (headed.container _)
  · rfl

theorem commandsOf_preToolUse {document : KeyTable Item} (headed : Headed document) :
    commandsOf document "PreToolUse" = (entriesOf document).flatMap entryCommands := by
  rw [commandsOf_eq headed]
  unfold entriesOf
  cases shown : (codexView document).place "PreToolUse" with
  | other item => exact absurd shown (headed.place item)
  | _ => rfl

/-- An install leaves a document as it is where it finds the wanted entry, and some entry that
is known for Brick's. -/
def AlreadyInstalled (brickBin : String) (force : Bool) (document : KeyTable Item) : Prop :=
  codexHasBrickHooks document = true ∧ force = false ∧ codexMatches document brickBin = true

theorem install_unchanged_iff {brickBin : String} {force : Bool} {document : KeyTable Item} :
    codexInstall brickBin force document = .ok (.unchanged, document) ↔
      AlreadyInstalled brickBin force document := by
  constructor
  · intro ok
    by_contra changes
    rw [codexInstall_eq changes] at ok
    injection ok with same
    injection same with action _
    split at action <;> cases action
  · intro already
    unfold codexInstall
    exact if_pos already

/-! ### After an install -/

theorem entriesOf_withHook (brickBin : String) (document : KeyTable Item) :
    entriesOf (withHook brickBin document) =
      parties.foreign (entriesOf document) ++ codexDesired brickBin :=
  congrArg Place.entries (place_withEntries _ _ _)

theorem place_withHook_of_ne {event : String} (other : event ≠ "PreToolUse") (brickBin : String)
    (document : KeyTable Item) : (codexView (withHook brickBin document)).place event =
      (codexView document).place event := place_withEntries_of_ne other _ _ _

theorem codexHasBrickHooks_withHook (brickBin : String) (document : KeyTable Item) :
    codexHasBrickHooks (withHook brickBin document) = isBrickCommand (explainCommand brickBin) := by
  rw [codexHasBrickHooks_eq, entriesOf_withHook, List.any_append, any_foreign, Bool.false_or]
  change ((isBrickCommand (explainCommand brickBin) || false) || false) = _
  rw [Bool.or_false, Bool.or_false]

theorem codexMatches_withHook (brickBin : String) (document : KeyTable Item) :
    codexMatches (withHook brickBin document) brickBin = true := by
  rw [codexMatches_eq, entriesOf_withHook, List.any_append]
  change (_ || (codexEntryMatches _ _ _ _ || false)) = true
  rw [codexEntryMatches_desired, Bool.true_or, Bool.or_true]

theorem entryCommands_desired (brickBin : String) :
    (codexDesired brickBin).flatMap entryCommands = [explainCommand brickBin] := rfl

/-- An uninstall that finds an entry of Brick's leaves the others, and the other events. -/
theorem uninstall_spec {document : KeyTable Item} (mine : codexHasBrickHooks document = true) :
    ∃ left, codexUninstall document = (.removed, left) ∧ Headed left ∧
      entriesOf left = parties.foreign (entriesOf document) ∧
      ∀ event, event ≠ "PreToolUse" →
        (codexView left).place event = (codexView document).place event := by
  unfold codexUninstall
  cases taken : takeOut Toml.format "hooks" "PreToolUse" parties document with
  | none =>
      rw [codexHasBrickHooks_eq] at mine
      obtain ⟨entry, member, isMine⟩ := List.any_eq_true.mp mine
      exact nomatch (takeOut_eq_none taken entry member).symm.trans isMine
  | some left =>
      obtain ⟨container, place, entries, others⟩ := takeOut_spec taken
      exact ⟨left, rfl, ⟨container, place⟩, entries, others⟩

/-- The wanted command is in one hook of Brick's entries and in no other hook. -/
structure Alone (brickBin : String) (document : KeyTable Item) : Prop where
  once : ((entriesOf document).flatMap entryCommands).count (explainCommand brickBin) = 1
  foreign : explainCommand brickBin ∉
    (parties.foreign (entriesOf document)).flatMap entryCommands
  others : ∀ event, event ≠ "PreToolUse" →
    explainCommand brickBin ∉ placeCommands ((codexView document).place event)

/-- From a document with the wanted entry, the rest of the cycle. -/
theorem cycle_of_installed {brickBin : String} {document : KeyTable Item} (headed : Headed document)
    (already : AlreadyInstalled brickBin false document) :
    (OneHook (commandsOf document) (explainCommand brickBin) ∧
      codexStatus document brickBin = .present ∧
      ∃ left, codexUninstall document = (.removed, left) ∧
        NoHook (commandsOf left) (explainCommand brickBin) ∧ codexStatus left brickBin = .absent) ↔
      Alone brickBin document := by
  obtain ⟨has, _, isMatch⟩ := already
  have member : explainCommand brickBin ∈ commandsOf document "PreToolUse" := by
    rw [commandsOf_preToolUse headed]
    rw [codexMatches_eq] at isMatch
    obtain ⟨entry, inEntries, entryMatches⟩ := List.any_eq_true.mp isMatch
    exact List.mem_flatMap.mpr ⟨entry, inEntries, command_of_matches entryMatches⟩
  have status : codexStatus document brickBin = .present := by
    unfold codexStatus
    rw [has, if_neg (by decide), if_pos isMatch]
  obtain ⟨left, removed, leftHeaded, entries, others⟩ := uninstall_spec has
  have absent : codexStatus left brickBin = .absent := by
    unfold codexStatus
    rw [codexHasBrickHooks_eq, entries, any_foreign]
    rfl
  rw [oneHook_iff member, commandsOf_preToolUse headed]
  have elsewhere (event : String) := commandsOf_eq headed event
  constructor
  · rintro ⟨⟨once, noOther⟩, _, left', removed', gone, _⟩
    cases removed.symm.trans removed'
    have none := gone "PreToolUse"
    rw [commandsOf_preToolUse leftHeaded, entries] at none
    exact ⟨once, none, fun event other => by
      rw [← elsewhere]
      exact noOther event other⟩
  · rintro ⟨once, none, noOther⟩
    refine ⟨⟨once, fun event other => by
      rw [elsewhere]
      exact noOther event other⟩, status, left, removed, fun event => ?_, absent⟩
    by_cases same : event = "PreToolUse"
    · rw [same, commandsOf_preToolUse leftHeaded, entries]
      exact none
    · rw [commandsOf_eq leftHeaded, others event same]
      exact noOther event same

/-- What the cycle needs of the binary and of the document. -/
structure Ready (brickBin : String) (force : Bool) (document : KeyTable Item) : Prop where
  found : AlreadyInstalled brickBin force document →
    ((entriesOf document).flatMap entryCommands).count (explainCommand brickBin) = 1
  brick : ¬ AlreadyInstalled brickBin force document →
    isBrickCommand (explainCommand brickBin) = true
  foreign : explainCommand brickBin ∉
    (parties.foreign (entriesOf document)).flatMap entryCommands
  others : ∀ event, event ≠ "PreToolUse" →
    explainCommand brickBin ∉ placeCommands ((codexView document).place event)

theorem headed_of_has {document : KeyTable Item} (has : codexHasBrickHooks document = true) :
    Headed document := by
  rw [codexHasBrickHooks_eq] at has
  obtain ⟨entry, member, _⟩ := List.any_eq_true.mp has
  unfold entriesOf at member
  cases shown : (codexView document).place "PreToolUse" with
  | list entries => exact ⟨container_of_list shown, fun item other => nomatch shown.symm.trans other⟩
  | _ =>
      rw [shown] at member
      cases member

theorem cycle_iff (brickBin : String) (force : Bool) (document : KeyTable Item) :
    manager.Cycle brickBin force document ↔ Ready brickBin force document := by
  have tail {installed : KeyTable Item} (headed : Headed installed)
      (already : AlreadyInstalled brickBin false installed) :
      (OneHook (manager.commands installed) (explainCommand brickBin) ∧
        manager.status brickBin installed = .ok .present ∧
        ∃ left, manager.uninstall installed = .ok (.removed, left) ∧
          NoHook (manager.commands left) (explainCommand brickBin) ∧
          manager.status brickBin left = .ok .absent) ↔ Alone brickBin installed := by
    simp only [manager, Except.ok.injEq]
    exact cycle_of_installed headed already
  by_cases already : AlreadyInstalled brickBin force document
  · have unforced : AlreadyInstalled brickBin false document := ⟨already.1, rfl, already.2.2⟩
    have first := install_unchanged_iff.mpr already
    have rest := tail (headed_of_has already.1) unforced
    constructor
    · rintro ⟨action, installed, ok, _, after⟩
      cases first.symm.trans ok
      obtain ⟨once, foreign, others⟩ := rest.mp after
      exact ⟨fun _ => once, fun not => absurd already not, foreign, others⟩
    · rintro ⟨once, _, foreign, others⟩
      exact ⟨.unchanged, document, first, install_unchanged_iff.mpr unforced,
        rest.mpr ⟨once already, foreign, others⟩⟩
  · have first := codexInstall_eq already
    have isMatch := codexMatches_withHook brickBin document
    have has := codexHasBrickHooks_withHook brickBin document
    have headed := headed_withHook brickBin document
    have commands : (entriesOf (withHook brickBin document)).flatMap entryCommands =
        (parties.foreign (entriesOf document)).flatMap entryCommands ++ [explainCommand brickBin] := by
      rw [entriesOf_withHook, List.flatMap_append, entryCommands_desired]
    have foreign (brick : isBrickCommand (explainCommand brickBin) = true) :
        parties.foreign (entriesOf (withHook brickBin document)) =
          parties.foreign (entriesOf document) := by
      rw [entriesOf_withHook]
      exact parties.foreign_append_ours _ fun entry => isBrickHook_codexDesired brick
    constructor
    · rintro ⟨action, installed, ok, again, after⟩
      cases first.symm.trans ok
      have unforced := install_unchanged_iff.mp again
      have brick := has.symm.trans unforced.1
      obtain ⟨_, none, others⟩ := (tail headed unforced).mp after
      rw [foreign brick] at none
      refine ⟨fun yes => absurd yes already, fun _ => brick, none, fun event other => ?_⟩
      rw [← place_withHook_of_ne other brickBin]
      exact others event other
    · rintro ⟨_, brick, none, others⟩
      have unforced : AlreadyInstalled brickBin false (withHook brickBin document) :=
        ⟨has.trans (brick already), rfl, isMatch⟩
      refine ⟨_, _, first, install_unchanged_iff.mpr unforced, (tail headed unforced).mpr
        ⟨?_, ?_, fun event other => ?_⟩⟩
      · rw [commands, List.count_append, List.count_eq_zero.mpr none, List.count_singleton_self]
      · rwa [foreign (brick already)]
      · rw [place_withHook_of_ne other]
        exact others event other

end BrickTrace.CodexHook

namespace BrickTrace.WindsurfHook

open KeyedLists SharedLists HookFiles

/-! ## Windsurf -/

theorem lookup_hooks_of_mem {settings : KeyTable Json} {event : String} {hook : Json}
    (member : hook ∈ ((jsonView (.object settings)).place event).entries) :
    ∃ hooks entries, settings.lookup "hooks" = some (.object hooks) ∧
      hooks.lookup event = some (.array entries) ∧ hook ∈ entries := by
  change hook ∈ ((view jsonFormat "hooks" settings).place event).entries at member
  cases shown : (view jsonFormat "hooks" settings).place event with
  | list entries =>
      obtain ⟨hooks, found⟩ := hooks_of_list shown
      rw [shown] at member
      rw [place_of_hooks found] at shown
      cases here : hooks.lookup event with
      | none =>
          rw [here] at shown
          cases shown
      | some value =>
          rw [here] at shown
          cases value with
          | array inside =>
              cases shown
              exact ⟨hooks, entries, found, here, member⟩
          | _ => cases shown
  | _ =>
      rw [shown] at member
      cases member

theorem foreign_of_noBrick {content : Json} (noBrick : windsurfHasBrickHooks content = false)
    (event : String) : ∀ hook ∈ ((jsonView content).place event).entries, isBrickHook hook = false := by
  intro hook member
  cases content with
  | object settings =>
      obtain ⟨hooks, entries, found, here, inEntries⟩ := lookup_hooks_of_mem member
      obtain ⟨front, back, whole, _⟩ := List.lookup_eq_some_iff.mp here
      rw [windsurfHasBrickHooks_eq found, List.any_eq_false] at noBrick
      have none := noBrick (event, .array entries) (by rw [whole]; simp)
      simp only [hooksIn, List.any_eq_true, not_exists, not_and, Bool.not_eq_true] at none
      exact none hook inEntries
  | _ => cases member

theorem command_of_mem {hook : Json} {content : Json} {event command : String}
    (member : hook ∈ ((jsonView content).place event).entries)
    (isCommand : commandOf hook = some command) : command ∈ commandsOf content event :=
  List.mem_filterMap.mpr ⟨hook, member, isCommand⟩

theorem command_notMem_of_noBrick {content : Json} {command : String}
    (noBrick : windsurfHasBrickHooks content = false) (brick : isBrickCommand command = true)
    (event : String) : command ∉ commandsOf content event := by
  intro member
  obtain ⟨hook, inEntries, isCommand⟩ := List.mem_filterMap.mp member
  have foreign := foreign_of_noBrick noBrick event hook inEntries
  rw [isBrickHook_eq, isCommand] at foreign
  exact nomatch foreign.symm.trans brick

theorem commandOf_windsurfEntry (command : String) :
    commandOf (windsurfEntry command) = some command := by
  have distinct : ["command", "show_output"].Nodup := by decide
  have found : (windsurfEntry command).get "command" = some (.string command) :=
    @Json.get_ofFields [("command", _), ("show_output", _)] distinct "command"
  unfold commandOf
  rw [found]

theorem windsurfMatches_iff (content : Json) (brickBin : String) :
    windsurfMatches content brickBin = true ↔
      windsurfEntry (explainCommand brickBin) ∈
        ((jsonView content).place "pre_read_code").entries := by
  cases content with
  | object settings =>
      unfold windsurfMatches
      have inTable : (Json.object settings).get "hooks" = settings.lookup "hooks" := rfl
      rw [inTable]
      constructor
      · intro isMatch
        cases found : settings.lookup "hooks" with
        | none =>
            rw [found] at isMatch
            cases isMatch
        | some value =>
            rw [found] at isMatch
            cases value with
            | object hooks =>
                simp only [windsurfDesired, List.all_cons, List.all_nil, Bool.and_true] at isMatch
                change _ ∈ ((view jsonFormat "hooks" settings).place "pre_read_code").entries
                rw [place_of_hooks found]
                cases here : hooks.lookup "pre_read_code" with
                | none =>
                    rw [here] at isMatch
                    cases isMatch
                | some list =>
                    rw [here] at isMatch
                    cases list with
                    | array entries =>
                        obtain ⟨entry, member, same⟩ := List.any_eq_true.mp isMatch
                        rw [← Json.eq_of_same same]
                        exact member
                    | _ => cases isMatch
            | _ => cases isMatch
      · intro member
        obtain ⟨hooks, entries, found, here, inEntries⟩ := lookup_hooks_of_mem member
        rw [found]
        simp only [windsurfDesired, List.all_cons, List.all_nil, Bool.and_true, here]
        exact List.any_eq_true.mpr ⟨_, inEntries, Json.same_refl _⟩
  | _ =>
      constructor
      · intro isMatch
        cases isMatch
      · intro member
        cases member

theorem has_of_mem {content : Json} {event : String} {hook : Json}
    (member : hook ∈ ((jsonView content).place event).entries) (mine : isBrickHook hook = true) :
    windsurfHasBrickHooks content = true := by
  cases has : windsurfHasBrickHooks content with
  | true => rfl
  | false => exact nomatch (foreign_of_noBrick has event hook member).symm.trans mine

/-- An uninstall that finds a hook of Brick's leaves none. -/
theorem uninstall_spec {content : Json} (has : windsurfHasBrickHooks content = true) :
    ∃ left, windsurfUninstall content = (.removed, left) ∧ windsurfHasBrickHooks left = false := by
  rcases windsurfUninstall_cases content with ⟨none, _⟩ | ⟨settings, hooks, rfl, found, _, done⟩
  · cases none.symm.trans has
  · refine ⟨_, done, ?_⟩
    split
    · unfold windsurfHasBrickHooks
      have gone : (Json.object (remove "hooks" settings)).get "hooks" = none :=
        lookup_remove_self "hooks" settings
      rw [gone]
    · have written : (withLists jsonFormat "hooks" settings (leftHooks hooks)).lookup "hooks" =
          some (.object (leftHooks hooks)) := Json.lookup_insertEntry_self _ _ _
      rw [windsurfHasBrickHooks_eq written, List.any_eq_false]
      intro event member
      obtain ⟨before, _, rfl⟩ := List.mem_map.mp (List.mem_of_mem_filter member)
      rw [Bool.not_eq_true, List.any_eq_false]
      intro hook inEvent
      dsimp only at inEvent
      cases value : before.2 with
      | array inside =>
          rw [value] at inEvent
          have notOurs : (!isBrickHook hook) = true := (List.mem_filter.mp inEvent).2
          simpa using notOurs
      | _ =>
          rw [value] at inEvent
          cases inEvent

/-- From a file with the wanted hook, the rest of the cycle. -/
theorem cycle_of_installed {brickBin : String} {content : Json}
    (brick : isBrickCommand (explainCommand brickBin) = true)
    (wanted : windsurfEntry (explainCommand brickBin) ∈
      ((jsonView content).place "pre_read_code").entries) :
    windsurfInstall brickBin false content = .ok (.unchanged, content) ∧
      windsurfStatus content brickBin = .present ∧
      ∃ left, windsurfUninstall content = (.removed, left) ∧
        NoHook (commandsOf left) (explainCommand brickBin) ∧
        windsurfStatus left brickBin = .absent := by
  have isMatch := (windsurfMatches_iff content brickBin).mpr wanted
  have has := has_of_mem wanted (isBrickHook_windsurfEntry brick)
  obtain ⟨left, removed, noBrick⟩ := uninstall_spec has
  refine ⟨?_, ?_, left, removed, command_notMem_of_noBrick noBrick brick, ?_⟩
  · unfold windsurfInstall
    exact if_pos ⟨has, rfl, isMatch⟩
  · unfold windsurfStatus
    rw [has, if_neg (by decide), if_pos isMatch]
  · unfold windsurfStatus
    exact if_pos noBrick

/-- A wanted hook that is not known for Brick's stays. -/
theorem command_after_uninstall {brickBin : String} {content : Json}
    (foreign : isBrickCommand (explainCommand brickBin) = false)
    (wanted : windsurfEntry (explainCommand brickBin) ∈
      ((jsonView content).place "pre_read_code").entries) :
    explainCommand brickBin ∈ commandsOf (windsurfUninstall content).2 "pre_read_code" := by
  have isUsers : parties.users (windsurfEntry (explainCommand brickBin)) =
      some (windsurfEntry (explainCommand brickBin)) := by
    refine parties.users_of_foreign _ ?_
    change isBrickHook _ = false
    rw [isBrickHook_eq, commandOf_windsurfEntry]
    exact foreign
  have before : windsurfEntry (explainCommand brickBin) ∈
      parties.usersPart ((jsonView content).place "pre_read_code").entries :=
    List.mem_filterMap.mpr ⟨_, wanted, isUsers⟩
  have after := ((frame_uninstall content).entries "pre_read_code").subset before
  obtain ⟨hook, member, kept⟩ := List.mem_filterMap.mp after
  have same : hook = windsurfEntry (explainCommand brickBin) := by
    change (if isBrickHook hook then none else some hook) = _ at kept
    split at kept
    · cases kept
    · exact Option.some.inj kept
  exact command_of_mem (same ▸ member) (commandOf_windsurfEntry _)

/-- What the cycle needs of the binary and of the file. -/
structure Ready (brickBin : String) (force : Bool) (content : Json) : Prop where
  brick : isBrickCommand (explainCommand brickBin) = true
  found : force = false ∧ windsurfMatches content brickBin = true →
    (commandsOf content "pre_read_code").count (explainCommand brickBin) = 1
  file : ¬ (force = false ∧ windsurfMatches content brickBin = true) →
    ∃ settings, content = .object settings ∧ Installable "pre_read_code" settings
  others : ∀ event, event ≠ "pre_read_code" → explainCommand brickBin ∉ commandsOf content event

theorem wanted_withHook (brickBin : String) (settings : KeyTable Json) :
    windsurfEntry (explainCommand brickBin) ∈
      ((jsonView (.object (withHook brickBin settings))).place "pre_read_code").entries := by
  have list : (jsonView (.object (withHook brickBin settings))).place "pre_read_code" = _ :=
    place_withEntries settings (listsOf jsonFormat "hooks" settings) _
  rw [list]
  exact List.mem_append_right _ List.mem_cons_self

theorem commandsOf_withHook {brickBin : String}
    (brick : isBrickCommand (explainCommand brickBin) = true) (settings : KeyTable Json) :
    (commandsOf (.object (withHook brickBin settings)) "pre_read_code").count
      (explainCommand brickBin) = 1 := by
  have list : (jsonView (.object (withHook brickBin settings))).place "pre_read_code" = _ :=
    place_withEntries settings (listsOf jsonFormat "hooks" settings) _
  have none : explainCommand brickBin ∉
      (parties.foreign (hooksOf settings)).filterMap commandOf := by
    intro member
    obtain ⟨hook, inForeign, isCommand⟩ := List.mem_filterMap.mp member
    have notOurs : (!isBrickHook hook) = true := (List.mem_filter.mp inForeign).2
    rw [isBrickHook_eq, isCommand] at notOurs
    simp [brick] at notOurs
  unfold commandsOf
  rw [list]
  change (List.filterMap commandOf (_ ++ [_])).count _ = 1
  rw [List.filterMap_append, List.count_append, List.count_eq_zero.mpr none,
    List.filterMap_cons_some (commandOf_windsurfEntry _), List.filterMap_nil,
    List.count_singleton_self]

theorem commandsOf_withHook_of_ne {event : String} (other : event ≠ "pre_read_code")
    (brickBin : String) (settings : KeyTable Json) :
    commandsOf (.object (withHook brickBin settings)) event = commandsOf (.object settings) event := by
  have same : (jsonView (.object (withHook brickBin settings))).place event =
      (jsonView (.object settings)).place event := place_withEntries_of_ne other settings _ _
  unfold commandsOf
  rw [same]

theorem cycle_iff (brickBin : String) (force : Bool) (content : Json) :
    manager.Cycle brickBin force content ↔ Ready brickBin force content := by
  have brick_of {installed left : Json} {action : HookAction}
      (wanted : windsurfEntry (explainCommand brickBin) ∈
        ((jsonView installed).place "pre_read_code").entries)
      (removed : windsurfUninstall installed = (action, left))
      (gone : NoHook (commandsOf left) (explainCommand brickBin)) :
      isBrickCommand (explainCommand brickBin) = true := by
    cases brick : isBrickCommand (explainCommand brickBin) with
    | true => rfl
    | false =>
        have stays := command_after_uninstall brick wanted
        rw [removed] at stays
        exact absurd stays (gone _)
  have one_iff {installed : Json} (wanted : windsurfEntry (explainCommand brickBin) ∈
      ((jsonView installed).place "pre_read_code").entries) :=
    oneHook_iff (command_of_mem wanted (commandOf_windsurfEntry _))
  constructor
  · rintro ⟨action, installed, ok, _, one, _, left, removed, gone, _⟩
    have removed := Except.ok.inj removed
    rcases windsurfInstall_eq_ok ok with ⟨_, unforced, isMatch, rfl⟩ | ⟨settings, rfl, installable, rfl⟩
    · have wanted := (windsurfMatches_iff _ brickBin).mp isMatch
      obtain ⟨once, others⟩ := (one_iff wanted).mp one
      exact ⟨brick_of wanted removed gone, fun _ => once,
        fun changes => absurd ⟨unforced, isMatch⟩ changes, others⟩
    · have wanted := wanted_withHook brickBin settings
      obtain ⟨_, others⟩ := (one_iff wanted).mp one
      have brick := brick_of wanted removed gone
      refine ⟨brick, fun ⟨unforced, isMatch⟩ => ?_, fun _ => ⟨settings, rfl, installable⟩,
        fun event other => ?_⟩
      · -- then nothing was written
        have has := has_of_mem ((windsurfMatches_iff _ brickBin).mp isMatch)
          (isBrickHook_windsurfEntry brick)
        have unchanged : windsurfInstall brickBin force (.object settings) =
            .ok (.unchanged, .object settings) := by
          unfold windsurfInstall
          exact if_pos ⟨has, unforced, isMatch⟩
        have results := unchanged.symm.trans ok
        injection results with results
        injection results with _ same
        rw [same]
        exact commandsOf_withHook brick settings
      · rw [← commandsOf_withHook_of_ne other brickBin]
        exact others event other
  · rintro ⟨brick, found, file, others⟩
    by_cases already : force = false ∧ windsurfMatches content brickBin = true
    · have wanted := (windsurfMatches_iff _ brickBin).mp already.2
      obtain ⟨again, present, left, removed, gone, absent⟩ := cycle_of_installed brick wanted
      refine ⟨.unchanged, content, ?_, again, (one_iff wanted).mpr ⟨found already, others⟩,
        congrArg Except.ok present, left, congrArg Except.ok removed, gone, congrArg Except.ok absent⟩
      rw [already.1]
      exact again
    · obtain ⟨settings, rfl, installable⟩ := file already
      have wanted := wanted_withHook brickBin settings
      obtain ⟨again, present, left, removed, gone, absent⟩ := cycle_of_installed brick wanted
      refine ⟨_, _, windsurfInstall_of_installable installable fun unchanged => already unchanged.2,
        again, (one_iff wanted).mpr ⟨commandsOf_withHook brick settings, fun event other => ?_⟩,
        congrArg Except.ok present, left, congrArg Except.ok removed, gone, congrArg Except.ok absent⟩
      rw [commandsOf_withHook_of_ne other]
      exact others event other

end BrickTrace.WindsurfHook

namespace BrickTrace.HookCycles

open HookFiles

/-- Install, install, status, uninstall, status: the operations of the three managers agree
exactly where the command is known for Brick's and nothing else has it. -/
theorem cycle_iff_ready (brickBin : String) (force : Bool) :
    (∀ path content, (ClaudeHook.manager path).Cycle brickBin force content ↔
      ClaudeHook.Ready brickBin content) ∧
    (∀ document, CodexHook.manager.Cycle brickBin force document ↔
      CodexHook.Ready brickBin force document) ∧
    ∀ content, WindsurfHook.manager.Cycle brickBin force content ↔
      WindsurfHook.Ready brickBin force content :=
  ⟨fun path => ClaudeHook.cycle_iff path brickBin force, CodexHook.cycle_iff brickBin force,
    WindsurfHook.cycle_iff brickBin force⟩

/-- Without a file, for a binary with the suffix of another system. -/
theorem brickExe_not_seen :
    ¬ (ClaudeHook.manager "settings.json").Cycle "/opt/brick.exe" false (.object []) ∧
    ¬ CodexHook.manager.Cycle "/opt/brick.exe" false [] ∧
    ¬ WindsurfHook.manager.Cycle "/opt/brick.exe" false (.object []) := by
  have unknown : isBrickCommand (explainCommand "/opt/brick.exe") = false := by decide +kernel
  refine ⟨fun cycle => ?_, fun cycle => ?_, fun cycle => ?_⟩
  · exact nomatch unknown.symm.trans ((ClaudeHook.cycle_iff _ _ _ _).mp cycle).brick
  · have brick := ((CodexHook.cycle_iff _ _ _).mp cycle).brick fun already => nomatch already.1
    exact nomatch unknown.symm.trans brick
  · exact nomatch unknown.symm.trans ((WindsurfHook.cycle_iff _ _ _).mp cycle).brick

end BrickTrace.HookCycles
