import BrickTrace.Cli.HookFiles
import BrickTrace.Lib.Fallible

/-!
# The hook in Windsurf's settings

Windsurf has a list of hooks for each event.  An install takes Brick's hooks out of the list for
`pre_read_code` and puts the wanted one at the end; an uninstall takes Brick's hooks out of all
lists, and then every list that is empty.
-/

set_option autoImplicit false

namespace BrickTrace.WindsurfHook

open KeyedLists SharedLists HookFiles

def windsurfEntry (command : String) : Json :=
  Json.ofFields [("command", .string command), ("show_output", .bool true)]

def windsurfDesired (brickBin : String) : List (String × Json) :=
  [("pre_read_code", windsurfEntry (explainCommand brickBin))]

/-- A hook is one party's. -/
def parties : Parties Json where
  ours := isBrickHook
  users hook := if isBrickHook hook then none else some hook
  users_of_foreign hook foreign := if_neg (by rw [foreign]; exact Bool.false_ne_true)

theorem unmixed (hook : Json) : parties.Unmixed hook := fun mine => if_pos mine

/-! ## The operations -/

def hooksIn (value : Json) : List Json :=
  match value with
  | .array hooks => hooks
  | _ => []

def windsurfHasBrickHooks (content : Json) : Bool :=
  match content.get "hooks" with
  | some (.object hooks) => hooks.any fun event => (hooksIn event.2).any isBrickHook
  | _ => false

def windsurfMatches (content : Json) (brickBin : String) : Bool :=
  match content.get "hooks" with
  | some (.object hooks) => (windsurfDesired brickBin).all fun (event, desired) =>
      match hooks.lookup event with
      | some (.array entries) => entries.any fun entry => entry.same desired
      | _ => false
  | _ => false

def ensureJsonHooksObject : Json → Except String (KeyTable Json × KeyTable Json)
  | .object settings =>
      match (settings.lookup "hooks").getD (.object []) with
      | .object hooks => .ok (settings, hooks)
      | _ => .error "hooks is not a JSON object"
  | _ => .error "hooks config root is not a JSON object"

def replaceHook (hooks : KeyTable Json) (wanted : String × Json) : Except String (KeyTable Json) :=
  match (hooks.lookup wanted.1).getD (.array []) with
  | .array entries => .ok (Json.insertEntry wanted.1
      (.array ((entries.filter fun entry => !isBrickHook entry) ++ [wanted.2])) hooks)
  | _ => .error ("hooks." ++ wanted.1 ++ " is not an array")

def windsurfInstall (brickBin : String) (force : Bool) (content : Json) :
    Except String (HookAction × Json) :=
  if windsurfHasBrickHooks content = true ∧ force = false ∧
      windsurfMatches content brickBin = true then
    .ok (.unchanged, content)
  else do
    let (settings, hooks) ← ensureJsonHooksObject content
    let hooks ← (windsurfDesired brickBin).foldlM replaceHook hooks
    return (if windsurfHasBrickHooks content then .updated else .installed,
      .object (Json.insertEntry "hooks" (.object hooks) settings))

def withoutBrick : Json → Json
  | .array hooks => .array (hooks.filter fun hook => !isBrickHook hook)
  | other => other

def removesAny (hooks : KeyTable Json) : Bool :=
  hooks.any fun event =>
    ((hooksIn event.2).filter fun hook => !isBrickHook hook).length != (hooksIn event.2).length

def emptyList : Json → Bool
  | .array [] => true
  | _ => false

/-- What an uninstall leaves of the hooks. -/
def leftHooks (hooks : KeyTable Json) : KeyTable Json :=
  (hooks.map fun event => (event.1, withoutBrick event.2)).filter fun event => !emptyList event.2

def windsurfUninstall (content : Json) : HookAction × Json :=
  match content with
  | .object settings =>
      match settings.lookup "hooks" with
      | some (.object hooks) =>
          if removesAny hooks = false then (.absent, content)
          else if (leftHooks hooks).isEmpty then (.removed, .object (remove "hooks" settings))
          else (.removed, .object (Json.insertEntry "hooks" (.object (leftHooks hooks)) settings))
      | _ => (.absent, content)
  | _ => (.absent, content)

def windsurfStatus (content : Json) (brickBin : String) : HookAction :=
  if windsurfHasBrickHooks content = false then .absent
  else if windsurfMatches content brickBin then .present
  else .updated

def commandsOf (content : Json) (event : String) : List String :=
  ((jsonView content).place event).entries.filterMap commandOf

def manager : Manager Json where
  install := windsurfInstall
  uninstall content := .ok (windsurfUninstall content)
  status brickBin content := .ok (windsurfStatus content brickBin)
  commands := commandsOf

inductive HookCall where
  | install (brickBin : String) (force : Bool)
  | uninstall

def HookCall.run (content : Json) : HookCall → Except String Json
  | .install brickBin force => (windsurfInstall brickBin force content).map Prod.snd
  | .uninstall => .ok (windsurfUninstall content).2

def afterCalls (content : Json) (calls : List HookCall) : Except String Json :=
  calls.foldlM HookCall.run content

/-! ## What an uninstall leaves -/

theorem leftHooks_cons (event : String × Json) (rest : KeyTable Json) :
    leftHooks (event :: rest) = if emptyList (withoutBrick event.2) = true then leftHooks rest
      else (event.1, withoutBrick event.2) :: leftHooks rest := by
  unfold leftHooks
  rw [List.map_cons]
  cases empty : emptyList (withoutBrick event.2) with
  | true => rw [List.filter_cons_of_neg (by simp [empty]), if_pos rfl]
  | false => rw [List.filter_cons_of_pos (by simp [empty]), if_neg Bool.false_ne_true]

theorem lookup_leftHooks_of_none {hooks : KeyTable Json} {key : String}
    (missing : hooks.lookup key = none) : (leftHooks hooks).lookup key = none := by
  rw [List.lookup_eq_none_iff] at missing ⊢
  intro entry member
  obtain ⟨event, inHooks, rfl⟩ := List.mem_map.mp (List.mem_of_mem_filter member)
  exact missing event inHooks

theorem lookup_leftHooks_of_kept {hooks : KeyTable Json} {key : String} {value : Json}
    (found : hooks.lookup key = some value) (kept : emptyList (withoutBrick value) = false) :
    (leftHooks hooks).lookup key = some (withoutBrick value) := by
  induction hooks with
  | nil => cases found
  | cons event rest ih =>
      rw [List.lookup_cons] at found
      rw [leftHooks_cons]
      cases same : key == event.1 with
      | true =>
          rw [same] at found
          cases found
          rw [kept, if_neg Bool.false_ne_true, List.lookup_cons, same]
      | false =>
          rw [same] at found
          split
          · exact ih found
          · rw [List.lookup_cons, same]
            exact ih found

theorem lookup_leftHooks_of_empty {hooks : KeyTable Json} {key : String} {value : Json}
    (sorted : Json.Sorted hooks) (found : hooks.lookup key = some value)
    (empty : emptyList (withoutBrick value) = true) : (leftHooks hooks).lookup key = none := by
  induction hooks with
  | nil => cases found
  | cons event rest ih =>
      obtain ⟨first, sortedRest⟩ := List.pairwise_cons.mp sorted
      rw [List.lookup_cons] at found
      rw [leftHooks_cons]
      cases same : key == event.1 with
      | true =>
          rw [same] at found
          cases found
          rw [if_pos empty]
          -- no later event has the key
          have none : rest.lookup key = none := by
            rw [beq_iff_eq.mp same]
            exact Json.lookup_eq_none_of_lt first
          exact lookup_leftHooks_of_none none
      | false =>
          rw [same] at found
          split
          · exact ih sortedRest found
          · rw [List.lookup_cons, same]
            exact ih sortedRest found

theorem emptyList_of_lookup {hooks : KeyTable Json} {key : String} {value : Json}
    (found : (leftHooks hooks).lookup key = some value) : emptyList value = false := by
  obtain ⟨front, back, rest, _⟩ := List.lookup_eq_some_iff.mp found
  have member : (key, value) ∈ leftHooks hooks := by
    rw [rest]
    simp
  simpa using (List.mem_filter.mp member).2

theorem foreign_withoutBrick (hooks : List Json) :
    withoutBrick (.array hooks) = .array (parties.foreign hooks) := rfl

theorem removesAny_eq (hooks : KeyTable Json) :
    removesAny hooks = hooks.any fun event => (hooksIn event.2).any isBrickHook := by
  unfold removesAny
  refine congrArg (List.any hooks) (funext fun event => ?_)
  rw [Bool.eq_iff_iff, bne_iff_ne, Ne, List.length_filter_eq_length_iff, List.any_eq_true]
  simp

/-! ## One call -/

/-- There is no empty list or container; a hook is one party's anyway. -/
def Separated (content : Json) : Prop := Separate parties (fun _ => True) (jsonView content)

theorem windsurfHasBrickHooks_eq {settings hooks : KeyTable Json}
    (found : settings.lookup "hooks" = some (.object hooks)) :
    windsurfHasBrickHooks (.object settings) =
      hooks.any fun event => (hooksIn event.2).any isBrickHook := by
  unfold windsurfHasBrickHooks
  change (match settings.lookup "hooks" with
    | some (.object hooks) => _
    | _ => false) = _
  rw [found]

/-- What an uninstall does: nothing, or it writes what it leaves of the hooks. -/
theorem windsurfUninstall_cases (content : Json) :
    (windsurfHasBrickHooks content = false ∧ windsurfUninstall content = (.absent, content)) ∨
      ∃ settings hooks, content = .object settings ∧
        settings.lookup "hooks" = some (.object hooks) ∧ windsurfHasBrickHooks content = true ∧
        windsurfUninstall content = (.removed, .object
          (if (leftHooks hooks).isEmpty then remove "hooks" settings
            else withLists jsonFormat "hooks" settings (leftHooks hooks))) := by
  cases content with
  | object settings =>
      cases found : settings.lookup "hooks" with
      | none =>
          refine Or.inl ⟨?_, ?_⟩
          · unfold windsurfHasBrickHooks
            change (match settings.lookup "hooks" with
              | some (.object hooks) => _
              | _ => false) = false
            rw [found]
          · unfold windsurfUninstall
            dsimp only
            rw [found]
      | some value =>
          cases value with
          | object hooks =>
              have has := windsurfHasBrickHooks_eq found
              unfold windsurfUninstall
              dsimp only
              rw [found]
              dsimp only
              rw [removesAny_eq, ← has]
              cases mine : windsurfHasBrickHooks (.object settings) with
              | false => exact Or.inl ⟨rfl, if_pos rfl⟩
              | true =>
                  refine Or.inr ⟨settings, hooks, rfl, found, rfl, ?_⟩
                  rw [if_neg (by decide)]
                  split <;> rfl
          | _ =>
              refine Or.inl ⟨?_, ?_⟩
              · unfold windsurfHasBrickHooks
                change (match settings.lookup "hooks" with
                  | some (.object hooks) => _
                  | _ => false) = false
                rw [found]
              · unfold windsurfUninstall
                dsimp only
                rw [found]
  | _ => exact Or.inl ⟨rfl, rfl⟩

theorem usersPart_foreign_sublist (hooks : List Json) :
    (parties.usersPart hooks).Sublist (parties.usersPart (parties.foreign hooks)) := by
  rw [parties.usersPart_foreign, parties.usersPart_of_unmixed fun hook _ => unmixed hook]

theorem place_leftHooks_ne_nil (hooks : KeyTable Json) (key : String) :
    placeOf jsonFormat ((leftHooks hooks).lookup key) ≠ .list [] := by
  intro empty
  cases found : (leftHooks hooks).lookup key with
  | none =>
      rw [found] at empty
      cases empty
  | some value =>
      have full := emptyList_of_lookup found
      rw [found] at empty
      cases value with
      | array entries =>
          cases entries with
          | nil => cases full
          | cons first rest => cases empty
      | _ => cases empty

/-- What is no list is as it was, and the user's hooks are in the list they were in. -/
theorem place_leftHooks (hooks : KeyTable Json) (key : String) :
    (∀ value, placeOf jsonFormat (hooks.lookup key) = .other value →
        placeOf jsonFormat ((leftHooks hooks).lookup key) = .other value) ∧
      (parties.usersPart (placeOf jsonFormat (hooks.lookup key)).entries).Sublist
        (parties.usersPart (placeOf jsonFormat ((leftHooks hooks).lookup key)).entries) := by
  cases found : hooks.lookup key with
  | none =>
      rw [lookup_leftHooks_of_none found]
      exact ⟨fun _ other => other, List.Sublist.refl _⟩
  | some value =>
      cases value with
      | array entries =>
          refine ⟨fun _ other => (nomatch other), ?_⟩
          change (parties.usersPart entries).Sublist _
          cases left : parties.foreign entries with
          | nil =>
              have none := usersPart_foreign_sublist entries
              rw [left] at none
              exact none.trans (List.nil_sublist _)
          | cons first rest =>
              have kept : emptyList (withoutBrick (.array entries)) = false := by
                rw [foreign_withoutBrick, left]
                rfl
              rw [lookup_leftHooks_of_kept found kept, foreign_withoutBrick]
              exact usersPart_foreign_sublist entries
      | _ =>
          rw [lookup_leftHooks_of_kept found rfl]
          exact ⟨fun _ other => other, List.Sublist.refl _⟩

theorem place_of_hooks {settings hooks : KeyTable Json}
    (found : settings.lookup "hooks" = some (.object hooks)) (key : String) :
    (view jsonFormat "hooks" settings).place key = placeOf jsonFormat (hooks.lookup key) := by
  change placeOf jsonFormat ((listsOf jsonFormat "hooks" settings).lookup key) = _
  unfold listsOf
  rw [found]
  rfl

theorem container_of_hooks {settings hooks : KeyTable Json}
    (found : settings.lookup "hooks" = some (.object hooks)) (value : Json) :
    (view jsonFormat "hooks" settings).container ≠ .other value := by
  have isTable : (settings.lookup "hooks").bind jsonFormat.asTable = some hooks := by
    rw [found]
    rfl
  exact (lists_of_isTable isTable).2 value

theorem frame_uninstall (content : Json) :
    Frame parties (fun _ => True) (jsonView content) (jsonView (windsurfUninstall content).2) := by
  rcases windsurfUninstall_cases content with ⟨_, same⟩ | ⟨settings, hooks, rfl, found, _, done⟩
  · rw [same]
    exact Frame.refl _
  · rw [done]
    have isContainer := container_of_hooks found
    dsimp only
    split
    · rename_i nothing
      have missing (key : String) : (leftHooks hooks).lookup key = none := by
        rw [List.isEmpty_iff.mp nothing]
        rfl
      change Frame parties _ (view jsonFormat "hooks" settings) _
      refine frame_remove isContainer fun key => ?_
      obtain ⟨value, kept⟩ := place_leftHooks hooks key
      rw [missing] at value kept
      rw [place_of_hooks found]
      cases here : placeOf jsonFormat (hooks.lookup key) with
      | missing => exact Or.inl rfl
      | other item => exact nomatch value item here
      | list entries =>
          rw [here] at kept
          exact Or.inr ⟨trivial, entries, rfl, List.sublist_nil.mp kept⟩
    · change Frame parties _ (view jsonFormat "hooks" settings) _
      refine frame_withLists isContainer (fun _ outside => absurd trivial outside)
        (fun key value here => ?_) fun key => ?_
      · rw [place_of_hooks found] at here
        exact (place_leftHooks hooks key).1 value here
      · rw [place_of_hooks found]
        exact (place_leftHooks hooks key).2

/-- An uninstall leaves no empty list. -/
theorem separated_uninstall {content : Json} (separated : Separated content) :
    Separated (windsurfUninstall content).2 := by
  rcases windsurfUninstall_cases content with ⟨_, same⟩ | ⟨settings, hooks, rfl, found, _, done⟩
  · rw [same]
    exact separated
  · rw [done]
    dsimp only
    split
    · refine ⟨fun key _ empty => ?_, fun key _ hook _ => unmixed hook, ?_⟩
      · exact nomatch (place_remove settings key).symm.trans empty
      · exact fun empty => nomatch (container_remove settings).symm.trans empty
    · rename_i some
      refine ⟨fun key _ empty => ?_, fun key _ hook _ => unmixed hook, fun empty => ?_⟩
      · exact place_leftHooks_ne_nil hooks key ((place_withLists settings _ key).symm.trans empty)
      · have filled := @container_withLists _ _ jsonFormat "hooks" settings (leftHooks hooks)
        rw [if_neg some] at filled
        exact nomatch filled.symm.trans empty

/-! ## What an install writes -/

def hooksOf (settings : KeyTable Json) : List Json :=
  ((view jsonFormat "hooks" settings).place "pre_read_code").entries

def withHook (brickBin : String) (settings : KeyTable Json) : KeyTable Json :=
  withEntries jsonFormat "hooks" "pre_read_code" settings (listsOf jsonFormat "hooks" settings)
    (parties.foreign (hooksOf settings) ++ [windsurfEntry (explainCommand brickBin)])

theorem windsurfInstall_object (brickBin : String) (force : Bool) (settings : KeyTable Json) :
    windsurfInstall brickBin force (.object settings) =
      if windsurfHasBrickHooks (.object settings) = true ∧ force = false ∧
          windsurfMatches (.object settings) brickBin = true then .ok (.unchanged, .object settings)
      else (ensureEntries "pre_read_code" "hooks is not a JSON object"
        ("hooks." ++ "pre_read_code" ++ " is not an array") settings).map fun (hooks, entries) =>
          (if windsurfHasBrickHooks (.object settings) then .updated else .installed,
            .object (withEntries jsonFormat "hooks" "pre_read_code" settings hooks
              (parties.foreign entries ++ [windsurfEntry (explainCommand brickBin)]))) := by
  unfold windsurfInstall
  split
  · rfl
  · unfold ensureJsonHooksObject ensureEntries
    dsimp only
    cases (settings.lookup "hooks").getD (.object []) with
    | object hooks =>
        dsimp only
        unfold windsurfDesired
        change (replaceHook hooks _ >>= fun hooks => pure hooks) >>= _ = _
        unfold replaceHook
        dsimp only
        cases (hooks.lookup "pre_read_code").getD (.array []) <;> rfl
    | _ => rfl

theorem windsurfInstall_of_installable {brickBin : String} {force : Bool} {settings : KeyTable Json}
    (installable : Installable "pre_read_code" settings)
    (changes : ¬ (windsurfHasBrickHooks (.object settings) = true ∧ force = false ∧
      windsurfMatches (.object settings) brickBin = true)) :
    windsurfInstall brickBin force (.object settings) =
      .ok (if windsurfHasBrickHooks (.object settings) then .updated else .installed,
        .object (withHook brickBin settings)) := by
  rw [windsurfInstall_object, if_neg changes, ensureEntries_of_installable installable]
  rfl

theorem windsurfInstall_eq_ok {brickBin : String} {force : Bool} {content after : Json}
    {action : HookAction} (ok : windsurfInstall brickBin force content = .ok (action, after)) :
    (windsurfHasBrickHooks content = true ∧ force = false ∧
        windsurfMatches content brickBin = true ∧ after = content) ∨
      ∃ settings, content = .object settings ∧ Installable "pre_read_code" settings ∧
        after = .object (withHook brickBin settings) := by
  by_cases unchanged : windsurfHasBrickHooks content = true ∧ force = false ∧
      windsurfMatches content brickBin = true
  · unfold windsurfInstall at ok
    rw [if_pos unchanged] at ok
    cases ok
    exact Or.inl ⟨unchanged.1, unchanged.2.1, unchanged.2.2, rfl⟩
  · cases content with
    | object settings =>
        rw [windsurfInstall_object, if_neg unchanged] at ok
        obtain ⟨⟨hooks, entries⟩, ensured, written⟩ := Fallible.map_eq_ok_iff.mp ok
        obtain ⟨installable, rfl, rfl⟩ := ensureEntries_ok ensured
        cases written
        exact Or.inr ⟨settings, rfl, installable, rfl⟩
    | _ =>
        unfold windsurfInstall at ok
        rw [if_neg unchanged] at ok
        cases ok

theorem install_keeps {brickBin : String} {force : Bool} {content after : Json}
    {action : HookAction} (separated : Separated content)
    (ok : windsurfInstall brickBin force content = .ok (action, after)) :
    Separated after ∧ Frame parties (fun _ => True) (jsonView content) (jsonView after) := by
  rcases windsurfInstall_eq_ok ok with ⟨_, _, _, rfl⟩ | ⟨settings, rfl, installable, rfl⟩
  · exact ⟨separated, Frame.refl _⟩
  · constructor
    · refine ⟨fun event _ empty => ?_, fun _ _ hook _ => unmixed hook, fun empty => ?_⟩
      · by_cases same : event = "pre_read_code"
        · subst same
          have list : (jsonView (.object (withHook brickBin settings))).place "pre_read_code" = _ :=
            place_withEntries settings (listsOf jsonFormat "hooks" settings) _
          have none := list.symm.trans empty
          injection none with none
          exact absurd none (by simp)
        · refine separated.lists event trivial (Eq.trans ?_ empty)
          exact (place_withEntries_of_ne same settings _ _).symm
      · have filled : (jsonView (.object (withHook brickBin settings))).container = .filled :=
          container_withEntries _ _ _
        exact nomatch filled.symm.trans empty
    · refine frame_withEntries trivial installable.container installable.place ?_
      change (parties.usersPart (hooksOf settings)).Sublist _
      refine (usersPart_foreign_sublist _).trans ?_
      unfold Parties.usersPart
      rw [List.filterMap_append]
      exact List.sublist_append_left _ _

/-! ## What the calls lose -/

theorem isBrickHook_windsurfEntry {brickBin : String}
    (brick : isBrickCommand (explainCommand brickBin) = true) :
    isBrickHook (windsurfEntry (explainCommand brickBin)) = true := by
  have distinct : ["command", "show_output"].Nodup := by decide
  have command : (windsurfEntry (explainCommand brickBin)).get "command" =
      some (.string (explainCommand brickBin)) :=
    @Json.get_ofFields [("command", _), ("show_output", _)] distinct "command"
  unfold isBrickHook
  rw [command]
  exact brick

/-- An uninstall that takes a hook out drops a list that has no other. -/
theorem uninstall_drops {settings hooks : KeyTable Json} {event : String}
    (found : settings.lookup "hooks" = some (.object hooks)) (sorted : Json.Sorted hooks)
    (brick : windsurfHasBrickHooks (.object settings) = true)
    {entries : List Json} (shown : placeOf jsonFormat (hooks.lookup event) = .list entries)
    (none : parties.foreign entries = []) :
    (jsonView (windsurfUninstall (.object settings)).2).place event = .missing := by
  have gone : (leftHooks hooks).lookup event = Option.none := by
    cases here : hooks.lookup event with
    | none => exact lookup_leftHooks_of_none here
    | some value =>
        rw [here] at shown
        cases value with
        | array inside =>
            cases shown
            refine lookup_leftHooks_of_empty sorted here ?_
            rw [foreign_withoutBrick, none]
            rfl
        | _ => cases shown
  rcases windsurfUninstall_cases (.object settings) with ⟨noBrick, _⟩ | ⟨_, _, same, also, _, done⟩
  · exact nomatch noBrick.symm.trans brick
  · cases same
    rw [found] at also
    cases also
    rw [done]
    dsimp only
    split
    · exact place_remove settings event
    · refine (place_withLists settings _ event).trans ?_
      rw [gone]
      rfl

theorem hooks_of_list {settings : KeyTable Json} {event : String} {entries : List Json}
    (shown : (view jsonFormat "hooks" settings).place event = .list entries) :
    ∃ hooks, settings.lookup "hooks" = some (.object hooks) := by
  obtain ⟨hooks, found, _⟩ := place_eq_list shown
  obtain ⟨value, here, isTable⟩ := Option.bind_eq_some_iff.mp found
  cases value with
  | object inside => exact ⟨inside, here⟩
  | _ => cases isTable

def hooksWith (brickBin : String) (settings : KeyTable Json) : KeyTable Json :=
  Json.insertEntry "pre_read_code"
    (.array (parties.foreign (hooksOf settings) ++ [windsurfEntry (explainCommand brickBin)]))
    (listsOf jsonFormat "hooks" settings)

theorem lookup_withHook (brickBin : String) (settings : KeyTable Json) :
    (withHook brickBin settings).lookup "hooks" = some (.object (hooksWith brickBin settings)) :=
  Json.lookup_insertEntry_self _ _ _

theorem windsurfHasBrickHooks_withHook {brickBin : String}
    (brick : isBrickCommand (explainCommand brickBin) = true) (settings : KeyTable Json) :
    windsurfHasBrickHooks (.object (withHook brickBin settings)) = true := by
  have list : (hooksWith brickBin settings).lookup "pre_read_code" = _ :=
    Json.lookup_insertEntry_self _ _ _
  obtain ⟨front, back, whole, _⟩ := List.lookup_eq_some_iff.mp list
  rw [windsurfHasBrickHooks_eq (lookup_withHook brickBin settings), whole, List.any_append,
    List.any_cons]
  have mine : (hooksIn (.array (parties.foreign (hooksOf settings) ++
      [windsurfEntry (explainCommand brickBin)]))).any isBrickHook = true := by
    change (parties.foreign (hooksOf settings) ++ [_]).any isBrickHook = true
    rw [List.any_append, List.any_cons, isBrickHook_windsurfEntry brick, Bool.true_or, Bool.or_true]
  rw [mine, Bool.true_or, Bool.or_true]

theorem run_install {settings : KeyTable Json} (installable : Installable "pre_read_code" settings) :
    (HookCall.install "brick" true).run (.object settings) =
      .ok (.object (withHook "brick" settings)) := by
  have changes : ¬ (windsurfHasBrickHooks (.object settings) = true ∧ true = false ∧
      windsurfMatches (.object settings) "brick" = true) := fun unchanged => (nomatch unchanged.2.1)
  change (windsurfInstall "brick" true (.object settings)).map Prod.snd = _
  rw [windsurfInstall_of_installable installable changes]
  rfl

/-- Brick's hook comes and goes, and an empty list goes with it. -/
theorem install_uninstall {settings : KeyTable Json} (formed : Json.WellFormed (.object settings))
    (installable : Installable "pre_read_code" settings) {event : String}
    (empty : (view jsonFormat "hooks" settings).place event = .list []) :
    ∃ after, afterCalls (.object settings) [.install "brick" true, .uninstall] = .ok after ∧
      (jsonView after).place event = .missing := by
  obtain ⟨hooks, here⟩ := hooks_of_list empty
  have inside : listsOf jsonFormat "hooks" settings = hooks := by
    unfold listsOf
    rw [here]
    rfl
  have sorted : Json.Sorted (hooksWith "brick" settings) := by
    unfold hooksWith
    rw [inside]
    exact Json.sorted_insertEntry (formed.of_lookup here).sorted
  have drops {entries : List Json} := @uninstall_drops _ _ event (lookup_withHook "brick" settings)
    sorted (windsurfHasBrickHooks_withHook isBrickCommand_explainCommand settings) entries
  rw [place_of_hooks here] at empty
  refine ⟨(windsurfUninstall (.object (withHook "brick" settings))).2, ?_, ?_⟩
  · unfold afterCalls
    rw [List.foldlM_cons, run_install installable]
    rfl
  · by_cases same : event = "pre_read_code"
    · subst same
      have nothing : hooksOf settings = [] := by
        unfold hooksOf
        rw [place_of_hooks here, empty]
        rfl
      have mine := isBrickHook_windsurfEntry isBrickCommand_explainCommand
      refine @drops [windsurfEntry (explainCommand "brick")] ?_
        (List.filter_cons_of_neg (by simp [parties, mine]))
      unfold hooksWith
      rw [Json.lookup_insertEntry_self, nothing]
      rfl
    · refine @drops [] ?_ rfl
      unfold hooksWith
      rw [Json.lookup_insertEntry_of_ne same, inside]
      exact empty

/-- An empty container goes when Brick's hook does. -/
theorem install_uninstall_container {settings : KeyTable Json}
    (empty : (view jsonFormat "hooks" settings).container = .empty) :
    ∃ after, afterCalls (.object settings) [.install "brick" true, .uninstall] = .ok after ∧
      (jsonView after).container = .missing := by
  have nothing : listsOf jsonFormat "hooks" settings = [] := lists_of_empty empty
  have missing : (view jsonFormat "hooks" settings).place "pre_read_code" = .missing := by
    unfold view
    rw [nothing]
    rfl
  have installable : Installable "pre_read_code" settings :=
    ⟨fun value other => (nomatch empty.symm.trans other),
      fun value other => (nomatch missing.symm.trans other)⟩
  refine ⟨(windsurfUninstall (.object (withHook "brick" settings))).2, ?_, ?_⟩
  · unfold afterCalls
    rw [List.foldlM_cons, run_install installable]
    rfl
  · have mine := isBrickHook_windsurfEntry isBrickCommand_explainCommand
    have brick := windsurfHasBrickHooks_withHook isBrickCommand_explainCommand settings
    have left : leftHooks (hooksWith "brick" settings) = [] := by
      have noHooks : hooksOf settings = [] := congrArg Place.entries missing
      have gone : parties.foreign [windsurfEntry (explainCommand "brick")] = [] :=
        List.filter_cons_of_neg (by simp [parties, mine])
      have alone : hooksWith "brick" settings =
          [("pre_read_code", .array [windsurfEntry (explainCommand "brick")])] := by
        unfold hooksWith
        rw [nothing, noHooks]
        rfl
      rw [alone, leftHooks_cons, foreign_withoutBrick, gone]
      rfl
    rcases windsurfUninstall_cases (.object (withHook "brick" settings)) with
      ⟨noBrick, _⟩ | ⟨_, _, same, also, _, done⟩
    · exact nomatch noBrick.symm.trans brick
    · cases same
      rw [lookup_withHook] at also
      cases also
      rw [done, left]
      exact container_remove _

/-- Nothing is installed beside a `pre_read_code` that is no list, and there is nothing to take
out. -/
def Unreachable (content : Json) : Prop :=
  (∃ value, (jsonView content).place "pre_read_code" = .other value) ∧
    windsurfHasBrickHooks content = false

theorem call_of_unreachable {content after : Json} {call : HookCall}
    (unreachable : Unreachable content) (run : call.run content = .ok after) : after = content := by
  obtain ⟨⟨value, other⟩, noBrick⟩ := unreachable
  cases call with
  | install brickBin force =>
      obtain ⟨⟨action, new⟩, done, rfl⟩ := Fallible.map_eq_ok_iff.mp run
      rcases windsurfInstall_eq_ok done with ⟨_, _, _, same⟩ | ⟨settings, rfl, installable, _⟩
      · exact same
      · exact absurd other (installable.place value)
  | uninstall =>
      cases run
      rcases windsurfUninstall_cases content with ⟨_, same⟩ | ⟨_, _, _, _, brick, _⟩
      · rw [same]
      · exact nomatch noBrick.symm.trans brick

theorem run_of_unreachable {content after : Json} {calls : List HookCall}
    (unreachable : Unreachable content) (run : afterCalls content calls = .ok after) :
    after = content := by
  unfold afterCalls at run
  induction calls with
  | nil =>
      cases run
      rfl
  | cons call rest ih =>
      rw [List.foldlM_cons] at run
      obtain ⟨next, one, run⟩ := Fallible.bind_eq_ok_iff.mp run
      rw [call_of_unreachable unreachable one] at run
      exact ih run

/-- Every run of calls keeps what is the user's, exactly from the files without an empty list,
and from those that nothing can be installed in or taken out of. -/
theorem keeps_iff {content : Json} (formed : content.WellFormed) :
    (∀ calls after, afterCalls content calls = .ok after →
      Keeps parties (jsonView content) (jsonView after)) ↔
        Separated content ∨ Unreachable content := by
  constructor
  · intro keeps
    by_cases separated : Separated content
    · exact Or.inl separated
    · cases content with
      | object settings =>
          by_cases empty : (view jsonFormat "hooks" settings).container = .empty
          · obtain ⟨after, run, missing⟩ := install_uninstall_container empty
            rcases (keeps _ _ run).emptyContainer empty with still | filled
            · exact nomatch missing.symm.trans still
            · exact nomatch missing.symm.trans filled
          · obtain ⟨event, list⟩ : ∃ event,
                (view jsonFormat "hooks" settings).place event = .list [] := by
              by_contra none
              exact separated ⟨fun event _ list => none ⟨event, list⟩, fun _ _ hook _ => unmixed hook,
                empty⟩
            have lost (after : Json) (missing : (jsonView after).place event = .missing)
                (calls : List HookCall) : afterCalls (.object settings) calls ≠ .ok after := by
              intro run
              obtain ⟨entries, still⟩ := (keeps _ _ run).emptyList event list
              exact nomatch missing.symm.trans still
            by_cases inWay : ∃ value, (view jsonFormat "hooks" settings).place "pre_read_code" =
                .other value
            · refine Or.inr ⟨inWay, ?_⟩
              cases brick : windsurfHasBrickHooks (.object settings) with
              | false => rfl
              | true =>
                  obtain ⟨hooks, here⟩ := hooks_of_list list
                  have shown := list
                  rw [place_of_hooks here] at shown
                  have missing := uninstall_drops here (formed.of_lookup here).sorted brick shown rfl
                  exact absurd rfl (lost _ missing [.uninstall])
            · have installable : Installable "pre_read_code" settings :=
                ⟨container_of_list list, fun value other => inWay ⟨value, other⟩⟩
              obtain ⟨after, run, missing⟩ := install_uninstall formed installable list
              exact absurd run (lost after missing _)
      | _ => exact absurd ⟨fun _ _ => nofun, fun _ _ hook _ => unmixed hook, nofun⟩ separated
  · rintro (separated | unreachable) calls after run
    · have step (content : Json) (call : HookCall) (after : Json) (holds : Separated content)
          (run : call.run content = .ok after) :
          Separated after ∧ Frame parties (fun _ => True) (jsonView content) (jsonView after) := by
        cases call with
        | install brickBin force =>
            obtain ⟨⟨action, new⟩, done, rfl⟩ := Fallible.map_eq_ok_iff.mp run
            exact install_keeps holds done
        | uninstall =>
            cases run
            exact ⟨separated_uninstall holds, frame_uninstall content⟩
      exact (frame_of_run step separated run).keeps separated
    · rw [run_of_unreachable unreachable run]
      exact Keeps.refl _

end BrickTrace.WindsurfHook
