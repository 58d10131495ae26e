import BrickTrace.Lib.JsonValues
import BrickTrace.Lib.KeyedLists
import BrickTrace.Protocol.Text

/-!
# Hook files

Agents keep their hooks in settings under `hooks`, in one list for each event.  Brick installs
hooks of its own there, which are known by their command.
-/

set_option autoImplicit false

namespace BrickTrace.HookFiles

open KeyedLists SharedLists

/-- What an operation on a hook file did. -/
inductive HookAction where
  | installed
  | updated
  | unchanged
  | removed
  | absent
  | present

def explainMarker : String := "brick hook-explain"

def explainCommand (brickBin : String) : String := brickBin ++ " hook-explain"

def isBrickCommand (command : String) : Bool := containsText command explainMarker

/-- A phrase stands in a text that the rest of it is put after exactly when its first word ends
the text, or when it is in the text already. -/
theorem phrase_infix_iff {A : Type} {blank : A} {rest : List A} (word text : List A)
    (single : blank ∉ rest) : (word ++ blank :: rest) <:+: (text ++ blank :: rest) ↔
      word <:+ text ∨ (word ++ blank :: rest) <:+: text := by
  constructor
  · rintro ⟨front, back, whole⟩
    rw [List.append_assoc, List.append_assoc, ← List.append_assoc front, List.cons_append] at whole
    rcases List.append_eq_append_iff.mp whole with ⟨more, text_eq, rest_eq⟩ | ⟨more, front_eq, rest_eq⟩
    · cases more with
      | nil => exact Or.inl ⟨front, by simpa using text_eq.symm⟩
      | cons first more =>
          obtain ⟨rfl, tail_eq⟩ := List.cons.inj rest_eq
          -- the rest is in front of the last blank, as it has none
          rcases List.append_eq_append_iff.mp tail_eq with ⟨later, more_eq, _⟩ | ⟨later, rest_is, last⟩
          · exact Or.inr ⟨front, later, by rw [text_eq, more_eq]; simp⟩
          · cases later with
            | nil => exact Or.inr ⟨front, [], by rw [text_eq, rest_is]; simp⟩
            | cons second later =>
                obtain ⟨rfl, _⟩ := List.cons.inj last
                exact absurd (by rw [rest_is]; simp) single
    · cases more with
      | nil => exact Or.inl ⟨front, by simpa using front_eq⟩
      | cons first more =>
          obtain ⟨_, tail_eq⟩ := List.cons.inj rest_eq
          exact absurd (by rw [tail_eq]; simp) single
  · rintro (⟨front, rfl⟩ | ⟨front, back, rfl⟩)
    · exact ⟨front, [], by simp⟩
    · exact ⟨front, back ++ blank :: rest, by simp⟩

/-- A binary's hooks are known for Brick's exactly when its path ends in `brick`, or has the
whole marker in it. -/
theorem isBrickCommand_explainCommand_iff (brickBin : String) :
    isBrickCommand (explainCommand brickBin) = true ↔
      "brick".toList <:+ brickBin.toList ∨ isBrickCommand brickBin = true := by
  have marker : explainMarker.toList = "brick".toList ++ ' ' :: "hook-explain".toList := by
    decide +kernel
  have command : (explainCommand brickBin).toList =
      brickBin.toList ++ ' ' :: "hook-explain".toList := by
    have rest : " hook-explain".toList = ' ' :: "hook-explain".toList := by decide +kernel
    unfold explainCommand
    rw [String.toList_append, rest]
  have single : ' ' ∉ "hook-explain".toList := by decide +kernel
  unfold isBrickCommand containsText
  rw [decide_eq_true_iff, decide_eq_true_iff, command, marker]
  exact phrase_infix_iff _ _ single

theorem isBrickCommand_explainCommand : isBrickCommand (explainCommand "brick") = true :=
  (isBrickCommand_explainCommand_iff "brick").mpr (Or.inl List.suffix_rfl)

/-! ## What a manager of hooks is for -/

/-- Of the hooks under the events, one has the command. -/
def OneHook (commands : String → List String) (command : String) : Prop :=
  ∃ event, (commands event).count command = 1 ∧ ∀ other, other ≠ event → command ∉ commands other

def NoHook (commands : String → List String) (command : String) : Prop :=
  ∀ event, command ∉ commands event

theorem oneHook_iff {commands : String → List String} {command event : String}
    (member : command ∈ commands event) : OneHook commands command ↔
      (commands event).count command = 1 ∧ ∀ other, other ≠ event → command ∉ commands other := by
  constructor
  · rintro ⟨place, once, others⟩
    by_cases same : event = place
    · subst same
      exact ⟨once, others⟩
    · exact absurd member (others event same)
  · exact fun ⟨once, others⟩ => ⟨event, once, others⟩

structure Manager (State : Type) where
  install : String → Bool → State → Except String (HookAction × State)
  uninstall : State → Except String (HookAction × State)
  status : String → State → Except String HookAction
  commands : State → String → List String

/-- After an install a second one finds nothing to do, there is one hook with the command, and
the status says so; after an uninstall there is none, and the status says that. -/
def Manager.Cycle {State : Type} (manager : Manager State) (brickBin : String) (force : Bool)
    (content : State) : Prop :=
  ∃ action installed, manager.install brickBin force content = .ok (action, installed) ∧
    manager.install brickBin false installed = .ok (.unchanged, installed) ∧
    OneHook (manager.commands installed) (explainCommand brickBin) ∧
    manager.status brickBin installed = .ok .present ∧
    ∃ left, manager.uninstall installed = .ok (.removed, left) ∧
      NoHook (manager.commands left) (explainCommand brickBin) ∧
      manager.status brickBin left = .ok .absent

/-! ## Files in JSON -/

theorem insertEntry_ne_nil (key : String) (value : Json) (entries : KeyTable Json) :
    Json.insertEntry key value entries ≠ [] := by
  cases entries with
  | nil => exact List.cons_ne_nil _ _
  | cons first rest =>
      unfold Json.insertEntry
      split
      · exact List.cons_ne_nil _ _
      · split <;> exact List.cons_ne_nil _ _

def jsonFormat : Format Json Json where
  table := .object
  list := .array
  asTable value := match value with
    | .object entries => some entries
    | _ => none
  asList value := match value with
    | .array entries => some entries
    | _ => none
  insert := Json.insertEntry
  asTable_table _ := rfl
  asList_list _ := rfl
  insert_ne_nil := insertEntry_ne_nil
  lookup_insert_self := Json.lookup_insertEntry_self
  lookup_insert_of_ne _ _ := Json.lookup_insertEntry_of_ne

/-- A hook in JSON, by its command. -/
def isBrickHook (hook : Json) : Bool :=
  match hook.get "command" with
  | some (.string command) => isBrickCommand command
  | _ => false

def commandOf (hook : Json) : Option String :=
  match hook.get "command" with
  | some (.string command) => some command
  | _ => none

theorem isBrickHook_eq (hook : Json) : isBrickHook hook = (commandOf hook).any isBrickCommand := by
  unfold isBrickHook commandOf
  split <;> rfl

/-- The settings in a file; a value that is no object has none. -/
def settingsOf : Json → KeyTable Json
  | .object settings => settings
  | _ => []

def jsonView (content : Json) : View String Json Json :=
  view jsonFormat "hooks" (settingsOf content)

/-- The hooks and the entries of one event, each empty where there are none. -/
def ensureEntries (event notObject notArray : String) (settings : KeyTable Json) :
    Except String (KeyTable Json × List Json) :=
  match (settings.lookup "hooks").getD (.object []) with
  | .object hooks =>
      match (hooks.lookup event).getD (.array []) with
      | .array entries => .ok (hooks, entries)
      | _ => .error notArray
  | _ => .error notObject

/-- Neither the container nor the event has a value of another kind. -/
structure Installable (event : String) (settings : KeyTable Json) : Prop where
  container : ∀ value, (view jsonFormat "hooks" settings).container ≠ .other value
  place : ∀ value, (view jsonFormat "hooks" settings).place event ≠ .other value

theorem ensureEntries_of_installable {event notObject notArray : String} {settings : KeyTable Json}
    (installable : Installable event settings) :
    ensureEntries event notObject notArray settings = .ok (listsOf jsonFormat "hooks" settings,
      ((view jsonFormat "hooks" settings).place event).entries) := by
  unfold ensureEntries
  obtain ⟨container, place⟩ := installable
  unfold view listsOf at container place ⊢
  dsimp only at container place ⊢
  cases found : settings.lookup "hooks" with
  | none => rfl
  | some value =>
      rw [found] at container place
      cases value with
      | object hooks =>
          have inside : ((some (Json.object hooks)).bind jsonFormat.asTable).getD [] = hooks := rfl
          rw [inside] at place ⊢
          dsimp only [Option.getD_some]
          cases list : hooks.lookup event with
          | none => rfl
          | some value =>
              rw [list] at place
              cases value with
              | array entries => rfl
              | _ => exact absurd rfl (place _)
      | _ => exact absurd rfl (container _)

theorem ensureEntries_ok {event notObject notArray : String} {settings hooks : KeyTable Json}
    {entries : List Json}
    (ok : ensureEntries event notObject notArray settings = .ok (hooks, entries)) :
    Installable event settings ∧ hooks = listsOf jsonFormat "hooks" settings ∧
      entries = ((view jsonFormat "hooks" settings).place event).entries := by
  have installable : Installable event settings := by
    unfold ensureEntries at ok
    constructor
    · intro value other
      change containerOf jsonFormat (settings.lookup "hooks") = _ at other
      cases found : settings.lookup "hooks" with
      | none =>
          rw [found] at other
          cases other
      | some value =>
          rw [found] at other ok
          cases value with
          | object hooks => cases hooks <;> cases other
          | _ => cases ok
    · intro value other
      change placeOf jsonFormat ((listsOf jsonFormat "hooks" settings).lookup event) = _ at other
      unfold listsOf at other
      cases found : settings.lookup "hooks" with
      | none =>
          rw [found] at other
          cases other
      | some value =>
          rw [found] at other ok
          cases value with
          | object inside =>
              have same : ((some (Json.object inside)).bind jsonFormat.asTable).getD [] = inside := rfl
              rw [same] at other
              dsimp only [Option.getD_some] at ok
              cases list : inside.lookup event with
              | none =>
                  rw [list] at other
                  cases other
              | some value =>
                  rw [list] at other ok
                  cases value with
                  | array items => cases other
                  | _ => cases ok
          | _ => cases ok
  rw [ensureEntries_of_installable installable] at ok
  cases ok
  exact ⟨installable, rfl, rfl⟩

end BrickTrace.HookFiles
