import BrickTrace.Cli.HookCycles
import BrickTrace.Cli.McpConfig

/-!
# Codex's configuration, however it is written

A table of a TOML document is written with a header, with dotted keys or inline, and a list of
tables with headers or inline.  An install knows the forms with headers, and puts a new table or
list in the place of any other.
-/

set_option autoImplicit false

namespace BrickTrace.CodexConfig

open KeyedLists SharedLists HookFiles Toml
open McpConfig (serverName tomlInstall tomlServers tomlHasBrick tomlEntryMatches brickTomlTable)

/-! ## Servers -/

def serverOf (document : KeyTable Item) (name : String) : Option Toml.Value :=
  ((document.lookup "mcp_servers").map Item.plain).bind (Toml.Value.field name)

/-- The other servers have their values, and the other keys what is written for them; servers
that are no table are as they were. -/
structure ServersPreserved (before after : KeyTable Item) : Prop where
  keys : ∀ key, key ≠ "mcp_servers" → after.lookup key = before.lookup key
  value : ∀ item, before.lookup "mcp_servers" = some item → item.plain.isTable = false →
    after.lookup "mcp_servers" = some item
  servers : ∀ name, name ≠ serverName → serverOf after name = serverOf before name

/-- The forms of the servers that an install loses nothing of. -/
def ServersKept : Option Item → Prop
  | none => True
  | some (.table _) => True
  | some (.value (.inlineTable servers)) => ∀ name, name ≠ serverName → servers.lookup name = none
  | some _ => False

theorem serverOf_of_table {document servers : KeyTable Item}
    (found : document.lookup "mcp_servers" = some (.table servers)) (name : String) :
    serverOf document name = (servers.lookup name).map Item.plain := by
  unfold serverOf
  rw [found]
  exact lookup_plainEntries servers name

theorem tomlInstall_eq (brickBin : String) (force : Bool) (document : KeyTable Item) :
    (tomlInstall brickBin force document).2 = document ∧
        (∃ servers, document.lookup "mcp_servers" = some (.table servers)) ∨
      (tomlInstall brickBin force document).2 = Toml.insert "mcp_servers" (.table
        (Toml.insert serverName (.table (brickTomlTable brickBin))
          ((tomlServers document).getD []))) document := by
  unfold tomlInstall
  split
  · rename_i already
    refine Or.inl ⟨rfl, ?_⟩
    have has := already.1
    unfold tomlHasBrick at has
    cases isTable : tomlServers document with
    | none =>
        rw [isTable] at has
        cases has
    | some servers =>
        obtain ⟨item, here, asTable⟩ := Option.bind_eq_some_iff.mp isTable
        cases item with
        | table held =>
            cases asTable
            exact ⟨servers, here⟩
        | _ => cases asTable
  · exact Or.inr rfl

theorem serversPreserved_iff (brickBin : String) (force : Bool) (document : KeyTable Item) :
    ServersPreserved document (tomlInstall brickBin force document).2 ↔
      ServersKept (document.lookup "mcp_servers") := by
  rcases tomlInstall_eq brickBin force document with ⟨same, servers, found⟩ | written
  · rw [same, found]
    exact ⟨fun _ => trivial, fun _ => ⟨fun _ _ => rfl, fun _ here _ => here, fun _ _ => rfl⟩⟩
  · rw [written]
    have here := Toml.lookup_insert_self "mcp_servers" (.table
      (Toml.insert serverName (.table (brickTomlTable brickBin))
        ((tomlServers document).getD []))) document
    have keys (key : String) (other : key ≠ "mcp_servers") :=
      Toml.lookup_insert_of_ne (.table (Toml.insert serverName (.table (brickTomlTable brickBin))
        ((tomlServers document).getD []))) document other
    have servers (name : String) (other : name ≠ serverName) :
        serverOf (Toml.insert "mcp_servers" (.table
          (Toml.insert serverName (.table (brickTomlTable brickBin))
            ((tomlServers document).getD []))) document) name =
          (((tomlServers document).getD []).lookup name).map Item.plain := by
      rw [serverOf_of_table here, Toml.lookup_insert_of_ne _ _ other]
    constructor
    · intro preserved
      have same (name : String) (other : name ≠ serverName) :=
        (servers name other).symm.trans (preserved.servers name other)
      have value := preserved.value
      rw [here] at value
      unfold tomlServers serverOf at same
      cases found : document.lookup "mcp_servers" with
      | none => exact trivial
      | some item =>
          rw [found] at same value
          cases item with
          | table held => exact trivial
          | arrayOfTables tables => exact nomatch value _ rfl rfl
          | value held =>
              cases held with
              | inlineTable inline => exact fun name other => (same name other).symm
              | _ => exact nomatch value _ rfl rfl
    · intro kept
      refine ⟨keys, fun item found noTable => ?_, fun name other => ?_⟩
      · rw [found] at kept
        cases item with
        | table held => cases noTable
        | arrayOfTables tables => exact absurd kept id
        | value held =>
            cases held with
            | inlineTable inline => cases noTable
            | _ => exact absurd kept id
      · rw [servers name other]
        unfold tomlServers serverOf
        cases found : document.lookup "mcp_servers" with
        | none => rfl
        | some item =>
            rw [found] at kept
            cases item with
            | table held => exact (lookup_plainEntries held name).symm
            | arrayOfTables tables => exact absurd kept id
            | value held =>
                cases held with
                | inlineTable inline => exact (kept name other).symm
                | _ => exact absurd kept id

/-! ## Hooks -/

def eventOf (document : KeyTable Item) (event : String) : Option Toml.Value :=
  ((document.lookup "hooks").map Item.plain).bind (Toml.Value.field event)

def itemsAt (document : KeyTable Item) : List Toml.Value :=
  ((eventOf document "PreToolUse").map Toml.Value.items).getD []

def plainTable (entry : KeyTable Item) : Toml.Value := .inlineTable (plainEntries entry)

def hooksIn (entry : Toml.Value) : List Toml.Value :=
  ((entry.field "hooks").map Toml.Value.items).getD []

def withHooksIn (entry : Toml.Value) (hooks : List Toml.Value) : Toml.Value :=
  match entry with
  | .inlineTable fields => .inlineTable (fields.map fun field =>
      if field.1 = "hooks" then (field.1, .array hooks) else field)
  | other => other

/-- A hook that is known for Brick's, or that has the command an install writes. -/
def isBinarysHook (brickBin : String) (hook : Toml.Value) : Bool :=
  ((hook.field "command").bind Toml.Value.asStr).any fun command =>
    isBrickCommand command || command == explainCommand brickBin

/-- Which entries have hooks that an install is about, and what is left of one without those. -/
def entryParties (brickBin : String) : Parties Toml.Value :=
  Parties.ofParts hooksIn withHooksIn (isBinarysHook brickBin)

/-- The other keys have what is written for them, the other events and the other hooks their
values; hooks that are no table, and a list that is none, are as they were. -/
structure HooksPreserved (brickBin : String) (before after : KeyTable Item) : Prop where
  keys : ∀ key, key ≠ "hooks" → after.lookup key = before.lookup key
  value : ∀ item, before.lookup "hooks" = some item → item.plain.isTable = false →
    after.lookup "hooks" = some item
  events : ∀ event, event ≠ "PreToolUse" → eventOf after event = eventOf before event
  event : ∀ value, eventOf before "PreToolUse" = some value → value.isArray = false →
    eventOf after "PreToolUse" = some value
  entries : (entryParties brickBin).usersPart (itemsAt after) =
    (entryParties brickBin).usersPart (itemsAt before)

/-- The forms of the list that an install loses nothing of: with headers, where no entry that is
known for Brick's has another hook; inline, where nothing in it is another's. -/
def ListKept (brickBin : String) : Option Item → Prop
  | none => True
  | some (.arrayOfTables entries) => ∀ entry ∈ entries, CodexHook.codexEntryIsBrick entry = true →
      (entryParties brickBin).users (plainTable entry) = none
  | some (.value (.array entries)) => (entryParties brickBin).usersPart entries = []
  | some _ => False

def HooksKept (brickBin : String) : Option Item → Prop
  | none => True
  | some (.table hooks) => ListKept brickBin (hooks.lookup "PreToolUse")
  | some (.value (.inlineTable hooks)) =>
      (∀ event, event ≠ "PreToolUse" → hooks.lookup event = none) ∧
        ListKept brickBin ((hooks.lookup "PreToolUse").map Item.value)
  | some _ => False

theorem eventOf_of_table {document hooks : KeyTable Item}
    (found : document.lookup "hooks" = some (.table hooks)) (event : String) :
    eventOf document event = (hooks.lookup event).map Item.plain := by
  unfold eventOf
  rw [found]
  exact lookup_plainEntries hooks event

theorem users_codexDesired {brickBin : String} {entry : KeyTable Item}
    (member : entry ∈ CodexHook.codexDesired brickBin) :
    (entryParties brickBin).users (plainTable entry) = none := by
  rw [List.mem_singleton.mp member]
  refine Parties.unmixed_of_single rfl ?_
  change ((isBrickCommand (explainCommand brickBin) ||
    explainCommand brickBin == explainCommand brickBin) || false) = true
  rw [beq_self_eq_true, Bool.or_true, Bool.true_or]

/-- What an install leaves of the others' in the list. -/
theorem usersPart_installed (brickBin : String) (entries : List (KeyTable Item)) :
    (entryParties brickBin).usersPart
        (plainTables (CodexHook.parties.foreign entries ++ CodexHook.codexDesired brickBin)) =
      (CodexHook.parties.foreign entries).filterMap fun entry =>
        (entryParties brickBin).users (plainTable entry) := by
  unfold Parties.usersPart
  rw [plainTables_eq_map, List.filterMap_map, List.filterMap_append]
  have none : (CodexHook.codexDesired brickBin).filterMap
      ((entryParties brickBin).users ∘ fun entry => plainTable entry) = [] :=
    List.filterMap_eq_nil_iff.mpr fun entry member => users_codexDesired member
  exact (congrArg _ none).trans (List.append_nil _)

theorem lookup_withHook (brickBin : String) (document : KeyTable Item) :
    (CodexHook.withHook brickBin document).lookup "hooks" = some (.table
      (Toml.insert "PreToolUse" (.arrayOfTables (CodexHook.parties.foreign
        (CodexHook.entriesOf document) ++ CodexHook.codexDesired brickBin))
          (listsOf Toml.format "hooks" document))) :=
  Toml.lookup_insert_self _ _ _

theorem eventOf_withHook_of_ne {event : String} (other : event ≠ "PreToolUse") (brickBin : String)
    (document : KeyTable Item) : eventOf (CodexHook.withHook brickBin document) event =
      ((listsOf Toml.format "hooks" document).lookup event).map Item.plain := by
  rw [eventOf_of_table (lookup_withHook brickBin document), Toml.lookup_insert_of_ne _ _ other]

theorem eventOf_withHook (brickBin : String) (document : KeyTable Item) :
    eventOf (CodexHook.withHook brickBin document) "PreToolUse" = some (.array (plainTables
      (CodexHook.parties.foreign (CodexHook.entriesOf document) ++
        CodexHook.codexDesired brickBin))) := by
  rw [eventOf_of_table (lookup_withHook brickBin document), Toml.lookup_insert_self]
  rfl

theorem usersPart_withHook (brickBin : String) (document : KeyTable Item) :
    (entryParties brickBin).usersPart (itemsAt (CodexHook.withHook brickBin document)) =
      (CodexHook.parties.foreign (CodexHook.entriesOf document)).filterMap fun entry =>
        (entryParties brickBin).users (plainTable entry) := by
  unfold itemsAt
  rw [eventOf_withHook]
  exact usersPart_installed brickBin _

/-- What an install does to a list that is written as an item under the event. -/
theorem listKept_iff (brickBin : String) {place : Option Item} {entries : List (KeyTable Item)}
    (shown : (placeOf Toml.format place).entries = entries) :
    ((∀ value, place.map Item.plain = some value → value.isArray = false → False) ∧
      (CodexHook.parties.foreign entries).filterMap
          (fun entry => (entryParties brickBin).users (plainTable entry)) =
        (entryParties brickBin).usersPart (((place.map Item.plain).map Toml.Value.items).getD [])) ↔
      ListKept brickBin place := by
  cases place with
  | none =>
      cases shown
      exact ⟨fun _ => trivial, fun _ => ⟨fun _ => nofun, rfl⟩⟩
  | some item =>
      cases item with
      | table held => exact ⟨fun both => both.1 _ rfl rfl, fun kept => absurd kept id⟩
      | arrayOfTables tables =>
          cases shown
          have part : (entryParties brickBin).usersPart
              ((((some (Item.arrayOfTables tables)).map Item.plain).map Toml.Value.items).getD []) =
                tables.filterMap fun entry => (entryParties brickBin).users (plainTable entry) := by
            change List.filterMap _ (plainTables tables) = _
            rw [plainTables_eq_map, List.filterMap_map]
            rfl
          rw [part]
          change (_ ∧ List.filterMap _ (tables.filter fun entry =>
            !CodexHook.codexEntryIsBrick entry) = _) ↔ _
          rw [filterMap_filter_eq_iff]
          constructor
          · intro both entry member brick
            exact both.2 entry member (by rw [brick]; rfl)
          · intro kept
            refine ⟨fun value isValue noArray => ?_, fun entry member foreign => ?_⟩
            · cases isValue
              cases noArray
            · exact kept entry member (by simpa using foreign)
      | value held =>
          cases held with
          | array values =>
              cases shown
              constructor
              · exact fun both => both.2.symm
              · intro kept
                refine ⟨fun value isValue noArray => ?_, kept.symm⟩
                cases isValue
                cases noArray
          | _ => exact ⟨fun both => both.1 _ rfl rfl, fun kept => absurd kept id⟩

theorem keys_withHook (brickBin : String) (document : KeyTable Item) (key : String)
    (other : key ≠ "hooks") :
    (CodexHook.withHook brickBin document).lookup key = document.lookup key :=
  Toml.lookup_insert_of_ne _ document other

/-- An install that writes anything, from hooks that are a table in some form. -/
theorem preserved_withHook_iff {brickBin : String} {document : KeyTable Item} {place : Option Item}
    {item : Item} (found : document.lookup "hooks" = some item) (isTable : item.plain.isTable = true)
    (shown : (placeOf Toml.format place).entries = CodexHook.entriesOf document)
    (event : eventOf document "PreToolUse" = place.map Item.plain) :
    HooksPreserved brickBin document (CodexHook.withHook brickBin document) ↔
      (∀ event, event ≠ "PreToolUse" →
        ((listsOf Toml.format "hooks" document).lookup event).map Item.plain =
          eventOf document event) ∧ ListKept brickBin place := by
  rw [← listKept_iff brickBin shown]
  have items : itemsAt document = ((place.map Item.plain).map Toml.Value.items).getD [] := by
    unfold itemsAt
    rw [event]
  constructor
  · intro preserved
    refine ⟨fun event other => ?_, fun value isValue noArray => ?_, ?_⟩
    · rw [← eventOf_withHook_of_ne other brickBin]
      exact preserved.events event other
    · have still := preserved.event value (event.trans isValue) noArray
      rw [eventOf_withHook] at still
      cases still
      cases noArray
    · rw [← usersPart_withHook, ← items]
      exact preserved.entries
  · rintro ⟨events, isArray, entries⟩
    refine ⟨keys_withHook brickBin document, fun other here noTable => ?_, fun event other => ?_,
      fun value isValue noArray => ?_, ?_⟩
    · cases found.symm.trans here
      exact nomatch isTable.symm.trans noTable
    · rw [eventOf_withHook_of_ne other]
      exact events event other
    · exact (isArray value (event.symm.trans isValue) noArray).elim
    · rw [usersPart_withHook, items]
      exact entries

theorem hooksPreserved_withHook_iff (brickBin : String) (document : KeyTable Item) :
    HooksPreserved brickBin document (CodexHook.withHook brickBin document) ↔
      HooksKept brickBin (document.lookup "hooks") := by
  have entriesOf_eq (lists : KeyTable Item) (isLists : listsOf Toml.format "hooks" document = lists) :
      (placeOf Toml.format (lists.lookup "PreToolUse")).entries = CodexHook.entriesOf document := by
    unfold CodexHook.entriesOf CodexHook.codexView view
    rw [isLists]
  cases found : document.lookup "hooks" with
  | none =>
      have noLists : listsOf Toml.format "hooks" document = [] := by
        unfold listsOf
        rw [found]
        rfl
      have nothing (event : String) : eventOf document event = none := by
        unfold eventOf
        rw [found]
        rfl
      refine ⟨fun _ => trivial, fun _ => ⟨keys_withHook brickBin document,
        fun item here _ => ?_, fun event other => ?_, fun value here _ => ?_, ?_⟩⟩
      · exact nomatch found.symm.trans here
      · rw [eventOf_withHook_of_ne other, noLists, nothing]
        rfl
      · exact nomatch (nothing "PreToolUse").symm.trans here
      · rw [usersPart_withHook, ← entriesOf_eq [] noLists]
        unfold itemsAt
        rw [nothing]
        rfl
  | some item =>
      have replaced (noTable : item.plain.isTable = false) :
          ¬ HooksPreserved brickBin document (CodexHook.withHook brickBin document) := by
        intro preserved
        have still := preserved.value item found noTable
        rw [lookup_withHook] at still
        cases still
        cases noTable
      cases item with
      | table hooks =>
          have lists : listsOf Toml.format "hooks" document = hooks := by
            unfold listsOf
            rw [found]
            rfl
          rw [preserved_withHook_iff found rfl (entriesOf_eq hooks lists)
            (eventOf_of_table found "PreToolUse"), lists]
          exact ⟨fun both => both.2, fun kept => ⟨fun event _ => (eventOf_of_table found event).symm,
            kept⟩⟩
      | arrayOfTables tables => exact ⟨fun kept => replaced rfl kept, fun kept => absurd kept id⟩
      | value held =>
          cases held with
          | inlineTable hooks =>
              have lists : listsOf Toml.format "hooks" document = [] := by
                unfold listsOf
                rw [found]
                rfl
              have events (event : String) : eventOf document event = hooks.lookup event := by
                unfold eventOf
                rw [found]
                rfl
              have none : CodexHook.entriesOf document = [] := (entriesOf_eq [] lists).symm
              have noItems : (placeOf Toml.format
                  ((hooks.lookup "PreToolUse").map Item.value)).entries = [] := by
                cases hooks.lookup "PreToolUse" <;> rfl
              have plain : eventOf document "PreToolUse" =
                  ((hooks.lookup "PreToolUse").map Item.value).map Item.plain := by
                rw [events, Option.map_map]
                exact Option.map_id'.symm
              rw [preserved_withHook_iff found rfl (noItems.trans none.symm) plain, lists]
              simp only [events]
              exact ⟨fun both => ⟨fun event other => (both.1 event other).symm, both.2⟩,
                fun both => ⟨fun event other => (both.1 event other).symm, both.2⟩⟩
          | _ => exact ⟨fun kept => replaced rfl kept, fun kept => absurd kept id⟩

theorem hooksPreserved_iff (brickBin : String) (force : Bool) (document : KeyTable Item) :
    (∃ action after, CodexHook.codexInstall brickBin force document = .ok (action, after) ∧
      HooksPreserved brickBin document after) ↔
        CodexHook.AlreadyInstalled brickBin force document ∨
          HooksKept brickBin (document.lookup "hooks") := by
  by_cases already : CodexHook.AlreadyInstalled brickBin force document
  · exact ⟨fun _ => Or.inl already, fun _ => ⟨.unchanged, document,
      CodexHook.install_unchanged_iff.mpr already,
      fun _ _ => rfl, fun _ here _ => here, fun _ _ => rfl, fun _ here _ => here, rfl⟩⟩
  · have done := CodexHook.codexInstall_eq already
    rw [← hooksPreserved_withHook_iff]
    constructor
    · rintro ⟨action, after, ok, preserved⟩
      cases done.symm.trans ok
      exact Or.inr preserved
    · rintro (not | preserved)
      · exact absurd not already
      · exact ⟨_, _, done, preserved⟩

/-! ## Both installs -/

/-- What is not Brick's is preserved exactly from these forms of the servers and of the hooks. -/
theorem installs_preserve_iff (brickBin : String) (force : Bool) (document : KeyTable Item) :
    (ServersPreserved document (tomlInstall brickBin force document).2 ↔
      ServersKept (document.lookup "mcp_servers")) ∧
    ((∃ action after, CodexHook.codexInstall brickBin force document = .ok (action, after) ∧
      HooksPreserved brickBin document after) ↔
        CodexHook.AlreadyInstalled brickBin force document ∨
          HooksKept brickBin (document.lookup "hooks")) :=
  ⟨serversPreserved_iff brickBin force document, hooksPreserved_iff brickBin force document⟩

/-- `mcp_servers = { other = { command = "serve" } }` -/
def inlineServers : KeyTable Item :=
  [("mcp_servers", .value (.inlineTable [("other",
    .inlineTable [("command", .string "serve")])]))]

/-- `hooks = { PostToolUse = [] }` -/
def inlineEvents : KeyTable Item :=
  [("hooks", .value (.inlineTable [("PostToolUse", .array [])]))]

theorem inline_forms_replaced :
    ¬ ServersPreserved inlineServers (tomlInstall "brick" false inlineServers).2 ∧
    ∃ action after, CodexHook.codexInstall "brick" false inlineEvents = .ok (action, after) ∧
      ¬ HooksPreserved "brick" inlineEvents after := by
  constructor
  · intro preserved
    have lost := preserved.servers "other" (by decide)
    exact nomatch lost
  · have changes : ¬ (CodexHook.codexHasBrickHooks inlineEvents = true ∧ false = false ∧
        CodexHook.codexMatches inlineEvents "brick" = true) := fun already => nomatch already.1
    refine ⟨_, _, CodexHook.codexInstall_eq changes, fun preserved => ?_⟩
    have lost := preserved.events "PostToolUse" (by decide)
    rw [eventOf_withHook_of_ne (by decide)] at lost
    exact nomatch lost

end BrickTrace.CodexConfig
