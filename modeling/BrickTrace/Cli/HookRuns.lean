import BrickTrace.Cli.ClaudeHook
import BrickTrace.Cli.CodexHook
import BrickTrace.Cli.WindsurfHook

/-!
# Runs of hook calls

From which files a run of installs and uninstalls keeps what is the user's, for each of the
agents that Brick has hooks for.
-/

set_option autoImplicit false

namespace BrickTrace.HookRuns

open KeyedLists SharedLists HookFiles

/-- One list, with a hook of the user's. -/
def oneHook : Json :=
  .object [("hooks", .object [("pre_read_code",
    .array [.object [("command", .string "echo reading")]])])]

theorem oneHook_separated : WindsurfHook.Separated oneHook := by
  refine ⟨fun event _ empty => ?_, fun _ _ hook _ => WindsurfHook.unmixed hook, nofun⟩
  change placeOf jsonFormat (List.lookup event [("pre_read_code", _)]) = _ at empty
  rw [List.lookup_cons] at empty
  cases same : event == "pre_read_code" with
  | true =>
      rw [same] at empty
      cases empty
  | false =>
      rw [same] at empty
      cases empty

theorem oneHook_wellFormed : oneHook.WellFormed := by
  have hook : Json.WellFormed (.object [("command", .string "echo reading")]) := by
    refine .object _ (List.pairwise_singleton _ _) fun entry member => ?_
    rw [List.mem_singleton.mp member]
    exact .string _
  refine .object _ (List.pairwise_singleton _ _) fun entry member => ?_
  rw [List.mem_singleton.mp member]
  refine .object _ (List.pairwise_singleton _ _) fun entry member => ?_
  rw [List.mem_singleton.mp member]
  refine .array _ fun item member => ?_
  rw [List.mem_singleton.mp member]
  exact hook

/-- An entry with a hook of each party. -/
def sharedEntry : Json :=
  .object [("hooks", .array [.object [("command", .string "brick hook-explain")],
    .object [("command", .string "echo user")]]), ("matcher", .string "Read")]

def sharedSettings : KeyTable Json :=
  [("hooks", .object [("PreToolUse", .array [sharedEntry])])]

def inlineHooks : KeyTable Toml.Item :=
  [("hooks", .value (.inlineTable [("PostToolUse", .array [])]))]

end BrickTrace.HookRuns
