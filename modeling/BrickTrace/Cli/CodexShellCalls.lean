import BrickTrace.Cli.CodexTranscripts
import BrickTrace.Core.CodexPatches

/-!
# The commands of Codex shell calls

A shell call is read twice: its command is scanned for the files that the session touched, and
its arguments are put into a chunk.  The two readers look for the command in different places
and take different values for one.
-/

set_option autoImplicit false

namespace BrickTrace.Codex

open Composer (textAt)

section Commands
variable (parseJson : String → Option Json)

/-- The command that `collect_shell_edits` scans: a text or a list of arguments, in the
arguments of the call or right in its payload. -/
def scannedCommand (payload : Json) : Option String :=
  if (textAt "name" payload).getD "" ∈ ["shell", "exec_command", "local_shell"] then
    let arguments := (textAt "arguments" payload).bind parseJson
    match (arguments.bind (·.get "command")).or (payload.get "command") with
    | some (.string text) => some text
    | some (.array parts) => some (" ".intercalate (parts.filterMap Json.decodeString))
    | _ => none
  else none

def collectShellEdits (payload : Json) (impact : PatchImpact) : PatchImpact :=
  match scannedCommand parseJson payload with
  | some command =>
      { impact with
        touchedFiles := (shellEditTargets command).foldl (fun files file => files.insert file)
          impact.touchedFiles }
  | none => impact

/-- The command that the chunk of a call holds. -/
def storedCommand (payload : Json) (createdAt : String) : Option String :=
  (pendingToolCallFromPayload parseJson payload createdAt).bind fun call =>
    textAt "command" call.args

/-- A shell call is stored with the command that was scanned, and every file that the scan
credits to the call is one of the stored command. -/
structure CommandsAgree (payload : Json) (createdAt : String) : Prop where
  stored : ∀ call, pendingToolCallFromPayload parseJson payload createdAt = some call →
    textAt "command" call.args = some ((scannedCommand parseJson payload).getD "")
  credited : ∀ file, file ∈ (collectShellEdits parseJson payload .empty).touchedFiles →
    ∃ command, storedCommand parseJson payload createdAt = some command ∧
      file ∈ shellEditTargets command

/-! ## Where the command stands -/

/-- The arguments of a call as JSON, unless there are none. -/
def argumentsOf (payload : Json) : Option Json :=
  (textAt "arguments" payload).bind fun raw => if trim raw = "" then none else parseJson raw

/-- A text, or a list of arguments with blanks between them. -/
def commandText : Option Json → String
  | some (.string text) => text
  | some (.array parts) => " ".intercalate (parts.filterMap Json.decodeString)
  | _ => ""

/-- The command as it is given, in the arguments or else right in the payload. -/
def givenCommand (payload : Json) : String :=
  commandText (((argumentsOf parseJson payload).bind (·.get "command")).or (payload.get "command"))

/-- What the arguments give as `cmd`. -/
def cmdText (payload : Json) : String := ((argumentsOf parseJson payload).bind (textAt "cmd")).getD ""

/-- The arguments give the command as a text, or the given command is the text of `cmd`. -/
def CommandInPlace (payload : Json) : Prop :=
  ((argumentsOf parseJson payload).bind (textAt "command")).isSome = true ∨
    givenCommand parseJson payload = cmdText parseJson payload

/-! ## The two readers -/

section Readers
variable {parseJson} (rejectsBlank : ∀ raw, trim raw = "" → parseJson raw = none)

include rejectsBlank in
theorem getD_scannedCommand {payload : Json} (isShell : textAt "name" payload = some "shell") :
    (scannedCommand parseJson payload).getD "" = givenCommand parseJson payload := by
  have arguments : argumentsOf parseJson payload = (textAt "arguments" payload).bind parseJson := by
    unfold argumentsOf
    congr 1
    funext raw
    split
    · rename_i isBlank
      exact (rejectsBlank raw isBlank).symm
    · rfl
  unfold scannedCommand givenCommand
  rw [isShell, Option.getD_some, if_pos List.mem_cons_self, arguments]
  dsimp only
  generalize (((textAt "arguments" payload).bind parseJson).bind (·.get "command")).or
    (payload.get "command") = value
  unfold commandText
  split <;> rfl

/-- The arguments that a chunk is made from hold what the arguments of the call do. -/
theorem textAt_parsed {key : String} (notInput : key ≠ "input") (payload : Json) :
    textAt key (((textAt "arguments" payload).map (parseInnerJson parseJson)).getD (.object [])) =
      (argumentsOf parseJson payload).bind (textAt key) := by
  unfold argumentsOf
  cases textAt "arguments" payload with
  | none => rfl
  | some raw =>
      rw [Option.map_some, Option.getD_some, Option.bind_some]
      unfold parseInnerJson
      split
      · rfl
      · cases parseJson raw with
        | none =>
            have absent : (key == "input") = false := beq_false_of_ne notInput
            simp [textAt, Json.get, List.lookup_cons, absent]
        | some value => rfl

/-- The command that is stored: the text of `command`, or else that of `cmd`. -/
theorem pendingToolCall_of_shell {payload : Json} {callId : String} (createdAt : String)
    (isShell : textAt "name" payload = some "shell")
    (isCall : textAt "call_id" payload = some callId) :
    ∃ call, pendingToolCallFromPayload parseJson payload createdAt = some call ∧
      textAt "command" call.args = some (((argumentsOf parseJson payload).bind
        (textAt "command")).getD (cmdText parseJson payload)) := by
  let arguments := ((textAt "arguments" payload).map (parseInnerJson parseJson)).getD (.object [])
  refine ⟨⟨callId, "shell", functionRunCommandLine, normalizeShellArgs arguments, createdAt⟩,
    ?_, ?_⟩
  · unfold pendingToolCallFromPayload
    rw [isCall, isShell]
    rfl
  · have stored : textAt "command" (normalizeShellArgs arguments) =
        some (((textAt "command" arguments).or (textAt "cmd" arguments)).getD "") := rfl
    rw [stored, textAt_parsed (by decide), textAt_parsed (by decide)]
    unfold cmdText
    cases (argumentsOf parseJson payload).bind (textAt "command") <;> rfl

theorem pendingToolCall_eq_none (parseJson : String → Option Json) {payload : Json} (createdAt : String)
    (noCall : textAt "call_id" payload = none) :
    pendingToolCallFromPayload parseJson payload createdAt = none := by
  unfold pendingToolCallFromPayload
  rw [noCall]
  rfl

theorem mem_foldl_insert_file (files : List String) (held : OrderedMap.KeySet String) (file : String) :
    file ∈ files.foldl (fun held file => held.insert file) held ↔ file ∈ files ∨ file ∈ held := by
  induction files generalizing held with
  | nil => simp
  | cons first rest ih =>
      rw [List.foldl_cons, ih, Std.ExtTreeSet.mem_insert, Std.compare_eq_iff_eq, List.mem_cons]
      tauto

/-- The files that the scan credits to a call are those of the command that was scanned. -/
theorem mem_collectShellEdits (payload : Json) (file : String) :
    file ∈ (collectShellEdits parseJson payload .empty).touchedFiles ↔
      ∃ command, scannedCommand parseJson payload = some command ∧
        file ∈ shellEditTargets command := by
  unfold collectShellEdits
  cases scannedCommand parseJson payload with
  | none => simp [PatchImpact.empty]
  | some command =>
      rw [mem_foldl_insert_file]
      simp [PatchImpact.empty]

theorem shellEditTargets_empty : shellEditTargets "" = [] := by
  decide +kernel

/-- A command that the arguments give as a text is the given one. -/
theorem givenCommand_of_text {payload : Json} {text : String}
    (isText : (argumentsOf parseJson payload).bind (textAt "command") = some text) :
    givenCommand parseJson payload = text := by
  obtain ⟨arguments, isArguments, atCommand⟩ := Option.bind_eq_some_iff.mp isText
  obtain ⟨value, isValue, decoded⟩ := Option.bind_eq_some_iff.mp atCommand
  unfold givenCommand
  rw [isArguments, Option.bind_some, isValue, Option.some_or]
  cases value with
  | string held =>
      cases decoded
      rfl
  | null => cases decoded
  | bool flag => cases decoded
  | number number => cases decoded
  | array items => cases decoded
  | object entries => cases decoded

end Readers

/-- The two readers agree on a shell call exactly if the command is given as a text in its
arguments or the given one is the text of `cmd`; a call without an id, which has no chunk, must
write no file. -/
theorem commandsAgree_iff (rejectsBlank : ∀ raw, trim raw = "" → parseJson raw = none)
    {payload : Json} (createdAt : String) (isShell : textAt "name" payload = some "shell") :
    CommandsAgree parseJson payload createdAt ↔
      (∀ callId, textAt "call_id" payload = some callId → CommandInPlace parseJson payload) ∧
        (textAt "call_id" payload = none →
          shellEditTargets (givenCommand parseJson payload) = []) := by
  have scanned := getD_scannedCommand rejectsBlank isShell
  constructor
  · intro agree
    constructor
    · intro callId isCall
      obtain ⟨call, made, stored⟩ := pendingToolCall_of_shell createdAt isShell isCall
      have same := agree.stored call made
      rw [stored, scanned, Option.some.injEq] at same
      cases isText : (argumentsOf parseJson payload).bind (textAt "command") with
      | some text =>
          left
          rw [isText]
          rfl
      | none =>
          right
          rw [isText] at same
          exact same.symm
    · intro noCall
      have noChunk := pendingToolCall_eq_none parseJson createdAt noCall
      refine List.eq_nil_iff_forall_not_mem.mpr fun file target => ?_
      cases isScanned : scannedCommand parseJson payload with
      | none =>
          rw [← scanned, isScanned, Option.getD_none, shellEditTargets_empty] at target
          cases target
      | some command =>
          rw [← scanned, isScanned, Option.getD_some] at target
          obtain ⟨other, isStored, _⟩ :=
            agree.credited file ((mem_collectShellEdits payload file).mpr ⟨command, isScanned, target⟩)
          rw [storedCommand, noChunk] at isStored
          cases isStored
  · rintro ⟨inPlace, writesNothing⟩
    have stored : ∀ call, pendingToolCallFromPayload parseJson payload createdAt = some call →
        textAt "command" call.args = some (givenCommand parseJson payload) := by
      intro call made
      cases isCall : textAt "call_id" payload with
      | none =>
          rw [pendingToolCall_eq_none parseJson createdAt isCall] at made
          cases made
      | some callId =>
          obtain ⟨other, isMade, isStored⟩ := pendingToolCall_of_shell createdAt isShell isCall
          rw [made] at isMade
          cases isMade
          rw [isStored]
          cases isText : (argumentsOf parseJson payload).bind (textAt "command") with
          | some text => rw [givenCommand_of_text isText, Option.getD_some]
          | none =>
              rcases inPlace callId isCall with given | same
              · rw [isText] at given
                cases given
              · rw [same, Option.getD_none]
    refine ⟨fun call made => by rw [scanned]; exact stored call made, fun file credited => ?_⟩
    obtain ⟨command, isScanned, target⟩ := (mem_collectShellEdits payload file).mp credited
    rw [isScanned, Option.getD_some] at scanned
    cases isCall : textAt "call_id" payload with
    | none =>
        rw [scanned, writesNothing isCall] at target
        cases target
    | some callId =>
        obtain ⟨call, made, _⟩ := pendingToolCall_of_shell createdAt isShell isCall
        refine ⟨command, ?_, target⟩
        rw [storedCommand, made, Option.bind_some, stored call made, scanned]

end Commands

/-- A call as the tests of the provider make it. -/
theorem text_command_agrees :
    let arguments := "\x7b\"command\":\"cargo test > log.txt\"\x7d"
    let parseJson := fun raw => if raw = arguments then
      some (Json.object [("command", .string "cargo test > log.txt")]) else none
    CommandsAgree parseJson (.object [("arguments", .string arguments), ("call_id", .string "call-1"),
      ("name", .string "shell"), ("type", .string "function_call")]) "" := by
  intro arguments parseJson
  refine (commandsAgree_iff parseJson ?_ "" rfl).mpr ⟨fun _ _ => Or.inl ?_, fun noCall => ?_⟩
  · intro raw isBlank
    have notArguments : raw ≠ arguments := by
      rintro rfl
      exact absurd isBlank (by decide +kernel)
    exact if_neg notArguments
  · decide +kernel
  · cases noCall

/-- A list of arguments is scanned, and an empty command is stored. -/
theorem argv_command_lost :
    let arguments := "\x7b\"command\":[\"bash\",\"-lc\",\"echo x > out.txt\"]\x7d"
    let parseJson := fun raw => if raw = arguments then
      some (Json.object [("command", .array [.string "bash", .string "-lc",
        .string "echo x > out.txt"])]) else none
    let payload := Json.object [("arguments", .string arguments), ("call_id", .string "call-1"),
      ("name", .string "shell"), ("type", .string "function_call")]
    storedCommand parseJson payload "" = some "" ∧
      "out.txt" ∈ (collectShellEdits parseJson payload .empty).touchedFiles ∧
      ¬CommandsAgree parseJson payload "" := by
  intro arguments parseJson payload
  have stored : storedCommand parseJson payload "" = some "" := by decide +kernel
  have scanned : scannedCommand parseJson payload = some "bash -lc echo x > out.txt" := by
    decide +kernel
  have credited : "out.txt" ∈ (collectShellEdits parseJson payload .empty).touchedFiles :=
    (mem_collectShellEdits payload "out.txt").mpr ⟨_, scanned, by decide +kernel⟩
  refine ⟨stored, credited, fun agree => ?_⟩
  obtain ⟨command, isStored, target⟩ := agree.credited "out.txt" credited
  rw [stored, Option.some.injEq] at isStored
  subst isStored
  rw [shellEditTargets_empty] at target
  cases target

end BrickTrace.Codex
