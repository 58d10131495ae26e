import BrickTrace.Lib.JsonText
import BrickTrace.Lib.LineFrames
import BrickTrace.Lib.Loops
import BrickTrace.Protocol.Text

/-!
# The loop of the tool server

The server reads JSON-RPC requests from a stream of bytes, one a line, and writes one line
for each that it answers.  A line that is no JSON is answered with a parse error, and a tool
that fails with a result that says so.  A line that is no UTF-8 is a read error, and the loop
ends with it.
-/

set_option autoImplicit false

namespace BrickTrace

/-! ## Messages -/

def success (id result : Json) : Json :=
  .object [("id", id), ("jsonrpc", .string "2.0"), ("result", result)]

def toolError (id : Json) (message : String) : Json :=
  .object [
    ("id", id),
    ("jsonrpc", .string "2.0"),
    ("result", .object [
      ("content", .array [.object [("text", .string message), ("type", .string "text")]]),
      ("isError", .bool true)])]

def methodNotFound (id : Json) (method : String) : Json :=
  .object [
    ("error", .object [
      ("code", .number (.negInt (-32601))),
      ("message", .string ("method not found: " ++ method))]),
    ("id", id),
    ("jsonrpc", .string "2.0")]

def parseError : Json :=
  .object [
    ("error", .object [
      ("code", .number (.negInt (-32700))), ("message", .string "parse error")]),
    ("id", .null),
    ("jsonrpc", .string "2.0")]

def initializeResult (version : String) (planning : Bool) : Json :=
  let instructions :=
    if planning then
      ("Brick planning surface (for a dedicated planning agent). Turn a request " ++
        "into a tracked goal with mission action='create'; as work moves, mission " ++
        "action='update' its status; list in-flight work with mission_list; inspect one " ++
        "with show_mission; log deliverables with artifact_add and back them with " ++
        "artifact_attach.")
    else
      ("Brick is the causal memory of this codebase — it answers WHY code looks " ++
        "the way it does, across every AI tool that touched it. " ++
        "When you locate a file or code you are about to change, call `explain` on it " ++
        "BEFORE drawing conclusions from the code alone: it returns a newest-first " ++
        "timeline of the sessions that changed it — who changed it, when, the mission " ++
        "they did it under, a transcript pointer to read the full session, and who is " ++
        "editing it right now. `explain` is your FIRST step into existing code — " ++
        "prefer it over grep and `git log`, which are only a fallback when Brick has no " ++
        "record. It is read-only: there is nothing to record after you change code — the " ++
        "next agent recovers your reasoning from the session transcript automatically.")
  .object [
    ("capabilities", .object [("tools", .object [])]),
    ("instructions", .string instructions),
    ("protocolVersion", .string "2024-11-05"),
    ("serverInfo", .object [("name", .string "brick"), ("version", .string version)])]

/-! ## Tools -/

/-- What a call gives back: a value, an error, or nothing at all where it panics. -/
inductive ToolResult where
  | value (json : Json)
  | failed (message : String)
  | panicked

def ToolResult.map (wrap : Json → Json) : ToolResult → ToolResult
  | .value json => .value (wrap json)
  | .failed message => .failed message
  | .panicked => .panicked

/-- The tools, as they act on the repository and its stores, and how the server shows
itself: its version, the descriptions of its tools and the text of a payload. -/
structure McpServer (World : Type) where
  explainToolCall : World → Json → ToolResult × World
  dispatchPlanning : World → String → Json → ToolResult × World
  version : String
  toolDescriptions : Bool → List Json
  toStringPretty : Json → String

def retiredToolHint (name : String) : Option String :=
  if name ∈ ["log_file", "recall_file", "blame", "blame_file", "log_line", "blame_history",
      "search", "explore_memory", "search_sessions", "show_session", "read_session"] then
    some ("retired: use `explain` with a `path:line`, artifact, mission, or event " ++
        "anchor — it returns who changed it, why, and a transcript pointer.")
  else if name ∈ ["sessions", "live_sessions", "claim", "announce_work", "claims",
      "list_announcements", "status", "current_context"] then
    some ("retired: live coordination is now the `live` field of an `explain` " ++
        "response; there is no separate coordination tool.")
  else if name = "link" then
    some ("retired: Brick no longer records explicit causal edges. Just use " ++
        "`explain <path>` — it returns the timeline of sessions that changed the file, " ++
        "newest first, each with a transcript pointer.")
  else if name ∈ ["mission", "manage_mission", "mission_list", "list_missions", "show_mission",
      "artifact_add", "record_artifact", "artifact_attach", "attach_evidence"] then
    some ("moved: planning tools live on the planning surface (a dedicated " ++
        "planning agent via `brick mcp-serve --planning`), not the main coding surface.")
  else none

def canonicalPlanningName (name : String) : String :=
  if name = "list_missions" then "mission_list"
  else if name = "manage_mission" then "mission"
  else if name = "record_artifact" then "artifact_add"
  else if name = "attach_evidence" then "artifact_attach"
  else name

section Serve
variable {World : Type} (server : McpServer World) (planning : Bool)

def handleToolCall (world : World) (request : Json) : ToolResult × World :=
  let params := (request.get "params").getD (.object [])
  match (params.get "name").bind Json.decodeString with
  | none => (.failed "missing tool name", world)
  | some rawName =>
      let args := (params.get "arguments").getD (.object [])
      let (payload, after) :=
        if planning then server.dispatchPlanning world (canonicalPlanningName rawName) args
        else if rawName = "explain" then server.explainToolCall world args
        else
          match retiredToolHint rawName with
          | some hint =>
              (.value (.object [
                ("error", .string "tool_retired"), ("hint", .string hint), ("tool", .string rawName)]),
                world)
          | none => (.failed ("unknown tool: " ++ rawName), world)
      (payload.map fun json => .object [
        ("content", .array [.object [
          ("text", .string (server.toStringPretty json)), ("type", .string "text")]])],
        after)

def methodOf (request : Json) : String := ((request.get "method").bind Json.decodeString).getD ""

/-- The response to a request, unless the call it makes panics. -/
def respond (world : World) (id request : Json) : Option Json × World :=
  if methodOf request = "initialize" then
    (some (success id (initializeResult server.version planning)), world)
  else if methodOf request = "tools/list" then
    (some (success id (.object [("tools", .array (server.toolDescriptions planning))])), world)
  else if methodOf request = "tools/call" then
    match handleToolCall server planning world request with
    | (.value result, after) => (some (success id result), after)
    | (.failed message, after) => (some (toolError id message), after)
    | (.panicked, after) => (none, after)
  else if methodOf request = "ping" then (some (success id (.object [])), world)
  else (some (methodNotFound id (methodOf request)), world)

/-! ## The loop -/

/-- The text of a line: its bytes have to be UTF-8, and one carriage return before the end
of the line is no part of it. -/
def lineText (frame : List UInt8 × Bool) : Option String :=
  (String.fromUTF8? frame.1.toByteArray).map fun text =>
    if frame.2 then (stripEnd text "\r").getD text else text

/-- What ends the loop early. -/
inductive Stop where
  | unreadable
  | panicked

variable (fromStr : String → Option Json)

/-- One line, with the messages that are written for it. -/
def serveLine (world : World) (frame : List UInt8 × Bool) : Except Stop (List Json) × World :=
  match lineText frame with
  | none => (.error .unreadable, world)
  | some line =>
      if trim line = "" then (.ok [], world)
      else
        match fromStr line with
        | none => (.ok [parseError], world)
        | some request =>
            match request.get "id" with
            | none => (.ok [], world)
            | some id =>
                match respond server planning world id request with
                | (some response, after) => (.ok [response], after)
                | (none, after) => (.error .panicked, after)

def serveStep (world : World) (frame : List UInt8 × Bool) : Except Stop Unit × World :=
  ((serveLine server planning fromStr world frame).1.map fun _ => (),
    (serveLine server planning fromStr world frame).2)

def serveEmits (world : World) (frame : List UInt8 × Bool) : List Json :=
  match (serveLine server planning fromStr world frame).1 with
  | .ok messages => messages
  | .error _ => []

/-- The messages, in the order they are written. -/
def serveMessages (world : World) (input : List UInt8) : List Json :=
  Loops.collect (serveStep server planning fromStr) (serveEmits server planning fromStr) world
    (LineFrames.frames 10 input)

/-- What the server writes for the bytes it reads. -/
def serve (writeFloat : UInt64 → List Char) (world : World) (input : List UInt8) : List Char :=
  LineFrames.write '\n'
    ((serveMessages server planning fromStr world input).map (JsonText.write writeFloat))

/-! ## What is to be written -/

/-- What a line calls for. -/
inductive Demand where
  | reply (id : Json)
  | parseError

def demands (frame : List UInt8 × Bool) : List Demand :=
  match lineText frame with
  | none => [.parseError]
  | some line =>
      if trim line = "" then []
      else
        match fromStr line with
        | none => [.parseError]
        | some request =>
            match request.get "id" with
            | none => []
            | some id => [.reply id]

/-- A message that answers the request with this id, with a result or an error. -/
structure IsReplyTo (id response : Json) : Prop where
  version : response.get "jsonrpc" = some (.string "2.0")
  id : response.get "id" = some id
  outcome : (response.get "result").isSome ∨ (response.get "error").isSome

def Demand.MetBy : Demand → Json → Prop
  | .reply id, message => IsReplyTo id message
  | .parseError, message => message = BrickTrace.parseError

/-- Each line that calls for a message has it on one line of the output, in order, and there
is no other line. -/
def AnswersEachLine (writeFloat : UInt64 → List Char) (input : List UInt8) (output : List Char) :
    Prop :=
  List.Forall₂
    (fun demand line => ∃ message, demand.MetBy message ∧
      line = (JsonText.write writeFloat message, true))
    ((LineFrames.frames 10 input).flatMap (demands fromStr)) (LineFrames.frames '\n' output)

/-- The line is a call of a tool that panics. -/
def CallPanics (world : World) (frame : List UInt8 × Bool) : Prop :=
  ∃ line request, lineText frame = some line ∧ trim line ≠ "" ∧ fromStr line = some request ∧
    (request.get "id").isSome ∧ methodOf request = "tools/call" ∧
      (handleToolCall server planning world request).1 = .panicked

/-! ## One line -/

variable {server planning fromStr} {world : World}

theorem isReplyTo_success (id result : Json) : IsReplyTo id (success id result) :=
  ⟨rfl, rfl, .inl rfl⟩

theorem isReplyTo_toolError (id : Json) (message : String) : IsReplyTo id (toolError id message) :=
  ⟨rfl, rfl, .inl rfl⟩

theorem isReplyTo_methodNotFound (id : Json) (method : String) :
    IsReplyTo id (methodNotFound id method) :=
  ⟨rfl, rfl, .inr rfl⟩

/-- Whatever a request asks for, its response is a reply to it; only a call that panics
has none. -/
theorem respond_cases (world : World) (id request : Json) :
    (∃ response, (respond server planning world id request).1 = some response ∧
      IsReplyTo id response ∧
      ¬ (methodOf request = "tools/call" ∧
        (handleToolCall server planning world request).1 = .panicked)) ∨
    ((respond server planning world id request).1 = none ∧ methodOf request = "tools/call" ∧
      (handleToolCall server planning world request).1 = .panicked) := by
  unfold respond
  by_cases isInitialize : methodOf request = "initialize"
  · rw [if_pos isInitialize, isInitialize]
    exact .inl ⟨_, rfl, isReplyTo_success _ _, fun call => absurd call.1 (by decide)⟩
  rw [if_neg isInitialize]
  by_cases isList : methodOf request = "tools/list"
  · rw [if_pos isList, isList]
    exact .inl ⟨_, rfl, isReplyTo_success _ _, fun call => absurd call.1 (by decide)⟩
  rw [if_neg isList]
  by_cases isCall : methodOf request = "tools/call"
  · rw [if_pos isCall]
    cases called : handleToolCall server planning world request with
    | mk result after =>
        cases result with
        | value json => exact .inl ⟨_, rfl, isReplyTo_success _ _, fun call => nomatch call.2⟩
        | failed message => exact .inl ⟨_, rfl, isReplyTo_toolError _ _, fun call => nomatch call.2⟩
        | panicked => exact .inr ⟨rfl, isCall, rfl⟩
  rw [if_neg isCall]
  by_cases isPing : methodOf request = "ping"
  · rw [if_pos isPing]
    exact .inl ⟨_, rfl, isReplyTo_success _ _, fun call => isCall call.1⟩
  · rw [if_neg isPing]
    exact .inl ⟨_, rfl, isReplyTo_methodNotFound _ _, fun call => isCall call.1⟩

/-- A line that is read, and is no call that panics, has the messages it calls for; any other
ends the loop with none. -/
theorem serveLine_cases (world : World) (frame : List UInt8 × Bool) :
    (∃ messages, (serveLine server planning fromStr world frame).1 = .ok messages ∧
      List.Forall₂ Demand.MetBy (demands fromStr frame) messages ∧
      (lineText frame).isSome ∧ ¬ CallPanics server planning fromStr world frame) ∨
    (∃ stop, (serveLine server planning fromStr world frame).1 = .error stop ∧
      (demands fromStr frame).length = 1 ∧
      ¬ ((lineText frame).isSome ∧ ¬ CallPanics server planning fromStr world frame)) := by
  unfold serveLine demands
  cases read : lineText frame with
  | none => exact .inr ⟨_, rfl, rfl, fun sound => nomatch sound.1⟩
  | some line =>
      dsimp only
      by_cases blank : trim line = ""
      · rw [if_pos blank, if_pos blank]
        refine .inl ⟨_, rfl, .nil, rfl, ?_⟩
        rintro ⟨_, _, isLine, notBlank, _⟩
        cases read.symm.trans isLine
        exact notBlank blank
      rw [if_neg blank, if_neg blank]
      cases parsed : fromStr line with
      | none =>
          refine .inl ⟨_, rfl, .cons rfl .nil, rfl, ?_⟩
          rintro ⟨_, _, isLine, _, isRequest, _⟩
          cases read.symm.trans isLine
          cases parsed.symm.trans isRequest
      | some request =>
          dsimp only
          cases hasId : request.get "id" with
          | none =>
              refine .inl ⟨_, rfl, .nil, rfl, ?_⟩
              rintro ⟨_, _, isLine, _, isRequest, someId, _⟩
              cases read.symm.trans isLine
              cases parsed.symm.trans isRequest
              rw [hasId] at someId
              cases someId
          | some id =>
              dsimp only
              cases responded : respond server planning world id request with
              | mk response after =>
                  rcases respond_cases world id request with
                    ⟨reply, isResponse, isReply, returns⟩ | ⟨isNone, isCall, panics⟩
                  · rw [responded] at isResponse
                    cases isResponse
                    refine .inl ⟨_, rfl, .cons isReply .nil, rfl, ?_⟩
                    rintro ⟨_, _, isLine, _, isRequest, _, panics⟩
                    cases read.symm.trans isLine
                    cases parsed.symm.trans isRequest
                    exact returns panics
                  · rw [responded] at isNone
                    cases isNone
                    refine .inr ⟨_, rfl, rfl, fun sound => sound.2 ?_⟩
                    exact ⟨line, request, read, blank, parsed, hasId ▸ rfl, isCall, panics⟩

theorem serveStep_ok_iff (world : World) (frame : List UInt8 × Bool) :
    (serveStep server planning fromStr world frame).1 = .ok () ↔
      (lineText frame).isSome ∧ ¬ CallPanics server planning fromStr world frame := by
  unfold serveStep
  rcases serveLine_cases world frame with ⟨messages, served, _, sound⟩ | ⟨stop, ended, _, unsound⟩
  · rw [served]
    exact iff_of_true rfl sound
  · rw [ended]
    exact iff_of_false nofun unsound

theorem serveEmits_full (frame : List UInt8 × Bool)
    (succeeded : (serveStep server planning fromStr world frame).1 = .ok ()) :
    List.Forall₂ Demand.MetBy (demands fromStr frame)
      (serveEmits server planning fromStr world frame) := by
  unfold serveEmits
  rcases serveLine_cases world frame with ⟨messages, served, met, _⟩ | ⟨stop, _, _, unsound⟩
  · rw [served]
    exact met
  · exact absurd ((serveStep_ok_iff world frame).mp succeeded) unsound

theorem serveEmits_short (frame : List UInt8 × Bool) {stop : Stop}
    (failed : (serveStep server planning fromStr world frame).1 = .error stop) :
    (serveEmits server planning fromStr world frame).length < (demands fromStr frame).length := by
  unfold serveEmits
  rcases serveLine_cases world frame with ⟨messages, served, _, sound⟩ | ⟨reason, ended, one, _⟩
  · rw [(serveStep_ok_iff world frame).mpr sound] at failed
    cases failed
  · rw [ended, one]
    exact Nat.one_pos

/-! ## Every line -/

theorem serve_goes_on_iff {frames : List (List UInt8 × Bool)} :
    (Loops.forEach (serveStep server planning fromStr) world frames).1 = .ok () ↔
      (∀ frame ∈ frames, (lineText frame).isSome) ∧
        Loops.Visits (serveStep server planning fromStr)
          (fun reached frame => ¬ CallPanics server planning fromStr reached frame) world frames := by
  constructor
  · intro succeeded
    refine ⟨Loops.forEach_all (fun reached frame served =>
      ((serveStep_ok_iff reached frame).mp served).1) succeeded, ?_⟩
    exact Loops.visits_mono (fun _ _ sound => sound.2)
      ((Loops.forEach_ok_iff serveStep_ok_iff).mp succeeded)
  · rintro ⟨texts, returns⟩
    exact (Loops.forEach_ok_iff serveStep_ok_iff).mpr (Loops.visits_and_of_forall texts returns)

/-- The server answers each line exactly when all of them are UTF-8 and no call that it gets
to panics. -/
theorem mcp_answers_each_line_iff {writeFloat : UInt64 → List Char}
    (noLineEnd : ∀ bits, '\n' ∉ writeFloat bits) (input : List UInt8) :
    AnswersEachLine fromStr writeFloat input
        (serve server planning fromStr writeFloat world input) ↔
      (∀ frame ∈ LineFrames.frames 10 input, (lineText frame).isSome) ∧
        Loops.Visits (serveStep server planning fromStr)
          (fun reached frame => ¬ CallPanics server planning fromStr reached frame) world
          (LineFrames.frames 10 input) := by
  have oneLine : ∀ written ∈ (serveMessages server planning fromStr world input).map
      (JsonText.write writeFloat), '\n' ∉ written := by
    intro written member
    obtain ⟨message, _, rfl⟩ := List.mem_map.mp member
    exact JsonText.control_notMem_write (by decide) noLineEnd message
  rw [← serve_goes_on_iff]
  unfold AnswersEachLine serve
  rw [LineFrames.frames_write oneLine, List.map_map, List.forall₂_map_right_iff]
  unfold serveMessages
  apply Loops.forall₂_collect_iff
  · intro reached frame succeeded
    exact (serveEmits_full frame succeeded).imp fun demand message met => ⟨message, met, rfl⟩
  · exact fun reached frame stop failed => serveEmits_short frame failed

end Serve

/-! ## A request after a byte that is no UTF-8 -/

def pingLine : String := "\x7b\"id\":1,\"jsonrpc\":\"2.0\",\"method\":\"ping\"\x7d"

def readPing (text : String) : Option Json :=
  if text = pingLine then
    some (.object [
      ("id", .number (.posInt 1)), ("jsonrpc", .string "2.0"), ("method", .string "ping")])
  else none

def pingServer : McpServer Unit where
  explainToolCall := fun world _ => (.failed "missing required string argument: anchor", world)
  dispatchPlanning := fun world name _ => (.failed ("unknown planning tool: " ++ name), world)
  version := "0.1.0"
  toolDescriptions := fun _ => []
  toStringPretty := fun _ => ""

def noFraction (_ : UInt64) : List Char := ['0', '.', '0']

def pingInput : List UInt8 := pingLine.toByteArray.data.toList ++ [10]

theorem ping_answered :
    AnswersEachLine readPing noFraction pingInput
      (serve pingServer false readPing noFraction () pingInput) := by
  have noLineEnd : '\n' ∉ ['0', '.', '0'] := by decide
  apply (mcp_answers_each_line_iff (fun _ => noLineEnd) pingInput).mpr
  refine ⟨by decide +kernel, ?_⟩
  apply Loops.visits_of_invariant (fun _ => True) (fun _ _ _ => trivial) _ trivial
  rintro world frame _ _ ⟨line, request, _, _, isRequest, _, isCall, _⟩
  unfold readPing at isRequest
  split at isRequest
  · cases isRequest
    exact absurd isCall (by decide)
  · cases isRequest

/-- After the byte 255 on a line of its own, the request is not answered. -/
theorem ping_unanswered :
    ¬ AnswersEachLine readPing noFraction (255 :: 10 :: pingInput)
      (serve pingServer false readPing noFraction () (255 :: 10 :: pingInput)) := by
  have silent : serve pingServer false readPing noFraction () (255 :: 10 :: pingInput) = [] := by
    decide +kernel
  have called : ((LineFrames.frames 10 (255 :: 10 :: pingInput)).flatMap
      (demands readPing)).length = 2 := by
    decide +kernel
  intro answered
  have same := answered.length_eq
  rw [called, silent] at same
  exact absurd same (by decide)

end BrickTrace
