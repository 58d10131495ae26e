import BrickTrace.Cli.TranscriptChunks

/-!
# Codex transcripts

Every record has a payload of one kind: a message, a thought, a tool call or the output of
one.  The arguments of a function call are a text that holds JSON.
-/

set_option autoImplicit false

namespace BrickTrace.Codex

open Composer (textAt)

def sourceId : String := "codex_app"

def providerSlug : String := "codex"

/-! ## Tool calls -/

def normalizeShellArgs (args : Json) : Json :=
  let command := ((textAt "command" args).or (textAt "cmd" args)).getD ""
  .object [("cmd", .string command), ("command", .string command)]

def normalizeApplyPatchArgs (args : Json) : Json :=
  let patch := ((textAt "patch" args).or (textAt "input" args)).getD ""
  .object [("action", .string "apply_patch"), ("patch", .string patch)]

def normalizeCodexToolCall (rawName : String) (args : Json) : String × Json :=
  if rawName = "shell" then (functionRunCommandLine, normalizeShellArgs args)
  else if rawName = "apply_patch" then (functionEditFile, normalizeApplyPatchArgs args)
  else (rawName, args)

section Arguments
variable (parseJson : String → Option Json)

def parseInnerJson (raw : String) : Json :=
  if trim raw = "" then .object []
  else (parseJson raw).getD (.object [("input", .string raw)])

def pendingToolCallFromPayload (payload : Json) (createdAt : String) : Option ImportedToolCall := do
  let callId ← textAt "call_id" payload
  let rawName ← textAt "name" payload
  let arguments := ((textAt "arguments" payload).map (parseInnerJson parseJson)).getD (.object [])
  let (canonicalName, args) := normalizeCodexToolCall rawName arguments
  return { callId, rawName, canonicalName, args, createdAt }

end Arguments

def pendingCustomToolCallFromPayload (payload : Json) (createdAt : String) :
    Option ImportedToolCall := do
  let callId ← textAt "call_id" payload
  let rawName ← textAt "name" payload
  let input := (textAt "input" payload).getD ""
  let arguments : Json :=
    .object [(if rawName = "apply_patch" then "patch" else "input", .string input)]
  let (canonicalName, args) := normalizeCodexToolCall rawName arguments
  return { callId, rawName, canonicalName, args, createdAt }

/-! ## Messages -/

def contentPartText (part : Json) : Option String := (textAt "text" part).or (textAt "content" part)

/-- The texts of some parts, unless there are none. -/
def joinedParts (parts : List Json) : Option String :=
  let texts := parts.filterMap contentPartText
  if texts = [] then none else some ("\n".intercalate texts)

def contentTextFromPayload (payload : Json) : Option String :=
  match payload.get "content" with
  | some (.string text) => some text
  | some (.array items) => joinedParts items
  | _ => none

def reasoningTextFromPayload (payload : Json) : Option String :=
  match (textAt "content" payload).filter fun text => trim text ≠ "" with
  | some text => some text
  | none => ((payload.get "summary").bind Composer.items).bind joinedParts

/-! ## Records -/

section Records
variable (parseJson : String → Option Json)

def payloadEvents (createdAt : String) (lineNumber : UInt64) (payload : Json) : List TranscriptEvent :=
  let message := fun kind text =>
    (.entry (TranscriptEntry.mk kind createdAt text lineNumber (textAt "id" payload) none) :
      TranscriptEvent)
  let call := fun (call : Option ImportedToolCall) =>
    (call.map fun call => (.call ⟨call, lineNumber⟩ : TranscriptEvent)).toList
  match (textAt "type" payload).getD "" with
  | "user_message" => ((textAt "message" payload).map (message .user)).toList
  | "agent_message" => ((textAt "message" payload).map (message .assistant)).toList
  | "message" =>
      if textAt "role" payload = some "assistant" then
        ((contentTextFromPayload payload).map (message .assistant)).toList
      else []
  | "reasoning" | "agent_reasoning" =>
      ((reasoningTextFromPayload payload).map (message .thinking)).toList
  | "function_call" => call (pendingToolCallFromPayload parseJson payload createdAt)
  | "custom_tool_call" => call (pendingCustomToolCallFromPayload payload createdAt)
  | "function_call_output" | "custom_tool_call_output" =>
      ((textAt "call_id" payload).map fun callId =>
        .result callId ((textAt "output" payload).getD "")).toList
  | _ => []

/-- What the loop of `format_chunks` takes from one record. -/
def recordEvents (record : JsonlRecord) : List TranscriptEvent :=
  match record.value.get "payload" with
  | none => []
  | some payload => payloadEvents parseJson record.createdAt record.lineNumber payload

def transcriptEvents (records : List JsonlRecord) : List TranscriptEvent :=
  records.flatMap (recordEvents parseJson)

def transcriptSource (path sessionId : String) : TranscriptSource :=
  ⟨sourceId, providerSlug, path, sessionId⟩

/-- The chunks of a session file, when its unfinished calls are taken in an order. -/
def formatChunks (parseRfc3339 : String → Option DateTime) (rfc3339 : DateTime → String)
    (now : Nat → DateTime) (sessionId path : String) (order : List TranscriptCall)
    (records : List JsonlRecord) : List ActivityChunk :=
  formatEvents parseRfc3339 rfc3339 now (transcriptSource path sessionId) order
    (transcriptEvents parseJson records)

end Records

end BrickTrace.Codex
