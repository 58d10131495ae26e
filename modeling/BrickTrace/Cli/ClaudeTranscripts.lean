import BrickTrace.Lib.JsonText
import BrickTrace.Cli.TranscriptChunks

/-!
# Claude Code transcripts

An assistant record has texts, thoughts and tool calls.  A user record has either the result
of a tool call, the first one of its content, or a text.
-/

set_option autoImplicit false

namespace BrickTrace.Claude

open Composer (textAt)

def sourceId : String := "claude_code"

def providerSlug : String := "claudecode"

/-! ## Tool calls -/

def normalizeShellArgs (args : Json) : Json :=
  let command := ((textAt "command" args).or (textAt "cmd" args)).getD ""
  .object [("cmd", .string command), ("command", .string command)]

def normalizeEditArgs (rawName : String) (args : Json) : Json :=
  let filePath := ((textAt "file_path" args).or (textAt "path" args)).getD ""
  .object [("action", .string rawName), ("file_path", .string filePath), ("payload", args)]

def normalizeClaudeToolCall (rawName : String) (args : Json) : String × Json :=
  if rawName = "Bash" then (functionRunCommandLine, normalizeShellArgs args)
  else if rawName ∈ ["Edit", "MultiEdit", "Write"] then
    (functionEditFile, normalizeEditArgs rawName args)
  else (rawName, args)

def claudeToolCallFromItem (item : Json) (createdAt : String) : Option ImportedToolCall := do
  let callId ← textAt "id" item
  let rawName ← textAt "name" item
  let (canonicalName, args) := normalizeClaudeToolCall rawName ((item.get "input").getD (.object []))
  return { callId, rawName, canonicalName, args, createdAt }

/-! ## Contents -/

def claudeContentItems : Option Json → List Json
  | some (.array items) => items
  | _ => []

section Text
variable (writeFloat : UInt64 → List Char)

/-- The text of the content of a result. -/
def toolResultOutput : Option Json → String
  | none => ""
  | some (.string text) => text
  | some (.array parts) => "\n".intercalate (parts.filterMap (textAt "text"))
  | some other => String.ofList (JsonText.write writeFloat other)

def isToolResult (item : Json) : Bool := textAt "type" item == some "tool_result"

/-- The result that comes first in a content. -/
def claudeToolResultText : Option Json → Option (String × String)
  | some (.array items) => do
      let item ← items.find? isToolResult
      let callId ← textAt "tool_use_id" item
      return (callId, toolResultOutput writeFloat (item.get "content"))
  | _ => none

/-! ## Records -/

/-- One item of the content of an assistant record. -/
def assistantItemEvents (createdAt : String) (lineNumber : UInt64) (item : Json) : List TranscriptEvent :=
  let message := fun kind text => TranscriptEntry.mk kind createdAt text lineNumber none (textAt "id" item)
  match (textAt "type" item).getD "" with
  | "text" => ((textAt "text" item).map fun text => .entry (message .assistant text)).toList
  | "thinking" => ((textAt "thinking" item).map fun text => .entry (message .thinking text)).toList
  | "tool_use" => ((claudeToolCallFromItem item createdAt).map fun call => .call ⟨call, lineNumber⟩).toList
  | _ => []

def userEvents (createdAt : String) (lineNumber : UInt64) (content : Option Json) :
    List TranscriptEvent :=
  match claudeToolResultText writeFloat content with
  | some (callId, output) => [.result callId output]
  | none =>
      ((content.bind textFromValue).map fun text =>
        .entry ⟨.user, createdAt, text, lineNumber, none, none⟩).toList

/-- What the loop of `format_chunks` takes from one record. -/
def recordEvents (record : JsonlRecord) : List TranscriptEvent :=
  match record.value.get "message" with
  | none => []
  | some message =>
      match (textAt "type" record.value).getD "" with
      | "user" => userEvents writeFloat record.createdAt record.lineNumber (message.get "content")
      | "assistant" =>
          (claudeContentItems (message.get "content")).flatMap
            (assistantItemEvents record.createdAt record.lineNumber)
      | _ => []

def transcriptEvents (records : List JsonlRecord) : List TranscriptEvent :=
  records.flatMap (recordEvents writeFloat)

def transcriptSource (path sessionId : String) : TranscriptSource :=
  ⟨sourceId, providerSlug, path, sessionId⟩

/-- The chunks of a session file, when its unfinished calls are taken in an order. -/
def formatChunks (parseRfc3339 : String → Option DateTime) (rfc3339 : DateTime → String)
    (now : Nat → DateTime) (sessionId path : String) (order : List TranscriptCall)
    (records : List JsonlRecord) : List ActivityChunk :=
  formatEvents parseRfc3339 rfc3339 now (transcriptSource path sessionId) order
    (transcriptEvents writeFloat records)

end Text

end BrickTrace.Claude
