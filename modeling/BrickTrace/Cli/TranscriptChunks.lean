import BrickTrace.Lib.PairedCalls
import BrickTrace.Cli.ComposerSessions

/-!
# The chunks of a transcript

A provider reads the records of a session file into messages, tool calls and the results of
tool calls.  Every message and every call becomes a chunk, numbered in the order in which
they are done.  A call whose result is missing is done at the end, and these calls come out
of a hash map in an order that the records do not tell.
-/

set_option autoImplicit false

namespace BrickTrace

open Composer (textAt)

/-! ## Records -/

structure JsonlRecord where
  value : Json
  lineNumber : UInt64

/-- The texts of a content: the content itself, or those of its items. -/
def textFromValue : Json → Option String
  | .string text => some text
  | .array items =>
      some ("\n".intercalate (items.filterMap fun item =>
        ((item.get "text").or (item.get "content")).bind Json.decodeString))
  | _ => none

/-- The time of a record, empty when there is none. -/
def JsonlRecord.createdAt (record : JsonlRecord) : String := (textAt "timestamp" record.value).getD ""

/-! ## Chunks -/

structure ImportedToolCall where
  callId : String
  rawName : String
  canonicalName : String
  args : Json
  createdAt : String

/-- Where the transcript of a session is, and what its provider is called in chunk ids. -/
structure TranscriptSource where
  sourceId : String
  providerSlug : String
  path : String
  sessionId : String

def functionRunCommandLine : String := "run_command_line"

def functionEditFile : String := "edit_file_by_replace"

/-- The id and the time are given; the rest is empty. -/
def ActivityChunk.new (chunkId sessionId actionType function createdAt : String) : ActivityChunk where
  chunkId := chunkId
  sessionId := sessionId
  actionType := actionType
  function := function
  args := .object []
  result := .object []
  createdAt := createdAt
  threadId := none
  processId := none
  sourceId := none
  sourcePath := none
  sourceRecordKey := none
  sourceLineNumber := none
  sourceMessageId := none
  sourcePartId := none

def ActivityChunk.setSourcePointer (chunk : ActivityChunk) (sourceId sourcePath : String)
    (lineNumber : UInt64) (messageId partId : Option String) : ActivityChunk :=
  { chunk with
    sourceId := some sourceId
    sourcePath := some sourcePath
    sourceRecordKey := none
    sourceLineNumber := some lineNumber
    sourceMessageId := messageId
    sourcePartId := partId }

section Chunks
variable (parseRfc3339 : String → Option DateTime) (rfc3339 : DateTime → String)

/-- The time as it is written, in UTC; the present time when none is written. -/
def normalizeCreatedAt (now : DateTime) (raw : String) : String :=
  if raw = "" then rfc3339 now
  else
    match parseRfc3339 raw with
    | some time => rfc3339 time
    | none => raw

variable (sessionId providerSlug : String) (now : DateTime) (sequence : Nat)

def userMessageChunk (createdAt message : String) : ActivityChunk :=
  { ActivityChunk.new (providerSlug ++ "-user-" ++ sequence.repr) sessionId "raw" "user_message"
      (normalizeCreatedAt parseRfc3339 rfc3339 now createdAt) with
    result := .object [("message", .object [("content", .string message), ("role", .string "user")]),
      ("type", .string "user")] }

def assistantMessageChunk (createdAt message : String) : ActivityChunk :=
  { ActivityChunk.new (providerSlug ++ "-asst-" ++ sequence.repr) sessionId "assistant" "assistant"
      (normalizeCreatedAt parseRfc3339 rfc3339 now createdAt) with
    result := .object [("content", .string message), ("is_delta", .bool false),
      ("is_full_content", .bool true), ("observation", .string message),
      ("role", .string "assistant")] }

def thinkingChunk (createdAt thought : String) : ActivityChunk :=
  { ActivityChunk.new (providerSlug ++ "-thinking-" ++ sequence.repr) sessionId "thinking" "thinking"
      (normalizeCreatedAt parseRfc3339 rfc3339 now createdAt) with
    result := .object [("content", .string thought), ("is_delta", .bool false),
      ("observation", .string thought), ("thought", .string thought)] }

def toolCallChunk (call : ImportedToolCall) (output : String) : ActivityChunk :=
  { ActivityChunk.new (providerSlug ++ "-tool-" ++ sequence.repr ++ "-" ++ call.callId) sessionId
      "tool_call" call.canonicalName (normalizeCreatedAt parseRfc3339 rfc3339 now call.createdAt) with
    args := call.args
    result := .object [("call_id", .string call.callId), ("observation", .string output),
      ("output", .string output), ("raw_tool_name", .string call.rawName),
      ("status", .string "completed"), ("success", .bool true)] }

end Chunks

/-! ## Transcripts -/

inductive EntryKind where
  | user
  | assistant
  | thinking
deriving DecidableEq

structure TranscriptEntry where
  kind : EntryKind
  createdAt : String
  text : String
  lineNumber : UInt64
  messageId : Option String
  partId : Option String

/-- A call with the line of the record that makes it. -/
structure TranscriptCall where
  call : ImportedToolCall
  lineNumber : UInt64

def TranscriptCall.callId (call : TranscriptCall) : String := call.call.callId

abbrev TranscriptEvent := PairedCalls.Event TranscriptEntry TranscriptCall String String

abbrev TranscriptItem := PairedCalls.Item TranscriptEntry TranscriptCall String

section Format
variable (parseRfc3339 : String → Option DateTime) (rfc3339 : DateTime → String)
  (now : Nat → DateTime) (source : TranscriptSource)

def entryChunk (sequence : Nat) (entry : TranscriptEntry) : ActivityChunk :=
  let build :=
    match entry.kind with
    | .user => userMessageChunk
    | .assistant => assistantMessageChunk
    | .thinking => thinkingChunk
  (build parseRfc3339 rfc3339 source.sessionId source.providerSlug (now sequence) sequence
    entry.createdAt entry.text).setSourcePointer source.sourceId source.path entry.lineNumber
      entry.messageId entry.partId

def callChunk (sequence : Nat) (call : TranscriptCall) (output : String) : ActivityChunk :=
  (toolCallChunk parseRfc3339 rfc3339 source.sessionId source.providerSlug (now sequence) sequence
    call.call output).setSourcePointer source.sourceId source.path call.lineNumber (some call.callId)
      none

def itemChunk (sequence : Nat) : TranscriptItem → ActivityChunk
  | .entry entry => entryChunk parseRfc3339 rfc3339 now source sequence entry
  | .finished call output => callChunk parseRfc3339 rfc3339 now source sequence call output
  | .unfinished call => callChunk parseRfc3339 rfc3339 now source sequence call ""

/-- The chunks of what was read, when the calls without a result are taken in an order. -/
def formatEvents (order : List TranscriptCall) (events : List TranscriptEvent) : List ActivityChunk :=
  (PairedCalls.itemsIn TranscriptCall.callId order events).mapIdx
    (itemChunk parseRfc3339 rfc3339 now source)

end Format

/-- The calls that wait for their result when all is read. -/
def pendingToolCalls (events : List TranscriptEvent) : List TranscriptCall :=
  (PairedCalls.read TranscriptCall.callId events).waiting

/-- The calls that no later result and no later call with their id follows. -/
def unansweredCalls (events : List TranscriptEvent) : List TranscriptCall :=
  PairedCalls.openCalls TranscriptCall.callId events

end BrickTrace
