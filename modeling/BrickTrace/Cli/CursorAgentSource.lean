import BrickTrace.Lib.JsonText
import BrickTrace.Lib.NumberedOutput
import BrickTrace.Core.RootBlobIds
import BrickTrace.Cli.SourceTimes
import BrickTrace.Cli.TranscriptGrowth

/-!
# The transcripts of cursor-agent

A session is a store of blobs under the hashes of their contents.  The root blob names the blobs
of the messages in their order.  Messages have no times, so chunks are given times by their
numbers, a second apart.
-/

set_option autoImplicit false

namespace BrickTrace.CursorAgent

open Composer (textAt items)
open SourceTimes (TimePanic syntheticTimestamp userText)

/-- The value of the key `0` and the blobs. -/
structure ChatStore where
  metaValue : Option String
  blobs : String → Option (List UInt8)

inductive ChatFailure where
  | metaJson
  | rootBlob (failure : RootBlob.ReadFailure)
  | time (panic : TimePanic)

/-- What is read by libraries: JSON from a text and from bytes; and how they print a
floating-point number, a time, and a time to the millisecond. -/
structure ChatReader where
  parseJson : String → Option Json
  parseSlice : List UInt8 → Option Json
  writeFloat : UInt64 → List Char
  parseTime : String → Option DateTime
  rfc3339 : DateTime → String
  rfc3339Millis : DateTime → String

/-! ## Metadata -/

structure StoreMeta where
  agentId : Option String
  latestRootBlobId : Option String
  name : Option String
  createdAtMs : Option UInt64

def hexDigit (char : Char) : Option Nat :=
  if '0' ≤ char ∧ char ≤ '9' then some (char.toNat - 48)
  else if 'a' ≤ char ∧ char ≤ 'f' then some (char.toNat - 87)
  else if 'A' ≤ char ∧ char ≤ 'F' then some (char.toNat - 55)
  else none

def hexPairs : List Char → Option (List UInt8)
  | [] => some []
  | [_] => none
  | first :: second :: rest => do
      let high ← hexDigit first
      let low ← hexDigit second
      let others ← hexPairs rest
      return UInt8.ofNat (high * 16 + low) :: others

def hexDecode (text : String) : Option (List UInt8) := hexPairs (trim text).toList

section Read
variable (reader : ChatReader)

def readMeta (store : ChatStore) : Except ChatFailure StoreMeta :=
  match store.metaValue with
  | none => .ok ⟨none, none, none, none⟩
  | some raw =>
      let jsonText := ((hexDecode raw).bind fun bytes =>
        String.fromUTF8? bytes.toByteArray).getD raw
      match reader.parseJson jsonText with
      | none => .error .metaJson
      | some value => .ok ⟨textAt "agentId" value, textAt "latestRootBlobId" value,
          textAt "name" value, (value.get "createdAt").bind Json.decodeU64⟩

def orderedMessageIds (store : ChatStore) (rootId : String) : Except ChatFailure (List String) :=
  match store.blobs rootId with
  | none => .ok []
  | some root => (RootBlob.parseRootBlobIds root).mapError .rootBlob

def readJsonBlob (store : ChatStore) (blobId : String) : Option Json :=
  (store.blobs blobId).bind reader.parseSlice

/-! ## Chunks -/

def normalizeCursorAgentTool (rawName : String) (args : Json) : String × Json :=
  match rawName with
  | "Bash" | "run_terminal_command" | "Shell" =>
      let command := ((textAt "command" args).or (textAt "cmd" args)).getD ""
      (functionRunCommandLine, .object [("cmd", .string command), ("command", .string command)])
  | "Edit" | "Write" | "MultiEdit" | "create_file" | "edit_file" => (functionEditFile, args)
  | _ => (rawName, args)

def toolCallFromPart (part : Json) (createdAt : String) : Option ImportedToolCall := do
  let rawName ← textAt "toolName" part
  let (canonicalName, args) :=
    normalizeCursorAgentTool rawName ((part.get "args").getD (.object []))
  return {
    callId := (textAt "toolCallId" part).getD ""
    rawName
    canonicalName
    args
    createdAt }

def toolResultText (part : Json) : String :=
  match textAt "result" part, (part.get "experimental_content").bind items with
  | some text, _ => text
  | none, some parts => "\n".intercalate (parts.filterMap (textAt "text"))
  | none, none =>
      match part.get "result" with
      | none | some .null => ""
      | some value => String.ofList (JsonText.write reader.writeFloat value)

def importedResult (part : Json) (createdAt : String) : ImportedToolCall where
  callId := (textAt "toolCallId" part).getD ""
  rawName := (textAt "toolName" part).getD ""
  canonicalName := (normalizeCursorAgentTool ((textAt "toolName" part).getD "") (.object [])).1
  args := .object []
  createdAt := createdAt

variable (now : Nat → DateTime) (sessionId : String)

section Chunks
variable (createdAt : String) (sequence : Nat)

def userChunk (text : String) : ActivityChunk :=
  userMessageChunk reader.parseTime reader.rfc3339 sessionId "cursor-agent" (now sequence) sequence
    createdAt text

def assistantChunk (text : String) : ActivityChunk :=
  assistantMessageChunk reader.parseTime reader.rfc3339 sessionId "cursor-agent" (now sequence)
    sequence createdAt text

def reasoningChunk (text : String) : ActivityChunk :=
  thinkingChunk reader.parseTime reader.rfc3339 sessionId "cursor-agent" (now sequence) sequence
    createdAt text

def callChunk (call : ImportedToolCall) (output : String) : ActivityChunk :=
  toolCallChunk reader.parseTime reader.rfc3339 sessionId "cursor-agent" (now sequence) sequence
    call output

def solid (text : Option String) : Option String := text.filter fun text => trim text ≠ ""

/-- The chunk of one part of a message of the assistant. -/
def assistantPart (part : Json) : List ActivityChunk :=
  match textAt "type" part with
  | some "text" =>
      ((solid (textAt "text" part)).map
        (assistantChunk reader now sessionId createdAt sequence)).toList
  | some "reasoning" =>
      ((solid (textAt "text" part)).map
        (reasoningChunk reader now sessionId createdAt sequence)).toList
  | some "tool-call" =>
      ((toolCallFromPart part createdAt).map fun call =>
        callChunk reader now sessionId sequence call "").toList
  | _ => []

/-- The chunk of one part of a message with the results of tools. -/
def resultPart (part : Json) : List ActivityChunk :=
  if textAt "type" part = some "tool-result" then
    [callChunk reader now sessionId sequence (importedResult part createdAt)
      (toolResultText reader part)]
  else []

def assistantChunks (message : Json) : List ActivityChunk :=
  match message.get "content" with
  | some (.string text) =>
      ((solid (some text)).map (assistantChunk reader now sessionId createdAt sequence)).toList
  | some (.array parts) =>
      NumberedOutput.emitted (assistantPart reader now sessionId createdAt) sequence parts
  | _ => []

def toolResultChunks (message : Json) : List ActivityChunk :=
  match message.get "content" with
  | some (.array parts) =>
      NumberedOutput.emitted (resultPart reader now sessionId createdAt) sequence parts
  | _ => []

def messageChunks (role : String) (message : Json) : List ActivityChunk :=
  match role with
  | "user" =>
      ((userText message).map (userChunk reader now sessionId createdAt sequence)).toList
  | "assistant" => assistantChunks reader now sessionId createdAt sequence message
  | "tool" => toolResultChunks reader now sessionId createdAt sequence message
  | _ => []

end Chunks

/-- The chunks of a message, all with the time of the first; without a role it has none. -/
def formatMessage (baseMs : UInt64) (sequence : Nat) (message : Json) :
    Except ChatFailure (List ActivityChunk) :=
  match textAt "role" message with
  | none => .ok []
  | some role =>
      match syntheticTimestamp reader.rfc3339Millis baseMs sequence with
      | .error panic => .error (.time panic)
      | .ok createdAt => .ok (messageChunks reader now sessionId createdAt sequence role message)

def formatChunks (store : ChatStore) : Except ChatFailure (List ActivityChunk) := do
  let storeMeta ← readMeta reader store
  match storeMeta.latestRootBlobId with
  | none => return []
  | some rootId =>
      let messageIds ← orderedMessageIds store rootId
      NumberedOutput.emittedM
        (formatMessage reader now sessionId (storeMeta.createdAtMs.getD 0)) 0
        (messageIds.filterMap (readJsonBlob reader store))

end Read

/-! ## Numbers, ids and times -/

section Facts
variable (reader : ChatReader) (now : Nat → DateTime) (sessionId : String) (createdAt : String)

theorem inPlace_toList {sequence : Nat} {chunk : Option ActivityChunk}
    (numbered : ∀ held ∈ chunk, NumberedIn "cursor-agent" sequence held) :
    NumberedOutput.InPlace (NumberedIn "cursor-agent") sequence chunk.toList := by
  cases chunk with
  | none => exact NumberedOutput.inPlace_nil
  | some held => exact NumberedOutput.inPlace_cons.mpr ⟨numbered held rfl, NumberedOutput.inPlace_nil⟩

theorem inPlace_assistantPart (sequence : Nat) (part : Json) :
    NumberedOutput.InPlace (NumberedIn "cursor-agent") sequence
      (assistantPart reader now sessionId createdAt sequence part) := by
  unfold assistantPart
  split
  · refine inPlace_toList fun chunk made => ?_
    obtain ⟨text, _, rfl⟩ := Option.map_eq_some_iff.mp made
    exact numberedIn_assistant ..
  · refine inPlace_toList fun chunk made => ?_
    obtain ⟨text, _, rfl⟩ := Option.map_eq_some_iff.mp made
    exact numberedIn_thinking ..
  · refine inPlace_toList fun chunk made => ?_
    obtain ⟨call, _, rfl⟩ := Option.map_eq_some_iff.mp made
    exact numberedIn_toolCall ..
  · exact NumberedOutput.inPlace_nil

theorem inPlace_resultPart (sequence : Nat) (part : Json) :
    NumberedOutput.InPlace (NumberedIn "cursor-agent") sequence
      (resultPart reader now sessionId createdAt sequence part) := by
  unfold resultPart
  split
  · exact NumberedOutput.inPlace_cons.mpr ⟨numberedIn_toolCall .., NumberedOutput.inPlace_nil⟩
  · exact NumberedOutput.inPlace_nil

theorem inPlace_messageChunks (sequence : Nat) (role : String) (message : Json) :
    NumberedOutput.InPlace (NumberedIn "cursor-agent") sequence
      (messageChunks reader now sessionId createdAt sequence role message) := by
  unfold messageChunks
  split
  · refine inPlace_toList fun chunk made => ?_
    obtain ⟨text, _, rfl⟩ := Option.map_eq_some_iff.mp made
    exact numberedIn_user ..
  · unfold assistantChunks
    split
    · refine inPlace_toList fun chunk made => ?_
      obtain ⟨text, _, rfl⟩ := Option.map_eq_some_iff.mp made
      exact numberedIn_assistant ..
    · exact NumberedOutput.inPlace_emitted
        (inPlace_assistantPart reader now sessionId createdAt) sequence _
    · exact NumberedOutput.inPlace_nil
  · unfold toolResultChunks
    split
    · exact NumberedOutput.inPlace_emitted
        (inPlace_resultPart reader now sessionId createdAt) sequence _
    · exact NumberedOutput.inPlace_nil
  · exact NumberedOutput.inPlace_nil

/-- The time of a chunk from the time that its message was given. -/
def chunkTime (createdAt : String) : String :=
  match reader.parseTime createdAt with
  | some time => reader.rfc3339 time
  | none => createdAt

theorem normalizeCreatedAt_of_printed {createdAt : String} (printed : createdAt ≠ "")
    (present : DateTime) :
    normalizeCreatedAt reader.parseTime reader.rfc3339 present createdAt =
      chunkTime reader createdAt :=
  if_neg printed

variable {createdAt}

theorem createdAt_toList {A : Type} {build : A → ActivityChunk} {found : Option A}
    (built : ∀ held ∈ found, (build held).createdAt = chunkTime reader createdAt) :
    ∀ chunk ∈ (found.map build).toList, chunk.createdAt = chunkTime reader createdAt := by
  intro chunk member
  obtain ⟨held, isFound, rfl⟩ := Option.map_eq_some_iff.mp (Option.mem_toList.mp member)
  exact built held isFound

section Printed
variable (printed : createdAt ≠ "")
include printed

theorem createdAt_callChunk {call : ImportedToolCall} (made : call.createdAt = createdAt)
    (sequence : Nat) (output : String) :
    (callChunk reader now sessionId sequence call output).createdAt =
      chunkTime reader createdAt := by
  unfold callChunk toolCallChunk
  dsimp only
  rw [made]
  exact normalizeCreatedAt_of_printed reader printed _

theorem createdAt_assistantPart (sequence : Nat) (part : Json) :
    ∀ chunk ∈ assistantPart reader now sessionId createdAt sequence part,
      chunk.createdAt = chunkTime reader createdAt := by
  unfold assistantPart
  split
  · exact createdAt_toList reader fun text _ => normalizeCreatedAt_of_printed reader printed _
  · exact createdAt_toList reader fun text _ => normalizeCreatedAt_of_printed reader printed _
  · refine createdAt_toList reader fun call made => ?_
    refine createdAt_callChunk reader now sessionId printed ?_ sequence ""
    obtain ⟨rawName, _, isCall⟩ := Option.bind_eq_some_iff.mp made
    cases isCall
    rfl
  · exact nofun

theorem createdAt_resultPart (sequence : Nat) (part : Json) :
    ∀ chunk ∈ resultPart reader now sessionId createdAt sequence part,
      chunk.createdAt = chunkTime reader createdAt := by
  unfold resultPart
  split
  · exact List.forall_mem_singleton.mpr
      (createdAt_callChunk reader now sessionId printed rfl sequence _)
  · exact nofun

theorem createdAt_messageChunks (sequence : Nat) (role : String) (message : Json) :
    ∀ chunk ∈ messageChunks reader now sessionId createdAt sequence role message,
      chunk.createdAt = chunkTime reader createdAt := by
  unfold messageChunks
  split
  · exact createdAt_toList reader fun text _ => normalizeCreatedAt_of_printed reader printed _
  · unfold assistantChunks
    split
    · exact createdAt_toList reader fun text _ => normalizeCreatedAt_of_printed reader printed _
    · exact NumberedOutput.forall_mem_emitted
        (createdAt_assistantPart reader now sessionId printed) sequence _
    · exact nofun
  · unfold toolResultChunks
    split
    · exact NumberedOutput.forall_mem_emitted
        (createdAt_resultPart reader now sessionId printed) sequence _
    · exact nofun
  · exact nofun

/-! ## No clock is read -/

variable (now' : Nat → DateTime)

theorem callChunk_now {call : ImportedToolCall} (made : call.createdAt = createdAt)
    (sequence : Nat) (output : String) :
    callChunk reader now sessionId sequence call output =
      callChunk reader now' sessionId sequence call output := by
  simp only [callChunk, toolCallChunk, made, normalizeCreatedAt_of_printed reader printed]

theorem assistantPart_now :
    assistantPart reader now sessionId createdAt =
      assistantPart reader now' sessionId createdAt := by
  funext sequence part
  unfold assistantPart assistantChunk reasoningChunk assistantMessageChunk thinkingChunk
  simp only [normalizeCreatedAt_of_printed reader printed]
  split
  · rfl
  · rfl
  · cases made : toolCallFromPart part createdAt with
    | none => rfl
    | some call =>
        obtain ⟨rawName, _, isCall⟩ := Option.bind_eq_some_iff.mp made
        cases isCall
        rw [Option.map_some, Option.map_some,
          callChunk_now reader now sessionId printed now' rfl sequence ""]
  · rfl

theorem resultPart_now :
    resultPart reader now sessionId createdAt = resultPart reader now' sessionId createdAt := by
  funext sequence part
  unfold resultPart
  rw [callChunk_now reader now sessionId printed now' rfl sequence _]

theorem messageChunks_now :
    messageChunks reader now sessionId createdAt =
      messageChunks reader now' sessionId createdAt := by
  funext sequence role message
  unfold messageChunks assistantChunks toolResultChunks
  rw [assistantPart_now reader now sessionId printed now',
    resultPart_now reader now sessionId printed now']
  unfold userChunk userMessageChunk assistantChunk assistantMessageChunk
  simp only [normalizeCreatedAt_of_printed reader printed]

end Printed

/-! ## Conversations that go on -/

/-- The chunk has the time of the message that begins with a number. -/
def TimedFrom (baseMs : UInt64) (start : Nat) (chunk : ActivityChunk) : Prop :=
  ∃ text, syntheticTimestamp reader.rfc3339Millis baseMs start = .ok text ∧
    chunk.createdAt = chunkTime reader text

/-- The times of the chunks: each of them is that of a number not after its own, a second for
each, and none is before that of an earlier chunk. -/
def Timed (baseMs : UInt64) (chunks : List ActivityChunk) : Prop :=
  ∃ starts : List Nat, starts.Pairwise (· ≤ ·) ∧
    (∀ place start : Nat, starts[place]? = some start → start ≤ place) ∧
    List.Forall₂ (TimedFrom reader baseMs) starts chunks

variable {reader} (prints : ∀ time, reader.rfc3339Millis time ≠ "")
include prints

theorem printed_of_syntheticTimestamp {baseMs : UInt64} {sequence : Nat} {text : String}
    (done : syntheticTimestamp reader.rfc3339Millis baseMs sequence = .ok text) : text ≠ "" := by
  unfold syntheticTimestamp at done
  obtain ⟨time, _, printed⟩ := Fallible.bind_eq_ok_iff.mp done
  obtain ⟨utc, _, rfl⟩ := Fallible.map_eq_ok_iff.mp printed
  exact prints utc

theorem formatMessage_now (now' : Nat → DateTime) (baseMs : UInt64) :
    formatMessage reader now sessionId baseMs = formatMessage reader now' sessionId baseMs := by
  funext sequence message
  unfold formatMessage
  split
  · rfl
  · cases stamped : syntheticTimestamp reader.rfc3339Millis baseMs sequence with
    | error panic => rfl
    | ok createdAt =>
        dsimp only
        rw [messageChunks_now reader now sessionId
          (printed_of_syntheticTimestamp prints stamped) now']

theorem timedFrom_formatMessage {baseMs : UInt64} (sequence : Nat) (message : Json)
    (chunks : List ActivityChunk)
    (done : formatMessage reader now sessionId baseMs sequence message = .ok chunks) :
    ∀ chunk ∈ chunks, TimedFrom reader baseMs sequence chunk := by
  unfold formatMessage at done
  split at done
  · cases done
    exact nofun
  · split at done
    · cases done
    · rename_i createdAt stamped
      cases done
      intro chunk member
      exact ⟨createdAt, stamped, createdAt_messageChunks reader now sessionId
        (printed_of_syntheticTimestamp prints stamped) sequence _ message chunk member⟩

omit prints in
theorem inPlace_formatMessage {baseMs : UInt64} (sequence : Nat) (message : Json)
    (chunks : List ActivityChunk)
    (done : formatMessage reader now sessionId baseMs sequence message = .ok chunks) :
    NumberedOutput.InPlace (NumberedIn "cursor-agent") sequence chunks := by
  unfold formatMessage at done
  split at done
  · cases done
    exact NumberedOutput.inPlace_nil
  · split at done
    · cases done
    · cases done
      exact inPlace_messageChunks reader now sessionId _ sequence _ message

end Facts

/-- The conversation of a store went on: its messages are named first, under the same hashes and
with the same contents, and the session began at the same time. -/
structure Continues (reader : ChatReader) (store grown : ChatStore) where
  storeMeta : StoreMeta
  grownMeta : StoreMeta
  rootId : String
  grownRootId : String
  held : List String
  more : List String
  readStore : readMeta reader store = .ok storeMeta
  readGrown : readMeta reader grown = .ok grownMeta
  root : storeMeta.latestRootBlobId = some rootId
  grownRoot : grownMeta.latestRootBlobId = some grownRootId
  sameStart : grownMeta.createdAtMs = storeMeta.createdAtMs
  ids : orderedMessageIds store rootId = .ok held
  grownIds : orderedMessageIds grown grownRootId = .ok (held ++ more)
  sameBlobs : ∀ blobId ∈ held, grown.blobs blobId = store.blobs blobId

theorem formatChunks_of_read {reader : ChatReader} {store : ChatStore} {storeMeta : StoreMeta}
    {rootId : String} {messageIds : List String} (now : Nat → DateTime) (sessionId : String)
    (readStore : readMeta reader store = .ok storeMeta)
    (root : storeMeta.latestRootBlobId = some rootId)
    (ids : orderedMessageIds store rootId = .ok messageIds) :
    formatChunks reader now sessionId store =
      NumberedOutput.emittedM
        (formatMessage reader now sessionId (storeMeta.createdAtMs.getD 0)) 0
        (messageIds.filterMap (readJsonBlob reader store)) := by
  unfold formatChunks
  simp only [readStore, bind, Except.bind, root, ids]

/-- When a conversation goes on, its chunks stay what they are, at whatever time the store is
read, and new ones follow.  The chunks have ids of their own and can be stored, and their times
never fall back. -/
theorem formatChunks_of_longer_conversation {reader : ChatReader}
    (prints : ∀ time, reader.rfc3339Millis time ≠ "") (now now' : Nat → DateTime)
    (sessionId : String) {store grown : ChatStore} (continues : Continues reader store grown)
    {grownChunks : List ActivityChunk}
    (formatted : formatChunks reader now' sessionId grown = .ok grownChunks) :
    ∃ chunks, formatChunks reader now sessionId store = .ok chunks ∧ chunks <+: grownChunks ∧
      (chunks.map ActivityChunk.chunkId).Nodup ∧ CanBeStored chunks ∧
      Timed reader (continues.storeMeta.createdAtMs.getD 0) chunks := by
  obtain ⟨storeMeta, grownMeta, rootId, grownRootId, held, more, readStore, readGrown, root,
    grownRoot, sameStart, ids, grownIds, sameBlobs⟩ := continues
  dsimp only
  rw [formatChunks_of_read now' sessionId readGrown grownRoot grownIds, sameStart] at formatted
  rw [formatChunks_of_read now sessionId readStore root ids]
  have blobs : held.filterMap (readJsonBlob reader grown) =
      held.filterMap (readJsonBlob reader store) :=
    List.filterMap_congr fun blobId member => by
      rw [readJsonBlob, readJsonBlob, sameBlobs blobId member]
  rw [List.filterMap_append, blobs, formatMessage_now now' sessionId prints now] at formatted
  obtain ⟨chunks, done, isPrefix⟩ := NumberedOutput.emittedM_prefix formatted
  have distinct : (chunks.map ActivityChunk.chunkId).Nodup :=
    NumberedOutput.nodup_marks ActivityChunk.chunkId NumberedIn.number_eq
      (NumberedOutput.inPlace_emittedM (inPlace_formatMessage now sessionId) done)
  obtain ⟨starts, ordered, within, timed⟩ :=
    NumberedOutput.emittedM_starts (timedFrom_formatMessage now sessionId prints) done
  refine ⟨chunks, done, isPrefix, distinct, canBeStored_of_nodup distinct, starts, ordered, ?_,
    timed⟩
  intro place start found
  have bound := (within place start found).2
  rwa [Nat.zero_add] at bound

section Witness

/-- A root that names blobs by one byte, 32 times. -/
def rootNaming (messages : List UInt8) : List UInt8 :=
  messages.flatMap fun byte => 0x0a :: 0x20 :: List.replicate 32 byte

def blobOf (byte : UInt8) : String := RootBlob.hexEncode (List.replicate 32 byte)

/-- The text of a message of the user. -/
def userBytes : List UInt8 :=
  [123, 34, 114, 111, 108, 101, 34, 58, 34, 117, 115, 101, 114, 34, 44, 34, 99, 111, 110, 116,
    101, 110, 116, 34, 58, 34, 104, 105, 34, 125]

/-- The text of a message of the assistant. -/
def assistantBytes : List UInt8 :=
  [123, 34, 114, 111, 108, 101, 34, 58, 34, 97, 115, 115, 105, 115, 116, 97, 110, 116, 34, 44,
    34, 99, 111, 110, 116, 101, 110, 116, 34, 58, 34, 111, 107, 34, 125]

def chatBlobs (blobId : String) : Option (List UInt8) :=
  if blobId = "root_1" then some (rootNaming [1])
  else if blobId = "root_2" then some (rootNaming [1, 2])
  else if blobId = blobOf 1 then some userBytes
  else if blobId = blobOf 2 then some assistantBytes
  else none

def metaText (rootId : String) : String :=
  "\x7b\x22createdAt\x22:0,\x22latestRootBlobId\x22:\x22" ++ rootId ++ "\x22\x7d"

def chatMeta (rootId : String) : Json :=
  .object [("createdAt", .number (.posInt 0)), ("latestRootBlobId", .string rootId)]

def chatMessage (role text : String) : Json :=
  .object [("content", .string text), ("role", .string role)]

def chatReader : ChatReader where
  parseJson text :=
    if text = metaText "root_1" then some (chatMeta "root_1")
    else if text = metaText "root_2" then some (chatMeta "root_2")
    else none
  parseSlice bytes :=
    if bytes = userBytes then some (chatMessage "user" "hi")
    else if bytes = assistantBytes then some (chatMessage "assistant" "ok")
    else none
  writeFloat _ := []
  parseTime text :=
    if text = "1970-01-01T00:00:00.000Z" then some ⟨0⟩
    else if text = "1970-01-01T00:00:01.000Z" then some ⟨1000000000⟩
    else none
  rfc3339 time :=
    if time.nanoseconds = 0 then "1970-01-01T00:00:00+00:00" else "1970-01-01T00:00:01+00:00"
  rfc3339Millis time :=
    if time.nanoseconds = 0 then "1970-01-01T00:00:00.000Z" else "1970-01-01T00:00:01.000Z"

def chatStore (rootId : String) : ChatStore := ⟨some (metaText rootId), chatBlobs⟩

def answered : Continues chatReader (chatStore "root_1") (chatStore "root_2") where
  storeMeta := ⟨none, some "root_1", none, some 0⟩
  grownMeta := ⟨none, some "root_2", none, some 0⟩
  rootId := "root_1"
  grownRootId := "root_2"
  held := [blobOf 1]
  more := [blobOf 2]
  readStore := rfl
  readGrown := rfl
  root := rfl
  grownRoot := rfl
  sameStart := rfl
  ids := rfl
  grownIds := rfl
  sameBlobs _ _ := rfl

theorem answered_chunks :
    ∃ grownChunks, formatChunks chatReader (fun _ => ⟨1⟩) "agent" (chatStore "root_2") =
        .ok grownChunks ∧
      ∃ chunks, formatChunks chatReader (fun _ => ⟨0⟩) "agent" (chatStore "root_1") = .ok chunks ∧
        chunks <+: grownChunks ∧ (chunks.map ActivityChunk.chunkId).Nodup ∧ CanBeStored chunks ∧
          Timed chatReader (answered.storeMeta.createdAtMs.getD 0) chunks := by
  obtain ⟨grownChunks, formatted⟩ : ∃ grownChunks,
      formatChunks chatReader (fun _ => ⟨1⟩) "agent" (chatStore "root_2") = .ok grownChunks :=
    ⟨_, rfl⟩
  refine ⟨grownChunks, formatted,
    formatChunks_of_longer_conversation ?_ _ _ "agent" answered formatted⟩
  intro time
  unfold chatReader
  dsimp only
  split <;> decide

end Witness

end BrickTrace.CursorAgent
