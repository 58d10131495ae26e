import BrickTrace.Core.LogOrder
import BrickTrace.Cli.ClaudeTranscripts
import BrickTrace.Cli.CodexTranscripts

/-!
# Whether the records determine the chunks

The calls that are unfinished at the end of a transcript come out of a hash map.  Their place
is part of their chunk ids, so two runs over the same records agree only when there are not
two of them.
-/

set_option autoImplicit false

namespace BrickTrace

/-- What is compared of a chunk. -/
def ActivityChunk.content (chunk : ActivityChunk) : String × String × Json × Json :=
  (chunk.chunkId, chunk.function, chunk.args, chunk.result)

/-- Any two runs show the same chunks, at whatever time they run and in whatever order they
take the unfinished calls. -/
def DeterminedByRecords (pending : List TranscriptCall)
    (chunks : (Nat → DateTime) → List TranscriptCall → List ActivityChunk) : Prop :=
  ∀ now now' order order', order.Perm pending → order'.Perm pending →
    (chunks now order).map ActivityChunk.content = (chunks now' order').map ActivityChunk.content

section Format
variable (parseRfc3339 : String → Option DateTime) (rfc3339 : DateTime → String)
  (source : TranscriptSource)

def itemContent (sequence : Nat) (item : TranscriptItem) : String × String × Json × Json :=
  (itemChunk parseRfc3339 rfc3339 (fun _ => ⟨0⟩) source sequence item).content

/-- The time of the run is not compared. -/
theorem content_itemChunk (now : Nat → DateTime) (sequence : Nat) (item : TranscriptItem) :
    (itemChunk parseRfc3339 rfc3339 now source sequence item).content =
      itemContent parseRfc3339 rfc3339 source sequence item := by
  cases item with
  | entry entry =>
      obtain ⟨kind, createdAt, text, lineNumber, messageId, partId⟩ := entry
      cases kind <;> rfl
  | finished call output => rfl
  | unfinished call => rfl

theorem map_content_formatEvents (now : Nat → DateTime) (order : List TranscriptCall)
    (events : List TranscriptEvent) :
    (formatEvents parseRfc3339 rfc3339 now source order events).map ActivityChunk.content =
      (PairedCalls.itemsIn TranscriptCall.callId order events).mapIdx
        (itemContent parseRfc3339 rfc3339 source) := by
  unfold formatEvents
  rw [List.mapIdx_eq_zipIdx_map, List.mapIdx_eq_zipIdx_map, List.map_map]
  exact List.map_congr_left fun item _ =>
    content_itemChunk parseRfc3339 rfc3339 source now item.2 item.1

/-- The chunk id of a call ends in the id of the call. -/
theorem itemContent_tells (sequence : Nat) (first second : TranscriptCall)
    (same : itemContent parseRfc3339 rfc3339 source sequence (.unfinished first) =
      itemContent parseRfc3339 rfc3339 source sequence (.unfinished second)) :
    first.callId = second.callId := by
  have ids : source.providerSlug ++ "-tool-" ++ sequence.repr ++ "-" ++ first.callId =
      source.providerSlug ++ "-tool-" ++ sequence.repr ++ "-" ++ second.callId :=
    congrArg Prod.fst same
  exact (String.append_right_inj _).mp ids

theorem formatEvents_determined_iff (events : List TranscriptEvent) :
    DeterminedByRecords (pendingToolCalls events)
        (fun now order => formatEvents parseRfc3339 rfc3339 now source order events) ↔
      (unansweredCalls events).length ≤ 1 := by
  have agree := PairedCalls.same_views_iff TranscriptCall.callId
    (itemContent parseRfc3339 rfc3339 source) (itemContent_tells parseRfc3339 rfc3339 source) events
  refine Iff.trans ⟨?_, ?_⟩ agree
  · intro determined order order' perm perm'
    have same := determined (fun _ => ⟨0⟩) (fun _ => ⟨0⟩) order order' perm perm'
    rwa [map_content_formatEvents, map_content_formatEvents] at same
  · intro same now now' order order' perm perm'
    rw [map_content_formatEvents, map_content_formatEvents]
    exact same order order' perm perm'

end Format

/-- The records determine the chunks of a transcript exactly if at most one of its calls is
neither answered nor made again later. -/
theorem formatChunks_determined_iff (parseRfc3339 : String → Option DateTime)
    (rfc3339 : DateTime → String) (writeFloat : UInt64 → List Char)
    (parseJson : String → Option Json) (sessionId path : String) (records : List JsonlRecord) :
    (DeterminedByRecords (pendingToolCalls (Claude.transcriptEvents writeFloat records))
        (fun now order =>
          Claude.formatChunks writeFloat parseRfc3339 rfc3339 now sessionId path order records) ↔
      (unansweredCalls (Claude.transcriptEvents writeFloat records)).length ≤ 1) ∧
    (DeterminedByRecords (pendingToolCalls (Codex.transcriptEvents parseJson records))
        (fun now order =>
          Codex.formatChunks parseJson parseRfc3339 rfc3339 now sessionId path order records) ↔
      (unansweredCalls (Codex.transcriptEvents parseJson records)).length ≤ 1) :=
  ⟨formatEvents_determined_iff parseRfc3339 rfc3339 _ _,
    formatEvents_determined_iff parseRfc3339 rfc3339 _ _⟩

/-! ## Two unfinished calls -/

def toolUseItem (callId : String) : Json :=
  .object [("id", .string callId), ("name", .string "Read"), ("type", .string "tool_use")]

/-- An assistant turn that makes two calls, the last one of its session. -/
def twoUnfinishedUses : List JsonlRecord :=
  [⟨.object [("message", .object [("content", .array [toolUseItem "a", toolUseItem "b"])]),
    ("type", .string "assistant")], 1⟩]

/-- The same of Codex. -/
def twoUnfinishedCalls : List JsonlRecord :=
  ["a", "b"].map fun callId =>
    ⟨.object [("payload", .object [("call_id", .string callId), ("name", .string "read"),
      ("type", .string "function_call")])], 1⟩

theorem unfinished_calls_swap :
    ¬ DeterminedByRecords
        (pendingToolCalls (Claude.transcriptEvents (fun _ => []) twoUnfinishedUses))
        (fun now order => Claude.formatChunks (fun _ => []) (fun _ => none) toRfc3339 now
          "session-1" "session-1.jsonl" order twoUnfinishedUses) ∧
      ¬ DeterminedByRecords
        (pendingToolCalls (Codex.transcriptEvents (fun _ => none) twoUnfinishedCalls))
        (fun now order => Codex.formatChunks (fun _ => none) (fun _ => none) toRfc3339 now
          "session-1" "session-1.jsonl" order twoUnfinishedCalls) := by
  constructor
  · intro determined
    have swapped := determined (fun _ => ⟨0⟩) (fun _ => ⟨0⟩) _ _ (List.Perm.refl _)
      (List.reverse_perm _)
    have ids := congrArg (List.map Prod.fst) swapped
    exact absurd ids (by decide +kernel)
  · intro determined
    have swapped := determined (fun _ => ⟨0⟩) (fun _ => ⟨0⟩) _ _ (List.Perm.refl _)
      (List.reverse_perm _)
    have ids := congrArg (List.map Prod.fst) swapped
    exact absurd ids (by decide +kernel)

end BrickTrace
