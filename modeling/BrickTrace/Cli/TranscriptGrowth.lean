import BrickTrace.Core.SourceSessionChunks
import BrickTrace.Cli.TranscriptOrder

/-!
# The chunks of a transcript that grows

A session file is read again from its beginning when it has grown.  What was done before is
read into the same chunks, and a chunk id tells the place of its chunk, so the chunks of a
session can always be stored.
-/

set_option autoImplicit false

namespace BrickTrace

open KeyedRows (KeyedTable)

section Format
variable (parseRfc3339 : String → Option DateTime) (rfc3339 : DateTime → String)
  (source : TranscriptSource)

/-- The chunks of `formatEvents` other than those of unfinished calls. -/
def settledChunks (now : Nat → DateTime) (order : List TranscriptCall)
    (events : List TranscriptEvent) : List ActivityChunk :=
  ((PairedCalls.itemsIn TranscriptCall.callId order events).zipIdx.filter
    fun placed => !placed.1.isUnfinished).map fun placed =>
      itemChunk parseRfc3339 rfc3339 now source placed.2 placed.1

theorem settledChunks_eq (now : Nat → DateTime) (order : List TranscriptCall)
    (events : List TranscriptEvent) :
    settledChunks parseRfc3339 rfc3339 source now order events =
      (PairedCalls.read TranscriptCall.callId events).items.mapIdx
        (itemChunk parseRfc3339 rfc3339 now source) := by
  unfold settledChunks
  rw [PairedCalls.filter_finished_itemsIn, List.mapIdx_eq_zipIdx_map]

/-- What was settled is settled in the same chunks when there are more events. -/
theorem settledChunks_prefix (now now' : Nat → DateTime) (order order' : List TranscriptCall)
    (events more : List TranscriptEvent) :
    (settledChunks parseRfc3339 rfc3339 source now order events).map ActivityChunk.content <+:
      (formatEvents parseRfc3339 rfc3339 now' source order' (events ++ more)).map
        ActivityChunk.content := by
  obtain ⟨others, isWhole⟩ := PairedCalls.items_prefix_append TranscriptCall.callId events more
  have settled : (settledChunks parseRfc3339 rfc3339 source now order events).map
      ActivityChunk.content = (PairedCalls.read TranscriptCall.callId events).items.mapIdx
        (itemContent parseRfc3339 rfc3339 source) := by
    rw [settledChunks_eq, List.mapIdx_eq_zipIdx_map, List.mapIdx_eq_zipIdx_map, List.map_map]
    exact List.map_congr_left fun placed _ =>
      content_itemChunk parseRfc3339 rfc3339 source now placed.2 placed.1
  rw [settled, map_content_formatEvents]
  unfold PairedCalls.itemsIn
  rw [← isWhole, List.append_assoc, List.mapIdx_append]
  exact List.prefix_append _ _

/-! ## Chunk ids -/

/-- What stands between the provider and the number in a chunk id. -/
def kindMark : TranscriptItem → String
  | .entry entry =>
      match entry.kind with
      | .user => "-user-"
      | .assistant => "-asst-"
      | .thinking => "-thinking-"
  | .finished _ _ => "-tool-"
  | .unfinished _ => "-tool-"

/-- What stands after the number in a chunk id. -/
def callMark : TranscriptItem → String
  | .entry _ => ""
  | .finished call _ => "-" ++ call.callId
  | .unfinished call => "-" ++ call.callId

theorem chunkId_itemChunk (now : Nat → DateTime) (sequence : Nat) (item : TranscriptItem) :
    (itemChunk parseRfc3339 rfc3339 now source sequence item).chunkId =
      source.providerSlug ++ (kindMark item ++ (sequence.repr ++ callMark item)) := by
  have call : ∀ callId : String,
      source.providerSlug ++ "-tool-" ++ sequence.repr ++ "-" ++ callId =
        source.providerSlug ++ ("-tool-" ++ (sequence.repr ++ ("-" ++ callId))) := by
    intro callId
    simp only [String.append_assoc]
  cases item with
  | entry entry =>
      obtain ⟨kind, createdAt, text, lineNumber, messageId, partId⟩ := entry
      have message : ∀ mark : String, source.providerSlug ++ mark ++ sequence.repr =
          source.providerSlug ++ (mark ++ (sequence.repr ++ "")) := by
        intro mark
        rw [String.append_empty, String.append_assoc]
      cases kind with
      | user => exact message "-user-"
      | assistant => exact message "-asst-"
      | thinking => exact message "-thinking-"
  | finished made output => exact call made.callId
  | unfinished made => exact call made.callId

theorem takeWhile_isDigit_repr (number : Nat) {after : String}
    (ends : ∀ char ∈ after.toList.head?, char.isDigit = false) :
    (number.repr ++ after).toList.takeWhile Char.isDigit = number.repr.toList := by
  have digits : ∀ char ∈ number.repr.toList, char.isDigit = true := by
    intro char member
    rw [Nat.toList_repr] at member
    exact Nat.isDigit_of_mem_toDigits (by decide) (by decide) member
  have none : after.toList.takeWhile Char.isDigit = [] := by
    cases isAfter : after.toList with
    | nil => rfl
    | cons char rest =>
        rw [isAfter] at ends
        exact List.takeWhile_cons_of_neg (by rw [ends char rfl]; exact Bool.false_ne_true)
  rw [String.toList_append, List.takeWhile_append_of_pos digits, none, List.append_nil]

theorem not_isDigit_callMark (item : TranscriptItem) :
    ∀ char ∈ (callMark item).toList.head?, char.isDigit = false := by
  have hyphen : ∀ callId : String, ∀ char ∈ ("-" ++ callId).toList.head?, char.isDigit = false := by
    intro callId char isFirst
    rw [String.toList_append] at isFirst
    cases isFirst
    decide
  cases item with
  | entry entry => exact fun char isFirst => nomatch isFirst
  | finished call output => exact hyphen call.callId
  | unfinished call => exact hyphen call.callId

theorem kindMark_cases (item : TranscriptItem) :
    kindMark item = "-user-" ∨ kindMark item = "-asst-" ∨ kindMark item = "-thinking-" ∨
      kindMark item = "-tool-" := by
  cases item with
  | entry entry =>
      obtain ⟨kind, createdAt, text, lineNumber, messageId, partId⟩ := entry
      cases kind with
      | user => exact Or.inl rfl
      | assistant => exact Or.inr (Or.inl rfl)
      | thinking => exact Or.inr (Or.inr (Or.inl rfl))
  | finished call output => exact Or.inr (Or.inr (Or.inr rfl))
  | unfinished call => exact Or.inr (Or.inr (Or.inr rfl))

/-- No mark of a kind goes on where another one ends. -/
theorem kindMark_of_append {first second : TranscriptItem} {rest rest' : String}
    (same : kindMark first ++ rest = kindMark second ++ rest') :
    kindMark first = kindMark second := by
  have starts : ∀ (item : TranscriptItem) (rest : String),
      (kindMark item ++ rest).toList.take 3 = (kindMark item).toList.take 3 := by
    intro item rest
    rw [String.toList_append]
    apply List.take_append_of_le_length
    rcases kindMark_cases item with isMark | isMark | isMark | isMark <;> rw [isMark] <;> decide
  have begins := starts first rest
  rw [same, starts] at begins
  rcases kindMark_cases first with isFirst | isFirst | isFirst | isFirst <;>
    rcases kindMark_cases second with isSecond | isSecond | isSecond | isSecond <;>
      rw [isFirst, isSecond] at begins ⊢ <;> exact absurd begins (by decide)

/-- A chunk id tells the place of its chunk. -/
theorem place_of_chunkId {now : Nat → DateTime} {place place' : Nat} {item item' : TranscriptItem}
    (same : (itemChunk parseRfc3339 rfc3339 now source place item).chunkId =
      (itemChunk parseRfc3339 rfc3339 now source place' item').chunkId) : place = place' := by
  rw [chunkId_itemChunk, chunkId_itemChunk, String.append_right_inj] at same
  rw [kindMark_of_append same, String.append_right_inj] at same
  have digits := takeWhile_isDigit_repr place (not_isDigit_callMark item)
  rw [same, takeWhile_isDigit_repr place' (not_isDigit_callMark item'), Nat.toList_repr,
    Nat.toList_repr] at digits
  rw [← Nat.ofDigitChars_ten_toDigits (n := place), ← digits, Nat.ofDigitChars_ten_toDigits]

theorem nodup_chunkIds (now : Nat → DateTime) (order : List TranscriptCall)
    (events : List TranscriptEvent) :
    ((formatEvents parseRfc3339 rfc3339 now source order events).map
      ActivityChunk.chunkId).Nodup := by
  apply List.pairwise_iff_getElem.mpr
  intro place place' bound bound' before same
  simp only [formatEvents, List.getElem_map, List.getElem_mapIdx] at same
  exact absurd (place_of_chunkId parseRfc3339 rfc3339 source same) (Nat.ne_of_lt before)

end Format

/-- The id of the chunk is one that a provider gives the chunk of a number. -/
def NumberedIn (providerSlug : String) (number : Nat) (chunk : ActivityChunk) : Prop :=
  ∃ item : TranscriptItem,
    chunk.chunkId = providerSlug ++ (kindMark item ++ (number.repr ++ callMark item))

theorem NumberedIn.number_eq {providerSlug : String} {number other : Nat}
    {chunk chunk' : ActivityChunk} (numbered : NumberedIn providerSlug number chunk)
    (numbered' : NumberedIn providerSlug other chunk') (same : chunk.chunkId = chunk'.chunkId) :
    number = other := by
  obtain ⟨item, isId⟩ := numbered
  obtain ⟨item', isId'⟩ := numbered'
  refine @place_of_chunkId (fun _ => none) (fun _ => "") ⟨"", providerSlug, "", ""⟩
    (fun _ => ⟨0⟩) _ _ item item' ?_
  rw [chunkId_itemChunk, chunkId_itemChunk]
  exact isId.symm.trans (same.trans isId')

section Numbered
variable (parseRfc3339 : String → Option DateTime) (rfc3339 : DateTime → String)
  (sessionId providerSlug : String) (now : DateTime) (number : Nat)

theorem numberedIn_user (createdAt message : String) :
    NumberedIn providerSlug number
      (userMessageChunk parseRfc3339 rfc3339 sessionId providerSlug now number createdAt message) :=
  ⟨.entry ⟨.user, createdAt, message, 0, none, none⟩,
    chunkId_itemChunk parseRfc3339 rfc3339 ⟨"", providerSlug, "", sessionId⟩ (fun _ => now) number
      (.entry ⟨.user, createdAt, message, 0, none, none⟩)⟩

theorem numberedIn_assistant (createdAt message : String) :
    NumberedIn providerSlug number (assistantMessageChunk parseRfc3339 rfc3339 sessionId
      providerSlug now number createdAt message) :=
  ⟨.entry ⟨.assistant, createdAt, message, 0, none, none⟩,
    chunkId_itemChunk parseRfc3339 rfc3339 ⟨"", providerSlug, "", sessionId⟩ (fun _ => now) number
      (.entry ⟨.assistant, createdAt, message, 0, none, none⟩)⟩

theorem numberedIn_thinking (createdAt thought : String) :
    NumberedIn providerSlug number
      (thinkingChunk parseRfc3339 rfc3339 sessionId providerSlug now number createdAt thought) :=
  ⟨.entry ⟨.thinking, createdAt, thought, 0, none, none⟩,
    chunkId_itemChunk parseRfc3339 rfc3339 ⟨"", providerSlug, "", sessionId⟩ (fun _ => now) number
      (.entry ⟨.thinking, createdAt, thought, 0, none, none⟩)⟩

theorem numberedIn_toolCall (call : ImportedToolCall) (output : String) :
    NumberedIn providerSlug number
      (toolCallChunk parseRfc3339 rfc3339 sessionId providerSlug now number call output) :=
  ⟨.unfinished ⟨call, 0⟩,
    chunkId_itemChunk parseRfc3339 rfc3339 ⟨"", providerSlug, "", sessionId⟩ (fun _ => now) number
      (.unfinished ⟨call, 0⟩)⟩

end Numbered

/-! ## The table of chunks -/

/-- Whether the chunks of a session can take the place of those it has in a table. -/
def CanBeStored (chunks : List ActivityChunk) : Prop :=
  ∀ (table : KeyedTable SourceSessionChunkRow.key) (sourceId externalSessionId : String),
    ∃ written, (chunks.mapIdx (MetadataDb.chunkRow sourceId externalSessionId)).foldlM
      KeyedTable.insert (table.deleteWhere fun row =>
        row.sourceId == sourceId && row.externalSessionId == externalSessionId) = .ok written

theorem canBeStored_of_nodup {chunks : List ActivityChunk}
    (distinct : (chunks.map ActivityChunk.chunkId).Nodup) : CanBeStored chunks := by
  intro table sourceId externalSessionId
  have keys : ((chunks.mapIdx (MetadataDb.chunkRow sourceId externalSessionId)).map
      SourceSessionChunkRow.key).Nodup := by
    apply List.pairwise_iff_getElem.mpr
    intro place place' bound bound' before same
    simp only [List.getElem_map, List.getElem_mapIdx, SourceSessionChunkRow.key,
      MetadataDb.chunkRow, Prod.mk.injEq, true_and] at same
    rw [List.length_map, List.length_mapIdx] at bound bound'
    have apart := List.pairwise_iff_getElem.mp distinct place place'
      (by rwa [List.length_map]) (by rwa [List.length_map]) before
    rw [List.getElem_map, List.getElem_map] at apart
    exact apart same
  have free : ∀ row ∈ chunks.mapIdx (MetadataDb.chunkRow sourceId externalSessionId),
      SourceSessionChunkRow.key row ∉ (table.deleteWhere fun row =>
        row.sourceId == sourceId && row.externalSessionId == externalSessionId).rows.map
          SourceSessionChunkRow.key := by
    intro row added held
    obtain ⟨place, _, rfl⟩ := List.mem_mapIdx.mp added
    obtain ⟨other, isHeld, sameKey⟩ := List.mem_map.mp held
    have kept := (List.mem_filter.mp isHeld).2
    simp only [SourceSessionChunkRow.key, MetadataDb.chunkRow, Prod.mk.injEq] at sameKey
    simp [sameKey.1] at kept
  obtain ⟨written, done, _⟩ := KeyedTable.foldlM_insert_ok keys free
  exact ⟨written, done⟩

/-! ## Transcripts -/

/-- What was settled in a transcript stays what it is when the transcript grows, and the
chunks of every transcript have ids of their own. -/
theorem formatChunks_of_more_records (parseRfc3339 : String → Option DateTime)
    (rfc3339 : DateTime → String) (writeFloat : UInt64 → List Char)
    (parseJson : String → Option Json) (sessionId path : String) (records more : List JsonlRecord)
    (now now' : Nat → DateTime) (order order' : List TranscriptCall) :
    (((settledChunks parseRfc3339 rfc3339 (Claude.transcriptSource path sessionId) now order
            (Claude.transcriptEvents writeFloat records)).map ActivityChunk.content <+:
          (Claude.formatChunks writeFloat parseRfc3339 rfc3339 now' sessionId path order'
            (records ++ more)).map ActivityChunk.content) ∧
        ((Claude.formatChunks writeFloat parseRfc3339 rfc3339 now sessionId path order
            records).map ActivityChunk.chunkId).Nodup ∧
        CanBeStored (Claude.formatChunks writeFloat parseRfc3339 rfc3339 now sessionId path order
          records)) ∧
      ((settledChunks parseRfc3339 rfc3339 (Codex.transcriptSource path sessionId) now order
            (Codex.transcriptEvents parseJson records)).map ActivityChunk.content <+:
          (Codex.formatChunks parseJson parseRfc3339 rfc3339 now' sessionId path order'
            (records ++ more)).map ActivityChunk.content) ∧
        ((Codex.formatChunks parseJson parseRfc3339 rfc3339 now sessionId path order
            records).map ActivityChunk.chunkId).Nodup ∧
        CanBeStored (Codex.formatChunks parseJson parseRfc3339 rfc3339 now sessionId path order
          records) := by
  have claude := nodup_chunkIds parseRfc3339 rfc3339 (Claude.transcriptSource path sessionId) now
    order (Claude.transcriptEvents writeFloat records)
  have codex := nodup_chunkIds parseRfc3339 rfc3339 (Codex.transcriptSource path sessionId) now
    order (Codex.transcriptEvents parseJson records)
  refine ⟨⟨?_, claude, canBeStored_of_nodup claude⟩, ?_, codex, canBeStored_of_nodup codex⟩
  · unfold Claude.formatChunks Claude.transcriptEvents
    rw [List.flatMap_append]
    exact settledChunks_prefix parseRfc3339 rfc3339 _ now now' order order' _ _
  · unfold Codex.formatChunks Codex.transcriptEvents
    rw [List.flatMap_append]
    exact settledChunks_prefix parseRfc3339 rfc3339 _ now now' order order' _ _

end BrickTrace
