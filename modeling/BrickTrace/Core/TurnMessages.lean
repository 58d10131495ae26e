import BrickTrace.Lib.Rfc3339
import BrickTrace.Lib.Turns
import BrickTrace.Protocol.Text
import BrickTrace.Core.MetadataDb

/-!
# The final message of a turn

The reason for a change is taken from the last words of the assistant in the turn that the change
falls into.  What comes before the change is told by comparing times as texts; this says when that
finds the message that the instants call for.
-/

set_option autoImplicit false

namespace BrickTrace

open Turns (InOpenTurn IsLast Spoken)

/-- What the assistant says, unless that is blank. -/
def assistantText (chunk : ActivityChunk) : Option String :=
  if chunk.actionType ≠ "assistant" then none
  else (((chunk.result.get "content").bind Json.decodeString).map trim).filter fun text => text ≠ ""

def isUser (chunk : ActivityChunk) : Bool := chunk.function = "user_message"

section Selection
variable (occurredAt : String)

def notAfter (chunk : ActivityChunk) : Bool := chunk.createdAt ≤ occurredAt

variable (chunks : List ActivityChunk)

def selectTurnFinalMessage : Option String :=
  Turns.turnFinal isUser (notAfter occurredAt) assistantText chunks

/-- The chunk whose text is selected, with its place. -/
def selectedMessage : Option (ActivityChunk × Nat) :=
  Turns.finalEntry isUser (notAfter occurredAt) assistantText chunks

/-! ## By instants -/

/-- The chunk is dated at or before the instant. -/
def dueBy (chunk : ActivityChunk) : Bool :=
  match Rfc3339.instant chunk.createdAt, Rfc3339.instant occurredAt with
  | some created, some occurred => created ≤ occurred
  | _, _ => false

/-- The last message at or before the instant in the turn that is open then, or, if that turn has
none, the last one at or before the instant at all. -/
def IsTurnMessage (entry : ActivityChunk × Nat) : Prop :=
  IsLast (fun other => Spoken (dueBy occurredAt) assistantText chunks other ∧
      InOpenTurn isUser (dueBy occurredAt) chunks other) entry ∨
    (∀ other, Spoken (dueBy occurredAt) assistantText chunks other →
      ¬InOpenTurn isUser (dueBy occurredAt) chunks other) ∧
      IsLast (Spoken (dueBy occurredAt) assistantText chunks) entry

/-- What is returned is the text of the message of the turn, and of none that is later. -/
structure SelectsTurnMessage : Prop where
  message : ∀ entry, selectedMessage occurredAt chunks = some entry ↔
    IsTurnMessage occurredAt chunks entry
  text : selectTurnFinalMessage occurredAt chunks =
    (selectedMessage occurredAt chunks).bind fun entry => assistantText entry.1
  notLater : ∀ entry, selectedMessage occurredAt chunks = some entry →
    dueBy occurredAt entry.1 = true

/-- Every chunk is dated, and none before one that precedes it. -/
structure Chronological : Prop where
  dated : ∀ chunk ∈ chunks, (Rfc3339.instant chunk.createdAt).isSome = true
  ascending : chunks.Pairwise fun first second => ∀ firstInstant secondInstant,
    Rfc3339.instant first.createdAt = some firstInstant →
      Rfc3339.instant second.createdAt = some secondInstant → firstInstant ≤ secondInstant

end Selection

section Chronological
variable {occurredAt : String} {chunks : List ActivityChunk}

theorem ordered_dueBy (chronological : Chronological chunks) :
    chunks.Pairwise fun first second => dueBy occurredAt second = true →
      dueBy occurredAt first = true := by
  refine chronological.ascending.imp_of_mem fun {first second} isFirst _ before isDue => ?_
  obtain ⟨firstInstant, atFirst⟩ := Option.isSome_iff_exists.mp (chronological.dated first isFirst)
  unfold dueBy at isDue ⊢
  cases atOccurred : Rfc3339.instant occurredAt with
  | none =>
      rw [atOccurred] at isDue
      cases atSecond : Rfc3339.instant second.createdAt <;> rw [atSecond] at isDue <;> cases isDue
  | some occurred =>
      rw [atOccurred] at isDue
      rw [atFirst]
      cases atSecond : Rfc3339.instant second.createdAt with
      | none =>
          rw [atSecond] at isDue
          cases isDue
      | some secondInstant =>
          rw [atSecond] at isDue
          exact decide_eq_true (Rat.le_trans (before _ _ atFirst atSecond) (of_decide_eq_true isDue))

/-- The message of the turn is selected exactly if it is told by the texts of the times: it is
itself not after the moment, and no later message that counts as earlier takes its place. -/
theorem selectsTurnMessage_iff (chronological : Chronological chunks) :
    SelectsTurnMessage occurredAt chunks ↔
      Turns.FoundByEarly isUser (notAfter occurredAt) assistantText chunks (dueBy occurredAt) := by
  rw [← Turns.finalEntry_eq_iff (ordered_dueBy chronological)]
  have isMessage : ∀ entry, Turns.finalEntry isUser (dueBy occurredAt) assistantText chunks =
      some entry ↔ IsTurnMessage occurredAt chunks entry := Turns.finalEntry_eq_some_iff
  constructor
  · intro selects
    exact Option.ext fun entry => (selects.message entry).trans (isMessage entry).symm
  · intro same
    have selected : selectedMessage occurredAt chunks =
      Turns.finalEntry isUser (dueBy occurredAt) assistantText chunks := same
    refine ⟨fun entry => by rw [selected, isMessage], Turns.turnFinal_eq .., fun entry found => ?_⟩
    rw [selected, Turns.finalEntry_eq_some_iff] at found
    rcases found with ⟨⟨spoken, _⟩, _⟩ | ⟨_, spoken, _⟩
    · exact spoken.2.1
    · exact spoken.2.1

end Chronological

/-! ## A change in another time zone -/

def messageAt (actionType function createdAt content : String) : ActivityChunk where
  chunkId := "claude-" ++ createdAt
  sessionId := "session-1"
  actionType := actionType
  function := function
  args := .object []
  result := .object [("content", .string content)]
  createdAt := createdAt
  threadId := none
  processId := none
  sourceId := none
  sourcePath := none
  sourceRecordKey := none
  sourceLineNumber := none
  sourceMessageId := none
  sourcePartId := none

/-- A prompt, and the answer to it at the given time. -/
def promptAndAnswer (answeredAt : String) : List ActivityChunk :=
  [messageAt "raw" "user_message" "2026-06-20T07:00:00+00:00" "fix the cache",
    messageAt "assistant" "assistant" answeredAt "added a time limit"]

theorem chronological_promptAndAnswer {answeredAt : String} {answered : Rat}
    (isAnswered : Rfc3339.instant answeredAt = some answered) (later : 63949158000 ≤ answered) :
    Chronological (promptAndAnswer answeredAt) := by
  have prompted : Rfc3339.instant "2026-06-20T07:00:00+00:00" = some 63949158000 := by
    decide +kernel
  constructor
  · refine List.forall_mem_cons.mpr ⟨?_, List.forall_mem_singleton.mpr ?_⟩
    · exact Option.isSome_of_eq_some prompted
    · exact Option.isSome_of_eq_some isAnswered
  · refine List.pairwise_pair.mpr fun first second atFirst atSecond => ?_
    cases prompted.symm.trans atFirst
    cases isAnswered.symm.trans atSecond
    exact later

theorem utc_change_selects :
    SelectsTurnMessage "2026-06-20T08:00:00+00:00" (promptAndAnswer "2026-06-20T07:05:00+00:00") := by
  have answered : Rfc3339.instant "2026-06-20T07:05:00+00:00" = some 63949158300 := by decide +kernel
  have chronological := chronological_promptAndAnswer answered (by decide +kernel)
  refine (selectsTurnMessage_iff chronological).mpr
    (Turns.foundByEarly_of_agree (ordered_dueBy chronological) ?_)
  decide +kernel

/-- A change at eight in UTC, dated two hours ahead, takes the answer that was given after it. -/
theorem later_answer_selected :
    Chronological (promptAndAnswer "2026-06-20T08:05:00+00:00") ∧
      ¬SelectsTurnMessage "2026-06-20T10:00:00+02:00"
        (promptAndAnswer "2026-06-20T08:05:00+00:00") := by
  have answered : Rfc3339.instant "2026-06-20T08:05:00+00:00" = some 63949161900 := by decide +kernel
  refine ⟨chronological_promptAndAnswer answered (by decide +kernel), fun selects => ?_⟩
  have returned : selectTurnFinalMessage "2026-06-20T10:00:00+02:00"
      (promptAndAnswer "2026-06-20T08:05:00+00:00") = some "added a time limit" := by decide +kernel
  rw [selects.text] at returned
  obtain ⟨entry, selected, _⟩ := Option.bind_eq_some_iff.mp returned
  have noneDue : ∀ entry ∈ (promptAndAnswer "2026-06-20T08:05:00+00:00").zipIdx,
      (dueBy "2026-06-20T10:00:00+02:00" entry.1 && (assistantText entry.1).isSome) = false := by
    decide +kernel
  have spoken : Spoken (dueBy "2026-06-20T10:00:00+02:00") assistantText
      (promptAndAnswer "2026-06-20T08:05:00+00:00") entry := by
    rcases (selects.message entry).mp selected with ⟨⟨spoken, _⟩, _⟩ | ⟨_, spoken, _⟩
    · exact spoken
    · exact spoken
  have absurd := noneDue entry spoken.1
  rw [spoken.2.1, spoken.2.2] at absurd
  cases absurd

end BrickTrace
