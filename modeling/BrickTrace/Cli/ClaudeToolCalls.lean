import BrickTrace.Cli.TranscriptOrder

/-!
# The outputs of Claude Code's tool calls

Results of calls that were made together stand in one user record.  The reader takes the
first of them only, so a call keeps the output it was given exactly when its result comes
first in its record, or is empty.
-/

set_option autoImplicit false

namespace BrickTrace.Claude

open Composer (textAt)

/-! ## Uses and results in the records -/

def recordContent (record : JsonlRecord) : Option Json :=
  (record.value.get "message").bind (Json.get "content")

def hasRole (role : String) (record : JsonlRecord) : Bool :=
  (record.value.get "message").isSome && (textAt "type" record.value).getD "" == role

def isToolUse (item : Json) : Bool := (textAt "type" item).getD "" == "tool_use"

def toolUsesIn (record : JsonlRecord) : List Json :=
  if hasRole "assistant" record then
    (claudeContentItems (recordContent record)).filter isToolUse
  else []

/-- A use of a tool, and the records after the one it is in. -/
structure ToolUse where
  item : Json
  later : List JsonlRecord

def ToolUse.callId (use : ToolUse) : Option String := textAt "id" use.item

def toolUses : List JsonlRecord → List ToolUse
  | [] => []
  | record :: rest => (toolUsesIn record).map (ToolUse.mk · rest) ++ toolUses rest

section Results
variable (writeFloat : UInt64 → List Char)

/-- The texts of the results for a call in a user record, wherever they stand in its content. -/
def toolResultsIn (callId : String) (record : JsonlRecord) : List String :=
  if hasRole "user" record then
    ((claudeContentItems (recordContent record)).filter fun item =>
      isToolResult item && textAt "tool_use_id" item == some callId).map fun item =>
        toolResultOutput writeFloat (item.get "content")
  else []

/-- The result that comes first in a user record. -/
def leadingResult (record : JsonlRecord) : Option (String × String) :=
  if hasRole "user" record then claudeToolResultText writeFloat (recordContent record) else none

def leadsWith (callId : String) (record : JsonlRecord) : Bool :=
  (leadingResult writeFloat record).any fun result => result.1 == callId

def laterResults (callId : String) (later : List JsonlRecord) : List String :=
  later.flatMap (toolResultsIn writeFloat callId)

/-! ## What the chunks show -/

end Results

/-- The call of a tool chunk, and its output. -/
def toolOutput (chunk : ActivityChunk) : Option (String × String) :=
  if chunk.actionType = "tool_call" then
    some ((textAt "call_id" chunk.result).getD "", (textAt "output" chunk.result).getD "")
  else none

section Results
variable (writeFloat : UInt64 → List Char)

/-- Every use has one tool chunk, with the text of its result, and there are no others. -/
structure OutputsFit (records : List JsonlRecord) (chunks : List ActivityChunk) : Prop where
  oneEach : ((chunks.filterMap toolOutput).map fun shown => some shown.1).Perm
    ((toolUses records).map ToolUse.callId)
  outputs : ∀ use ∈ toolUses records, ∀ callId, use.callId = some callId →
    ∀ shown ∈ chunks.filterMap toolOutput, shown.1 = callId →
      (∀ text ∈ laterResults writeFloat callId use.later, shown.2 = text) ∧
        (laterResults writeFloat callId use.later = [] → shown.2 = "")

/-- All results for the call have one text; unless it is empty, one of them comes first in
its record. -/
def ResultsLead (callId : String) (later : List JsonlRecord) : Prop :=
  laterResults writeFloat callId later = [] ∨
    ∃ text, (∀ result ∈ laterResults writeFloat callId later, result = text) ∧
      (text = "" ∨ ∃ record ∈ later, leadsWith writeFloat callId record = true)

/-! ## The events of a record -/

theorem recordContent_of_message {record : JsonlRecord} {message : Json}
    (found : record.value.get "message" = some message) :
    recordContent record = message.get "content" := by
  unfold recordContent
  rw [found]
  rfl

theorem recordEvents_user {record : JsonlRecord} (isUser : hasRole "user" record = true) :
    recordEvents writeFloat record =
      userEvents writeFloat record.createdAt record.lineNumber (recordContent record) := by
  unfold hasRole at isUser
  obtain ⟨present, role⟩ := Bool.and_eq_true_iff.mp isUser
  obtain ⟨message, found⟩ := Option.isSome_iff_exists.mp present
  unfold recordEvents
  rw [found, eq_of_beq role, recordContent_of_message found]
  rfl

theorem recordEvents_assistant {record : JsonlRecord} (isAssistant : hasRole "assistant" record = true) :
    recordEvents writeFloat record =
      (claudeContentItems (recordContent record)).flatMap
        (assistantItemEvents record.createdAt record.lineNumber) := by
  unfold hasRole at isAssistant
  obtain ⟨present, role⟩ := Bool.and_eq_true_iff.mp isAssistant
  obtain ⟨message, found⟩ := Option.isSome_iff_exists.mp present
  unfold recordEvents
  rw [found, eq_of_beq role, recordContent_of_message found]
  rfl

theorem recordEvents_other {record : JsonlRecord} (notUser : hasRole "user" record = false)
    (notAssistant : hasRole "assistant" record = false) : recordEvents writeFloat record = [] := by
  unfold hasRole at notUser notAssistant
  unfold recordEvents
  cases found : record.value.get "message" with
  | none => rfl
  | some message =>
      rw [found] at notUser notAssistant
      dsimp only
      split
      · rename_i role
        rw [role] at notUser
        cases notUser
      · rename_i role
        rw [role] at notAssistant
        cases notAssistant
      · rfl

/-! ### Calls -/

/-- The id of a use that has a name also. -/
def calledId (item : Json) : Option String := do
  let callId ← textAt "id" item
  let _ ← textAt "name" item
  return callId

theorem callId_of_item (item : Json) (createdAt : String) :
    (claudeToolCallFromItem item createdAt).map ImportedToolCall.callId = calledId item := by
  unfold claudeToolCallFromItem calledId
  cases textAt "id" item with
  | none => rfl
  | some callId =>
      cases textAt "name" item with
      | none => rfl
      | some rawName => rfl

theorem outcome_assistantItem (id createdAt : String) (lineNumber : UInt64) (item : Json) :
    PairedCalls.outcome id (assistantItemEvents createdAt lineNumber item) = none := by
  unfold assistantItemEvents
  dsimp only
  split
  · cases textAt "text" item <;> rfl
  · cases textAt "thinking" item <;> rfl
  · cases claudeToolCallFromItem item createdAt <;> rfl
  · rfl

theorem calls_assistantItem (createdAt : String) (lineNumber : UInt64) (item : Json) :
    (PairedCalls.calls (assistantItemEvents createdAt lineNumber item)).map TranscriptCall.callId =
      if isToolUse item then (calledId item).toList else [] := by
  rw [← callId_of_item item createdAt]
  unfold assistantItemEvents isToolUse
  dsimp only
  split
  · rename_i type
    rw [type]
    cases textAt "text" item <;> rfl
  · rename_i type
    rw [type]
    cases textAt "thinking" item <;> rfl
  · rename_i type
    rw [type, if_pos (beq_self_eq_true _)]
    cases claudeToolCallFromItem item createdAt <;> rfl
  · rename_i other
    rw [if_neg fun isUse => other (eq_of_beq isUse)]
    rfl

theorem outcome_assistant {record : JsonlRecord} (isAssistant : hasRole "assistant" record = true)
    (id : String) : PairedCalls.outcome id (recordEvents writeFloat record) = none := by
  rw [recordEvents_assistant writeFloat isAssistant]
  induction claudeContentItems (recordContent record) with
  | nil => rfl
  | cons item rest ih =>
      rw [List.flatMap_cons, PairedCalls.outcome_append, outcome_assistantItem, ih]
      rfl

theorem calls_assistant {record : JsonlRecord} (isAssistant : hasRole "assistant" record = true) :
    (PairedCalls.calls (recordEvents writeFloat record)).map TranscriptCall.callId =
      (toolUsesIn record).filterMap calledId := by
  unfold toolUsesIn
  rw [recordEvents_assistant writeFloat isAssistant, if_pos isAssistant]
  induction claudeContentItems (recordContent record) with
  | nil => rfl
  | cons item rest ih =>
      rw [List.flatMap_cons, PairedCalls.calls_append, List.map_append, calls_assistantItem, ih,
        List.filter_cons]
      split
      · rw [List.filterMap_cons]
        cases calledId item <;> rfl
      · rfl

/-! ### Results -/

theorem calls_user {record : JsonlRecord} (isUser : hasRole "user" record = true) :
    PairedCalls.calls (recordEvents writeFloat record) = [] := by
  rw [recordEvents_user writeFloat isUser]
  unfold userEvents
  split
  · rfl
  · cases (recordContent record).bind textFromValue <;> rfl

theorem outcome_record (record : JsonlRecord) (id : String) :
    PairedCalls.outcome id (recordEvents writeFloat record) =
      (leadingResult writeFloat record).bind fun result =>
        if id = result.1 then some result.2 else none := by
  unfold leadingResult
  by_cases isUser : hasRole "user" record = true
  · rw [recordEvents_user writeFloat isUser, if_pos isUser]
    unfold userEvents
    cases claudeToolResultText writeFloat (recordContent record) with
    | none =>
        dsimp only
        cases (recordContent record).bind textFromValue <;> rfl
    | some result => rfl
  · rw [if_neg isUser]
    by_cases isAssistant : hasRole "assistant" record = true
    · exact outcome_assistant writeFloat isAssistant id
    · rw [recordEvents_other writeFloat (Bool.not_eq_true _ ▸ isUser)
        (Bool.not_eq_true _ ▸ isAssistant)]
      rfl

/-! ## The outputs of the uses -/

/-- The text that the reader gives a call: that of the first record which leads with a result
for it. -/
def answer (callId : String) (later : List JsonlRecord) : Option String :=
  PairedCalls.outcome callId (transcriptEvents writeFloat later)

theorem answer_cons (callId : String) (record : JsonlRecord) (rest : List JsonlRecord) :
    answer writeFloat callId (record :: rest) =
      ((leadingResult writeFloat record).bind fun result =>
        if callId = result.1 then some result.2 else none).or (answer writeFloat callId rest) := by
  unfold answer transcriptEvents
  rw [List.flatMap_cons, PairedCalls.outcome_append, outcome_record]

/-- A use with its answer, unless it has no name. -/
def shownUse (use : ToolUse) : Option (String × String) :=
  (calledId use.item).map fun callId => (callId, (answer writeFloat callId use.later).getD "")

def shownCall (outcome : TranscriptCall × Option String) : String × String :=
  (outcome.1.callId, outcome.2.getD "")

theorem callOutcomes_transcript (records : List JsonlRecord) :
    (PairedCalls.callOutcomes TranscriptCall.callId (transcriptEvents writeFloat records)).map shownCall =
      (toolUses records).filterMap (shownUse writeFloat) := by
  induction records with
  | nil => rfl
  | cons record rest ih =>
      rw [transcriptEvents, List.flatMap_cons, toolUses, List.filterMap_append]
      change (PairedCalls.callOutcomes _ (_ ++ transcriptEvents writeFloat rest)).map shownCall = _
      by_cases isAssistant : hasRole "assistant" record = true
      · rw [PairedCalls.callOutcomes_append_of_no_results _ (outcome_assistant writeFloat isAssistant),
          List.map_append, ih, List.map_map, List.filterMap_map]
        congr 1
        have calls := congrArg (List.map fun callId =>
          (callId, (answer writeFloat callId rest).getD "")) (calls_assistant writeFloat isAssistant)
        rw [List.map_map, List.map_filterMap] at calls
        exact calls
      · have noUses : toolUsesIn record = [] := if_neg isAssistant
        have noCalls : PairedCalls.calls (recordEvents writeFloat record) = [] := by
          by_cases isUser : hasRole "user" record = true
          · exact calls_user writeFloat isUser
          · rw [recordEvents_other writeFloat (Bool.not_eq_true _ ▸ isUser)
              (Bool.not_eq_true _ ▸ isAssistant)]
            rfl
        rw [PairedCalls.callOutcomes_append_of_calls_eq_nil _ noCalls, ih, noUses]
        rfl

theorem calls_transcript (records : List JsonlRecord) :
    (PairedCalls.calls (transcriptEvents writeFloat records)).map TranscriptCall.callId =
      (toolUses records).filterMap fun use => calledId use.item := by
  have outcomes := congrArg (List.map Prod.fst) (callOutcomes_transcript writeFloat records)
  rw [List.map_map, List.map_filterMap] at outcomes
  have ids : (PairedCalls.calls (transcriptEvents writeFloat records)).map TranscriptCall.callId =
      (PairedCalls.callOutcomes TranscriptCall.callId (transcriptEvents writeFloat records)).map
        (Prod.fst ∘ shownCall) := by
    induction transcriptEvents writeFloat records with
    | nil => rfl
    | cons event rest ih =>
        cases event with
        | entry entry => exact ih
        | result id output => exact ih
        | call call => exact congrArg (call.callId :: ·) ih
  rw [ids, outcomes]
  congr 1
  funext use
  unfold shownUse
  cases calledId use.item <;> rfl

/-! ### Answers and results -/

theorem mem_toolResultsIn_of_leadingResult {record : JsonlRecord} {callId text : String}
    (leads : leadingResult writeFloat record = some (callId, text)) :
    text ∈ toolResultsIn writeFloat callId record := by
  unfold leadingResult at leads
  split at leads
  · rename_i isUser
    unfold toolResultsIn
    rw [if_pos isUser]
    unfold claudeToolResultText at leads
    cases content : recordContent record with
    | none =>
        rw [content] at leads
        cases leads
    | some value =>
        rw [content] at leads
        cases value with
        | array items =>
            obtain ⟨item, found, named⟩ := Option.bind_eq_some_iff.mp leads
            obtain ⟨id, ofCall, same⟩ := Option.bind_eq_some_iff.mp named
            cases same
            refine List.mem_map.mpr ⟨item, List.mem_filter.mpr ⟨List.mem_of_find?_eq_some found, ?_⟩, rfl⟩
            rw [List.find?_some found, ofCall]
            exact beq_self_eq_true _
        | _ => cases leads
  · cases leads

/-- What a record leads with for the call. -/
def leadingText (callId : String) (record : JsonlRecord) : Option String :=
  (leadingResult writeFloat record).bind fun result =>
    if callId = result.1 then some result.2 else none

theorem leadingText_eq_some {callId text : String} {record : JsonlRecord}
    (leads : leadingText writeFloat callId record = some text) :
    leadingResult writeFloat record = some (callId, text) := by
  obtain ⟨⟨id, output⟩, found, same⟩ := Option.bind_eq_some_iff.mp leads
  split at same
  · rename_i ofCall
    cases same
    rw [found, ofCall]
  · cases same

theorem isSome_leadingText (callId : String) (record : JsonlRecord) :
    (leadingText writeFloat callId record).isSome = leadsWith writeFloat callId record := by
  unfold leadingText leadsWith
  cases leadingResult writeFloat record with
  | none => rfl
  | some result =>
      rw [Option.bind_some, Option.any_some]
      split
      · rename_i ofCall
        rw [ofCall, beq_self_eq_true]
        rfl
      · rename_i other
        exact (beq_eq_false_iff_ne.mpr fun same => other same.symm).symm

theorem answer_eq_findSome (callId : String) (later : List JsonlRecord) :
    answer writeFloat callId later = later.findSome? (leadingText writeFloat callId) := by
  induction later with
  | nil => rfl
  | cons record rest ih =>
      rw [answer_cons, ih, List.findSome?_cons]
      change (leadingText writeFloat callId record).or _ = _
      cases leadingText writeFloat callId record <;> rfl

theorem mem_laterResults_of_answer {callId text : String} {later : List JsonlRecord}
    (answered : answer writeFloat callId later = some text) :
    text ∈ laterResults writeFloat callId later := by
  rw [answer_eq_findSome] at answered
  obtain ⟨record, member, leads⟩ := List.exists_of_findSome?_eq_some answered
  exact List.mem_flatMap.mpr ⟨record, member,
    mem_toolResultsIn_of_leadingResult writeFloat (leadingText_eq_some writeFloat leads)⟩

theorem isSome_answer_iff (callId : String) (later : List JsonlRecord) :
    (answer writeFloat callId later).isSome ↔
      ∃ record ∈ later, leadsWith writeFloat callId record = true := by
  rw [answer_eq_findSome, List.isSome_findSome?]
  simp only [List.any_eq_true, isSome_leadingText]

/-- The output fits exactly if the results lead. -/
theorem answer_fits_iff (callId : String) (later : List JsonlRecord) :
    ((∀ text ∈ laterResults writeFloat callId later,
        (answer writeFloat callId later).getD "" = text) ∧
      (laterResults writeFloat callId later = [] →
        (answer writeFloat callId later).getD "" = "")) ↔
    ResultsLead writeFloat callId later := by
  constructor
  · rintro ⟨fits, -⟩
    cases results : laterResults writeFloat callId later with
    | nil => exact Or.inl results
    | cons text rest =>
        refine Or.inr ⟨(answer writeFloat callId later).getD "", fun result member =>
          (fits result member).symm, ?_⟩
        cases answered : answer writeFloat callId later with
        | none => exact Or.inl rfl
        | some output =>
            exact Or.inr ((isSome_answer_iff writeFloat callId later).mp (by rw [answered]; rfl))
  · intro lead
    have blank : laterResults writeFloat callId later = [] →
        (answer writeFloat callId later).getD "" = "" := by
      intro none
      cases answered : answer writeFloat callId later with
      | none => rfl
      | some output =>
          have member := mem_laterResults_of_answer writeFloat answered
          rw [none] at member
          cases member
    refine ⟨fun text member => ?_, blank⟩
    rcases lead with none | ⟨only, alike, reached⟩
    · rw [none] at member
      cases member
    · rw [alike text member]
      cases answered : answer writeFloat callId later with
      | some output => exact alike output (mem_laterResults_of_answer writeFloat answered)
      | none =>
          rcases reached with empty | leads
          · exact empty.symm
          · have present := (isSome_answer_iff writeFloat callId later).mpr leads
            rw [answered] at present
            cases present

/-! ## The tool chunks -/

section Chunks
variable (parseRfc3339 : String → Option DateTime) (rfc3339 : DateTime → String)
  (now : Nat → DateTime) (source : TranscriptSource)

theorem toolOutput_itemChunk (sequence : Nat) (item : TranscriptItem) :
    toolOutput (itemChunk parseRfc3339 rfc3339 now source sequence item) =
      (PairedCalls.Item.call item).map shownCall := by
  cases item with
  | entry entry =>
      obtain ⟨kind, createdAt, text, lineNumber, messageId, partId⟩ := entry
      cases kind <;> rfl
  | finished call output => rfl
  | unfinished call => rfl

theorem filterMap_toolOutput (order : List TranscriptCall) (events : List TranscriptEvent) :
    (formatEvents parseRfc3339 rfc3339 now source order events).filterMap toolOutput =
      ((PairedCalls.itemsIn TranscriptCall.callId order events).filterMap PairedCalls.Item.call).map
        shownCall := by
  unfold formatEvents
  rw [List.mapIdx_eq_zipIdx_map, List.filterMap_map, List.map_filterMap]
  have alike : (toolOutput ∘ fun entry : TranscriptItem × Nat =>
      itemChunk parseRfc3339 rfc3339 now source entry.2 entry.1) =
        fun entry : TranscriptItem × Nat => (PairedCalls.Item.call entry.1).map shownCall :=
    funext fun entry => toolOutput_itemChunk parseRfc3339 rfc3339 now source entry.2 entry.1
  rw [alike]
  conv_rhs => rw [← List.zipIdx_map_fst 0 (PairedCalls.itemsIn TranscriptCall.callId order events),
    List.filterMap_map]
  rfl

end Chunks

/-! ## Uses with ids of their own -/

theorem calledId_eq_none_or (item : Json) : calledId item = none ∨ calledId item = textAt "id" item := by
  unfold calledId
  cases textAt "id" item with
  | none => exact Or.inl rfl
  | some callId =>
      cases textAt "name" item with
      | none => exact Or.inl rfl
      | some name => exact Or.inr rfl

theorem textAt_of_calledId {item : Json} {callId : String} (called : calledId item = some callId) :
    textAt "id" item = some callId := by
  rcases calledId_eq_none_or item with none | same
  · rw [none] at called
    cases called
  · rw [← same, called]

theorem calledIds_sublist (uses : List ToolUse) :
    (uses.filterMap fun use => calledId use.item).Sublist (uses.filterMap ToolUse.callId) := by
  induction uses with
  | nil => exact List.Sublist.refl _
  | cons use rest ih =>
      rw [List.filterMap_cons, List.filterMap_cons]
      rcases calledId_eq_none_or use.item with none | same
      · rw [none]
        cases use.callId with
        | none => exact ih
        | some callId => exact ih.cons callId
      · have sameId : calledId use.item = use.callId := same
        rw [sameId]
        cases use.callId with
        | none => exact ih
        | some callId => exact ih.cons_cons callId

/-- The uses that a chunk shows, as the records tell them. -/
theorem map_fst_shownUses (uses : List ToolUse) :
    ((uses.filterMap (shownUse writeFloat)).map fun shown => some shown.1) =
      (uses.filterMap fun use => calledId use.item).map some := by
  rw [List.map_filterMap, List.map_filterMap]
  congr 1
  funext use
  unfold shownUse
  cases calledId use.item <;> rfl

theorem map_some_calledIds {uses : List ToolUse}
    (called : ∀ use ∈ uses, (calledId use.item).isSome = true) :
    (uses.filterMap fun use => calledId use.item).map some = uses.map ToolUse.callId := by
  induction uses with
  | nil => rfl
  | cons use rest ih =>
      obtain ⟨callId, found⟩ := Option.isSome_iff_exists.mp (called use List.mem_cons_self)
      have own : use.callId = some callId := textAt_of_calledId found
      rw [List.filterMap_cons, found]
      dsimp only
      rw [List.map_cons, List.map_cons,
        ih fun other member => called other (List.mem_cons_of_mem _ member), own]

/-- The outputs fit exactly if every use has a name and the results of each lead their
records. -/
theorem shownUses_fit_iff {records : List JsonlRecord}
    (distinct : ((toolUses records).filterMap ToolUse.callId).Nodup) {chunks : List ActivityChunk}
    (shows : (chunks.filterMap toolOutput).Perm
      ((toolUses records).filterMap (shownUse writeFloat))) :
    OutputsFit writeFloat records chunks ↔
      (∀ use ∈ toolUses records, (calledId use.item).isSome = true) ∧
        ∀ use ∈ toolUses records, ∀ callId, use.callId = some callId →
          ResultsLead writeFloat callId use.later := by
  have shownIds := shows.map fun shown => some shown.1
  rw [map_fst_shownUses] at shownIds
  constructor
  · intro fit
    have called : ∀ use ∈ toolUses records, (calledId use.item).isSome = true := by
      have sameLength := (shownIds.symm.trans fit.oneEach).length_eq
      rw [List.length_map, List.length_map, List.length_filterMap_eq_countP] at sameLength
      exact List.countP_eq_length.mp sameLength
    refine ⟨called, fun use member callId ofUse => ?_⟩
    obtain ⟨other, found⟩ := Option.isSome_iff_exists.mp (called use member)
    have sameId : other = callId := by
      have own := textAt_of_calledId found
      rw [show textAt "id" use.item = some callId from ofUse] at own
      exact (Option.some.inj own).symm
    have shown : shownUse writeFloat use =
        some (callId, (answer writeFloat callId use.later).getD "") := by
      unfold shownUse
      rw [found, sameId]
      rfl
    exact (answer_fits_iff writeFloat callId use.later).mp (fit.outputs use member callId ofUse _
      (shows.symm.subset (List.mem_filterMap.mpr ⟨use, member, shown⟩)) rfl)
  · rintro ⟨called, lead⟩
    have asUsed := map_some_calledIds called
    refine ⟨asUsed ▸ shownIds, fun use member callId ofUse shown isShown sameId => ?_⟩
    obtain ⟨other, otherMember, otherShown⟩ := List.mem_filterMap.mp (shows.subset isShown)
    obtain ⟨otherId, found, rfl⟩ := Option.map_eq_some_iff.mp otherShown
    have distinctIds : ((toolUses records).map ToolUse.callId).Nodup := by
      rw [← asUsed]
      exact (distinct.sublist (calledIds_sublist _)).map fun _ _ => Option.some.inj
    have sameUse : other = use := by
      refine List.inj_on_of_nodup_map distinctIds otherMember member ?_
      rw [ofUse, ← sameId]
      exact textAt_of_calledId found
    subst sameUse
    cases sameId
    exact (answer_fits_iff writeFloat _ _).mpr (lead other member _ ofUse)

end Results

/-- Every use of a tool keeps the output it was given exactly if it has an id and a name and
its results are reached. -/
theorem formatChunks_outputs_iff (parseRfc3339 : String → Option DateTime)
    (rfc3339 : DateTime → String) (writeFloat : UInt64 → List Char) (now : Nat → DateTime)
    (sessionId path : String) (records : List JsonlRecord)
    (distinct : ((toolUses records).filterMap ToolUse.callId).Nodup) (order : List TranscriptCall)
    (perm : order.Perm (pendingToolCalls (transcriptEvents writeFloat records))) :
    OutputsFit writeFloat records
        (formatChunks writeFloat parseRfc3339 rfc3339 now sessionId path order records) ↔
      (∀ use ∈ toolUses records, (calledId use.item).isSome = true) ∧
        ∀ use ∈ toolUses records, ∀ callId, use.callId = some callId →
          ResultsLead writeFloat callId use.later := by
  refine shownUses_fit_iff writeFloat distinct ?_
  have callIds : ((PairedCalls.calls (transcriptEvents writeFloat records)).map
      TranscriptCall.callId).Nodup := by
    rw [calls_transcript]
    exact distinct.sublist (calledIds_sublist _)
  unfold formatChunks
  rw [filterMap_toolOutput, ← callOutcomes_transcript]
  exact (PairedCalls.calls_itemsIn_perm TranscriptCall.callId callIds perm).map shownCall

/-! ## Two results -/

def toolResultItem (callId text : String) : Json :=
  .object [("content", .string text), ("tool_use_id", .string callId), ("type", .string "tool_result")]

def roleRecord (role : String) (lineNumber : UInt64) (content : List Json) : JsonlRecord :=
  ⟨.object [("message", .object [("content", .array content)]), ("type", .string role)], lineNumber⟩

def twoUses : JsonlRecord := roleRecord "assistant" 1 [toolUseItem "a", toolUseItem "b"]

def firstResult : JsonlRecord := roleRecord "user" 2 [toolResultItem "a" "one"]

def secondResult : JsonlRecord := roleRecord "user" 3 [toolResultItem "b" "two"]

/-- Both results in one user record, as parallel calls have them. -/
def bothResults : JsonlRecord :=
  roleRecord "user" 2 [toolResultItem "a" "one", toolResultItem "b" "two"]

def noFloats : UInt64 → List Char := fun _ => []

def chunksOf (records : List JsonlRecord) : List ActivityChunk :=
  formatChunks noFloats (fun _ => none) toRfc3339 (fun _ => ⟨0⟩) "session-1" "session-1.jsonl"
    (pendingToolCalls (transcriptEvents noFloats records)) records

theorem results_apart_fit : OutputsFit noFloats [twoUses, firstResult, secondResult]
    (chunksOf [twoUses, firstResult, secondResult]) := by
  refine (formatChunks_outputs_iff (fun _ => none) toRfc3339 noFloats (fun _ => ⟨0⟩) "session-1"
    "session-1.jsonl" [twoUses, firstResult, secondResult] (by decide +kernel) _
    (List.Perm.refl _)).mpr ⟨?_, ?_⟩
  · intro use member
    have listed : toolUses [twoUses, firstResult, secondResult] =
        ["a", "b"].map fun callId => ⟨toolUseItem callId, [firstResult, secondResult]⟩ := rfl
    rw [listed] at member
    obtain ⟨callId, _, rfl⟩ := List.mem_map.mp member
    rfl
  · intro use member callId ofUse
    have listed : toolUses [twoUses, firstResult, secondResult] =
        ["a", "b"].map fun callId => ⟨toolUseItem callId, [firstResult, secondResult]⟩ := rfl
    rw [listed] at member
    obtain ⟨id, either, rfl⟩ := List.mem_map.mp member
    cases ofUse
    rcases List.mem_pair.mp either with rfl | rfl
    · exact Or.inr ⟨"one", by decide +kernel, Or.inr ⟨firstResult, by simp, by decide +kernel⟩⟩
    · exact Or.inr ⟨"two", by decide +kernel, Or.inr ⟨secondResult, by simp, by decide +kernel⟩⟩

/-- The second of two results in one record is lost. -/
theorem second_result_lost : ((toolUses [twoUses, bothResults]).filterMap ToolUse.callId).Nodup ∧
    ¬ OutputsFit noFloats [twoUses, bothResults] (chunksOf [twoUses, bothResults]) := by
  refine ⟨by decide +kernel, fun fit => ?_⟩
  have listed : (⟨toolUseItem "b", [bothResults]⟩ : ToolUse) ∈ toolUses [twoUses, bothResults] :=
    List.mem_cons_of_mem _ List.mem_cons_self
  have shown : ("b", "") ∈ (chunksOf [twoUses, bothResults]).filterMap toolOutput := by
    decide +kernel
  have output := (fit.outputs _ listed "b" rfl _ shown rfl).1 "two" (by decide +kernel)
  exact absurd output (by decide)

end BrickTrace.Claude
