import BrickTrace.Core.ExplainMerge
import BrickTrace.Core.ExplainOrder
import BrickTrace.Cli.ExplainAnchors
import Mathlib.Data.List.MinMax

/-!
# Two drivers of an explanation

The command line and the server build the chain of an explanation each on its own, from
the same parts: the events of the anchor, and the sessions that the index has for the line,
for the text of the selection and for the file.  Both hand the chain, and a count when the
file is all that is known, to one function that finishes the answer.
-/

set_option autoImplicit false

namespace BrickTrace

open Json

def defaultExplainDepth : Nat := 3

section Drivers
variable (mode : OverflowMode) (rfc3339 : DateTime → String) (isUuid : String → Bool)
  (hashText : String → String) (toText : Json → String) (here : Checkout)

/-! ## Rows of the index -/

def clampDepth (depth : Nat) : Nat := max defaultExplainDepth (min depth maxExplainDepth)

def fileSessionQuery (root relPath : String) (depth : Nat) : SourceFileSessionBlameQuery where
  filePath := PathText.join root relPath
  sourceId := none
  repoPath := some root
  limit := clampDepth depth

def fileSessionRows (root relPath : String) (depth : Nat) : List IndexedRow :=
  match here.metadataDb with
  | none => []
  | some db =>
      querySourceFileSessionBlame rfc3339 toText db.metadata (fileSessionQuery root relPath depth)

/-- The rows of the first line of a selection that is not blank. -/
def lineProvenanceRows (root relPath selectedText : String) (lineNumber : Option UInt64)
    (depth : Nat) : List IndexedRow :=
  match ((textLines selectedText).map trim).find? (· ≠ ""), here.metadataDb with
  | some line, some db =>
      (querySourceFileLineProvenance rfc3339
        { filePath := PathText.join root relPath
          lineText := line
          lineNumber := lineNumber
          sourceId := none
          repoPath := some root
          limit := clampDepth depth } hashText db).map (·.row)
  | _, _ => []

def textMatchRows (root relPath selectedText : String) (depth : Nat) : List IndexedRow :=
  match here.metadataDb with
  | none => []
  | some db =>
      querySourceFileSessionTextMatch rfc3339 db.metadata (fileSessionQuery root relPath depth)
        selectedText

/-! ## Merges -/

def stepsOfRows (rows : List IndexedRow) : List CausalStep :=
  sourceSessionsToSteps (rows.map (·.toFileSessionBlameRow)) 0

/-- The chain with the sessions of the rows, and the events it resolves to then. -/
def CausalChain.mergeRows (chain : CausalChain) (rows : List IndexedRow) : CausalChain :=
  let steps := mergeSourceStepsInto chain.steps (stepsOfRows rows)
  { chain with
    steps := steps
    anchor := { chain.anchor with resolvedEvents := steps.map CausalStep.eventId } }

def CausalChain.withConfidence (chain : CausalChain) (confidence : String) : CausalChain :=
  { chain with anchor := { chain.anchor with blameConfidence := some confidence } }

/-- The best kind of evidence of the rows, the first one of a rank. -/
def bestConfidence (rows : List IndexedRow) (otherwise : String) : String :=
  ((rows.filterMap (·.confidence)).argmin provenanceRank).getD otherwise

/-- The second part is the count of the sessions of the file, for the anchor of a line. -/
def mergeIndexSessionsIntoChain (chain : CausalChain) (root : String) (anchoredPath : Option String)
    (isFileLine : Bool) (depth : Nat) : CausalChain × Option Nat :=
  match anchoredPath with
  | none => (chain, none)
  | some relPath =>
      let rows := fileSessionRows rfc3339 toText here root relPath depth
      let fallback := if isFileLine && 0 < rows.length then some rows.length else none
      (if (stepsOfRows rows).isEmpty then chain else chain.mergeRows rows, fallback)

def mergeIndexLineProvenanceIntoChain (chain : CausalChain) (root anchoredPath selectedText : String)
    (lineNumber : Option UInt64) (depth : Nat) : CausalChain × Option String :=
  let rows := lineProvenanceRows rfc3339 hashText here root anchoredPath selectedText lineNumber depth
  if (stepsOfRows rows).isEmpty then (chain, none)
  else
    let confidence := bestConfidence rows "exact_edit_hunk"
    ((chain.mergeRows rows).withConfidence confidence, some confidence)

def mergeIndexTextMatchesIntoChain (chain : CausalChain) (root anchoredPath selectedText : String)
    (depth : Nat) : CausalChain × Bool :=
  let rows := textMatchRows rfc3339 here root anchoredPath selectedText depth
  if (stepsOfRows rows).isEmpty then (chain, false)
  else ((chain.mergeRows rows).withConfidence (bestConfidence rows "exact_diff_hunk"), true)

/-! ## The command -/

/-- The text match and the sessions of the file, for the command. -/
def mergeForCommand (chain : CausalChain) (root : String) (reading : CliAnchor) (depth : Nat) :
    CausalChain × Option Nat :=
  let matched :=
    if reading.isFileLine then
      match reading.anchoredPath, reading.selectedText with
      | some path, some text => mergeIndexTextMatchesIntoChain rfc3339 here chain root path text depth
      | _, _ => (chain, false)
    else (chain, false)
  if matched.2 then (matched.1, none)
  else
    mergeIndexSessionsIntoChain rfc3339 toText here matched.1 root reading.anchoredPath
      reading.isFileLine depth

/-- What the command hands on to be finished. -/
def handleExplain (anchor : String) (depth : Option UInt64) :
    Except ExplainFailure (CausalChain × Option Nat) := do
  let depth := (depth.map UInt64.toNat).getD defaultExplainDepth
  let reading ← resolveCliAnchor mode rfc3339 isUuid here anchor
  let chain := explainFromEvents rfc3339 (here.events here.root) reading.anchor depth
  return mergeForCommand rfc3339 toText here chain here.root reading depth

/-! ## The server -/

def strArg (args : Json) (key : String) : Except ExplainFailure String :=
  match ((args.get key).bind decodeString).bind unlessEmpty with
  | some text => .ok text
  | none => .error (.error ("missing required string argument: " ++ key))

def usizeArg (args : Json) (key : String) : Option Nat :=
  ((args.get key).bind decodeU64).map UInt64.toNat

/-- The line provenance, the text match and the sessions of the file, for the server. -/
def mergeForServer (chain : CausalChain) (root : String) (reading : McpAnchor) (depth : Nat) :
    CausalChain × Option Nat :=
  let byLine :=
    if reading.isFileLine then
      match reading.anchoredPath, reading.selectedText with
      | some path, some text =>
          mergeIndexLineProvenanceIntoChain rfc3339 hashText here chain root path text
            reading.lineNumber depth
      | _, _ => (chain, none)
    else (chain, none)
  let matched :=
    if reading.isFileLine && byLine.2.isNone then
      match reading.anchoredPath, reading.selectedText with
      | some path, some text =>
          mergeIndexTextMatchesIntoChain rfc3339 here byLine.1 root path text depth
      | _, _ => (byLine.1, false)
    else (byLine.1, false)
  if byLine.2.isSome || matched.2 then (matched.1, none)
  else
    mergeIndexSessionsIntoChain rfc3339 toText here matched.1 root reading.anchoredPath
      reading.isFileLine depth

/-- What the server hands on to be finished; nothing when it finds no repository. -/
def explainToolCall (args : Json) : Except ExplainFailure (Option (CausalChain × Option Nat)) := do
  let anchor ← strArg args "anchor"
  let depth := (usizeArg args "depth").getD defaultExplainDepth
  match storeForAnchor here anchor with
  | none => return none
  | some root =>
      let reading ← resolveMcpAnchor mode rfc3339 isUuid here root anchor
      let chain := explainFromEvents rfc3339 (here.events root) reading.anchor (min depth maxExplainDepth)
      return some (mergeForServer rfc3339 hashText toText here chain root reading depth)

/-- The arguments of a call for an anchor. -/
def explainArguments (anchor : String) (depth : Option UInt64) : Json :=
  ofFields ([("anchor", .string anchor)] ++ (depth.map fun value => ("depth", encodeU64 value)).toList)

/-! ## When both agree -/

/-- Every session of the rows is linked to the chain already. -/
def AllLinked (chain : CausalChain) (rows : List IndexedRow) : Prop :=
  ∀ step ∈ stepsOfRows rows, alreadyLinked chain.steps step = true

/-- The text match is as good as the line provenance, and neither adds a session. -/
structure NothingNew (chain : CausalChain) (provenance matched : List IndexedRow) : Prop where
  found : matched ≠ []
  provenanceLinked : AllLinked chain provenance
  matchedLinked : AllLinked chain matched
  confidence : bestConfidence provenance "exact_edit_hunk" = bestConfidence matched "exact_diff_hunk"

/-- Whatever the index knows of a line is nothing new. -/
def LineAddsNothing (anchor : String) (depth : Option UInt64) : Prop :=
  ∀ reading, resolveMcpAnchor mode rfc3339 isUuid here here.root anchor = .ok reading →
    reading.isFileLine = true →
    ∀ path text, reading.anchoredPath = some path → reading.selectedText = some text →
    let depth := (depth.map UInt64.toNat).getD defaultExplainDepth
    let provenance :=
      lineProvenanceRows rfc3339 hashText here here.root path text reading.lineNumber depth
    provenance ≠ [] →
      NothingNew (explainFromEvents rfc3339 (here.events here.root) reading.anchor depth) provenance
        (textMatchRows rfc3339 here here.root path text depth)

/-! ## Steps of rows -/

section Steps
variable {chain : List CausalStep} {rows : List IndexedRow} {step : CausalStep}

theorem stepsOfRows_isEmpty : (stepsOfRows rows).isEmpty = rows.isEmpty := by
  cases rows with
  | nil => rfl
  | cons row rest => rfl

/-- A step has the evidence of a row. -/
theorem evidence_of_stepsOfRows (member : step ∈ stepsOfRows rows) :
    ∃ row ∈ rows, step.evidence = row.evidence := by
  obtain ⟨entry, isEntry, rfl⟩ := List.mem_map.mp member
  have fresh := (List.mem_zipIdx' isEntry).2 ▸ List.getElem_mem _
  have kept := (FirstSeen.fresh_sublist FileSessionBlameRow.eventId [] _).subset fresh
  obtain ⟨row, isRow, same⟩ := List.mem_map.mp kept
  refine ⟨row, isRow, ?_⟩
  unfold IndexedRow.evidence
  rw [same]
  rfl

/-- What a merged timeline shows as evidence is the chain's or comes with a session. -/
theorem evidence_of_merge {source : List CausalStep}
    (member : step ∈ mergeSourceStepsInto chain source) :
    (∃ held ∈ chain, held.evidence = step.evidence) ∨
      ∃ added ∈ source, added.evidence = step.evidence := by
  have shown : step.evidence ∈ (chain ++ source.filter fun step =>
      !alreadyLinked chain step).map CausalStep.evidence :=
    (mem_map_mergeSourceStepsInto fun _ _ => rfl).mp (List.mem_map_of_mem member)
  obtain ⟨origin, isOrigin, same⟩ := List.mem_map.mp shown
  rcases List.mem_append.mp isOrigin with held | added
  · exact Or.inl ⟨origin, held, same⟩
  · exact Or.inr ⟨origin, List.mem_of_mem_filter added, same⟩

/-- The evidence of a session that is not linked is shown. -/
theorem exists_evidence_of_not_linked {source : List CausalStep} (member : step ∈ source)
    (unlinked : alreadyLinked chain step = false) :
    ∃ shown ∈ mergeSourceStepsInto chain source, shown.evidence = step.evidence := by
  apply List.mem_map.mp
  apply (mem_map_mergeSourceStepsInto fun _ _ => rfl).mpr
  apply List.mem_map_of_mem
  apply List.mem_append_right
  exact List.mem_filter.mpr ⟨member, by rw [unlinked]; rfl⟩

theorem filter_unlinked_eq_nil {source : List CausalStep}
    (linked : ∀ step ∈ source, alreadyLinked chain step = true) :
    source.filter (fun step => !alreadyLinked chain step) = [] := by
  apply List.filter_eq_nil_iff.mpr
  intro step member
  rw [linked step member]
  exact Bool.false_ne_true

end Steps

section Agreement
variable {chain : CausalChain} {provenance matched : List IndexedRow}

/-- Line provenance and a text match make one timeline only when neither adds a session: their
evidence differs, and events have none. -/
theorem merges_eq_iff (ofEvents : ∀ step ∈ chain.steps, step.evidence = none)
    (ofLines : ∀ row ∈ provenance, IsLineMatch row) (ofTexts : ∀ row ∈ matched, IsTextMatch row) :
    mergeSourceStepsInto chain.steps (stepsOfRows provenance) =
        mergeSourceStepsInto chain.steps (stepsOfRows matched) ↔
      AllLinked chain provenance ∧ AllLinked chain matched := by
  have lines : ∀ step ∈ stepsOfRows provenance, ∃ entries number,
      step.evidence = some (.object entries) ∧ entries.lookup "line_no" = some number := by
    intro step member
    obtain ⟨row, isRow, same⟩ := evidence_of_stepsOfRows member
    rw [same]
    exact (ofLines row isRow).evidence
  have texts : ∀ step ∈ stepsOfRows matched, ∃ entries,
      step.evidence = some (.object entries) ∧ entries.lookup "line_no" = none := by
    intro step member
    obtain ⟨row, isRow, same⟩ := evidence_of_stepsOfRows member
    rw [same]
    exact (ofTexts row isRow).evidence
  have apart : ∀ line ∈ stepsOfRows provenance, ∀ text ∈ stepsOfRows matched,
      line.evidence ≠ text.evidence := by
    intro line isLine text isText same
    obtain ⟨entries, number, isEntries, numbered⟩ := lines line isLine
    obtain ⟨others, isOthers, unnumbered⟩ := texts text isText
    rw [isEntries, isOthers] at same
    cases same
    rw [numbered] at unnumbered
    cases unnumbered
  constructor
  · intro same
    constructor
    · intro step member
      by_contra unlinked
      obtain ⟨shown, isShown, evidence⟩ :=
        exists_evidence_of_not_linked member (Bool.eq_false_iff.mpr unlinked)
      rw [same] at isShown
      obtain ⟨entries, _, isEntries, _⟩ := lines step member
      rcases evidence_of_merge isShown with ⟨held, isHeld, ofHeld⟩ | ⟨added, isAdded, ofAdded⟩
      · rw [ofEvents held isHeld, evidence, isEntries] at ofHeld
        cases ofHeld
      · exact apart step member added isAdded (evidence.symm.trans ofAdded.symm)
    · intro step member
      by_contra unlinked
      obtain ⟨shown, isShown, evidence⟩ :=
        exists_evidence_of_not_linked member (Bool.eq_false_iff.mpr unlinked)
      rw [← same] at isShown
      obtain ⟨entries, isEntries, _⟩ := texts step member
      rcases evidence_of_merge isShown with ⟨held, isHeld, ofHeld⟩ | ⟨added, isAdded, ofAdded⟩
      · rw [ofEvents held isHeld, evidence, isEntries] at ofHeld
        cases ofHeld
      · exact apart added isAdded step member (ofAdded.trans evidence)
  · rintro ⟨provenanceLinked, matchedLinked⟩
    unfold mergeSourceStepsInto
    rw [filter_unlinked_eq_nil provenanceLinked, filter_unlinked_eq_nil matchedLinked]

theorem mergeRows_withConfidence_eq_iff {first second : String} :
    (chain.mergeRows provenance).withConfidence first = (chain.mergeRows matched).withConfidence second ↔
      mergeSourceStepsInto chain.steps (stepsOfRows provenance) =
          mergeSourceStepsInto chain.steps (stepsOfRows matched) ∧ first = second := by
  constructor
  · intro same
    have steps := congrArg CausalChain.steps same
    have confidence := congrArg (fun chain => chain.anchor.blameConfidence) same
    exact ⟨steps, Option.some.inj confidence⟩
  · rintro ⟨steps, rfl⟩
    unfold CausalChain.mergeRows
    rw [steps]

end Agreement

/-! ## The merges of both drivers -/

theorem kindName_ne_confidenceName (kind : EvidenceKind) (confidence : BlameConfidence) :
    kind.name ≠ confidence.name := by
  cases kind <;> cases confidence <;> decide

/-- The best of kinds of evidence is one. -/
theorem bestConfidence_of_kinds {rows : List IndexedRow}
    (kinds : ∀ row ∈ rows, ∃ kind : EvidenceKind, row.confidence = some kind.name)
    (otherwise : EvidenceKind) :
    ∃ kind : EvidenceKind, bestConfidence rows otherwise.name = kind.name := by
  unfold bestConfidence
  cases best : (rows.filterMap (·.confidence)).argmin provenanceRank with
  | none => exact ⟨otherwise, rfl⟩
  | some confidence =>
      obtain ⟨row, isRow, isConfidence⟩ := List.mem_filterMap.mp (List.argmin_mem best)
      obtain ⟨kind, isKind⟩ := kinds row isRow
      exact ⟨kind, Option.some.inj (isConfidence.symm.trans isKind)⟩

section Merges
variable {rfc3339 : DateTime → String} {hashText : String → String} {toText : Json → String}
  {here : Checkout} {chain : CausalChain} {root path text : String} {depth : Nat}

theorem isLineMatch_of_rows {number : UInt64} {row : IndexedRow}
    (member : row ∈ lineProvenanceRows rfc3339 hashText here root path text (some number) depth) :
    IsLineMatch row := by
  unfold lineProvenanceRows at member
  split at member
  · obtain ⟨found, isFound, rfl⟩ := List.mem_map.mp member
    exact isLineMatch_of_query rfl isFound
  · cases member

theorem isTextMatch_of_rows {row : IndexedRow}
    (member : row ∈ textMatchRows rfc3339 here root path text depth) : IsTextMatch row := by
  unfold textMatchRows at member
  split at member
  · cases member
  · exact isTextMatch_of_query member

/-- The sessions of a file leave the confidence of the anchor. -/
theorem blameConfidence_mergeIndexSessions (anchoredPath : Option String) (isFileLine : Bool) :
    (mergeIndexSessionsIntoChain rfc3339 toText here chain root anchoredPath isFileLine
      depth).1.anchor.blameConfidence = chain.anchor.blameConfidence := by
  unfold mergeIndexSessionsIntoChain
  cases anchoredPath with
  | none => rfl
  | some relPath =>
      dsimp only
      split
      · rfl
      · rfl

theorem mergeIndexTextMatches_of_ne_nil
    (found : textMatchRows rfc3339 here root path text depth ≠ []) :
    mergeIndexTextMatchesIntoChain rfc3339 here chain root path text depth =
      ((chain.mergeRows (textMatchRows rfc3339 here root path text depth)).withConfidence
        (bestConfidence (textMatchRows rfc3339 here root path text depth) "exact_diff_hunk"), true) := by
  unfold mergeIndexTextMatchesIntoChain
  dsimp only
  rw [stepsOfRows_isEmpty, List.isEmpty_eq_false_iff.mpr found]
  rfl

theorem mergeIndexTextMatches_of_nil
    (nothing : textMatchRows rfc3339 here root path text depth = []) :
    mergeIndexTextMatchesIntoChain rfc3339 here chain root path text depth = (chain, false) := by
  unfold mergeIndexTextMatchesIntoChain
  dsimp only
  rw [nothing]
  rfl

variable {reading : McpAnchor}

/-- Without a line both drivers merge the same. -/
theorem mergeForServer_of_not_line (notLine : reading.isFileLine = false) :
    mergeForServer rfc3339 hashText toText here chain root reading depth =
      mergeForCommand rfc3339 toText here chain root reading.toCliAnchor depth := by
  unfold mergeForServer mergeForCommand
  rw [notLine]
  rfl

/-- Without a selection both drivers merge the same. -/
theorem mergeForServer_of_no_selection
    (unselected : reading.anchoredPath = none ∨ reading.selectedText = none) :
    mergeForServer rfc3339 hashText toText here chain root reading depth =
      mergeForCommand rfc3339 toText here chain root reading.toCliAnchor depth := by
  unfold mergeForServer mergeForCommand
  cases reading.isFileLine with
  | false => rfl
  | true =>
      rcases unselected with noPath | noText
      · rw [noPath]
        rfl
      · rw [noText]
        cases reading.anchoredPath with
        | none => rfl
        | some path => rfl

section Selection
variable (isLine : reading.isFileLine = true) (isPath : reading.anchoredPath = some path)
  (isText : reading.selectedText = some text)
include isLine isPath isText

theorem mergeForCommand_selection :
    mergeForCommand rfc3339 toText here chain root reading.toCliAnchor depth =
      if (mergeIndexTextMatchesIntoChain rfc3339 here chain root path text depth).2 then
        ((mergeIndexTextMatchesIntoChain rfc3339 here chain root path text depth).1, none)
      else
        mergeIndexSessionsIntoChain rfc3339 toText here
          (mergeIndexTextMatchesIntoChain rfc3339 here chain root path text depth).1 root (some path)
          true depth := by
  unfold mergeForCommand
  rw [isLine, isPath, isText]
  rfl

theorem mergeForServer_of_nil
    (nothing : lineProvenanceRows rfc3339 hashText here root path text reading.lineNumber depth = []) :
    mergeForServer rfc3339 hashText toText here chain root reading depth =
      mergeForCommand rfc3339 toText here chain root reading.toCliAnchor depth := by
  rw [mergeForCommand_selection isLine isPath isText]
  unfold mergeForServer mergeIndexLineProvenanceIntoChain
  rw [isLine, isPath, isText]
  dsimp only
  rw [nothing]
  rfl

theorem mergeForServer_of_ne_nil
    (found : lineProvenanceRows rfc3339 hashText here root path text reading.lineNumber depth ≠ []) :
    mergeForServer rfc3339 hashText toText here chain root reading depth =
      ((chain.mergeRows (lineProvenanceRows rfc3339 hashText here root path text reading.lineNumber
          depth)).withConfidence (bestConfidence (lineProvenanceRows rfc3339 hashText here root path text
            reading.lineNumber depth) "exact_edit_hunk"), none) := by
  unfold mergeForServer mergeIndexLineProvenanceIntoChain
  rw [isLine, isPath, isText]
  dsimp only
  rw [stepsOfRows_isEmpty, List.isEmpty_eq_false_iff.mpr found]
  rfl

/-- On a selection both drivers merge the same exactly when its line adds nothing. -/
theorem mergeForServer_selection_iff (ofEvents : ∀ step ∈ chain.steps, step.evidence = none)
    (numbered : ∃ number, reading.lineNumber = some number)
    (named : ∀ text, chain.anchor.blameConfidence = some text →
      ∃ confidence : BlameConfidence, text = confidence.name) :
    mergeForServer rfc3339 hashText toText here chain root reading depth =
        mergeForCommand rfc3339 toText here chain root reading.toCliAnchor depth ↔
      (lineProvenanceRows rfc3339 hashText here root path text reading.lineNumber depth ≠ [] →
        NothingNew chain
          (lineProvenanceRows rfc3339 hashText here root path text reading.lineNumber depth)
          (textMatchRows rfc3339 here root path text depth)) := by
  by_cases nothing :
      lineProvenanceRows rfc3339 hashText here root path text reading.lineNumber depth = []
  · rw [mergeForServer_of_nil isLine isPath isText nothing]
    exact ⟨fun _ found => absurd nothing found, fun _ => rfl⟩
  · rw [mergeForServer_of_ne_nil isLine isPath isText nothing,
      mergeForCommand_selection isLine isPath isText]
    obtain ⟨number, isNumber⟩ := numbered
    rw [isNumber] at nothing ⊢
    have ofLines : ∀ row ∈ lineProvenanceRows rfc3339 hashText here root path text (some number) depth,
        IsLineMatch row := fun _ member => isLineMatch_of_rows member
    have ofTexts : ∀ row ∈ textMatchRows rfc3339 here root path text depth, IsTextMatch row :=
      fun _ member => isTextMatch_of_rows member
    by_cases unmatched : textMatchRows rfc3339 here root path text depth = []
    · -- the command leaves the confidence that blame gave, the server has a kind of evidence
      rw [mergeIndexTextMatches_of_nil unmatched]
      constructor
      · intro same
        have confidence := congrArg (fun merged => merged.1.anchor.blameConfidence) same
        dsimp only at confidence
        rw [if_neg Bool.false_ne_true, blameConfidence_mergeIndexSessions] at confidence
        obtain ⟨kind, isKind⟩ := bestConfidence_of_kinds
          (fun row member => (ofLines row member).confidence) .exactEditHunk
        obtain ⟨blame, isBlame⟩ := named _ confidence.symm
        exact absurd (isKind.symm.trans isBlame) (kindName_ne_confidenceName kind blame)
      · intro adds
        exact absurd unmatched (adds nothing).found
    · rw [mergeIndexTextMatches_of_ne_nil unmatched, if_pos rfl, Prod.mk.injEq,
        mergeRows_withConfidence_eq_iff, merges_eq_iff ofEvents ofLines ofTexts]
      constructor
      · rintro ⟨⟨⟨provenanceLinked, matchedLinked⟩, confidence⟩, _⟩ _
        exact ⟨unmatched, provenanceLinked, matchedLinked, confidence⟩
      · intro adds
        have nothingNew := adds nothing
        exact ⟨⟨⟨nothingNew.provenanceLinked, nothingNew.matchedLinked⟩, nothingNew.confidence⟩, rfl⟩

end Selection

end Merges

/-! ## The calls -/

theorem get_explainArguments (anchor : String) (depth : Option UInt64) (name : String) :
    (explainArguments anchor depth).get name =
      ([("anchor", Json.string anchor)] ++
        (depth.map fun value => ("depth", encodeU64 value)).toList).lookup name := by
  apply lookup_fieldEntries
  cases depth with
  | none =>
      change List.Nodup ["anchor"]
      decide
  | some _ =>
      change List.Nodup ["anchor", "depth"]
      decide

theorem strArg_arguments {anchor : String} (nonempty : anchor ≠ "") (depth : Option UInt64) :
    strArg (explainArguments anchor depth) "anchor" = .ok anchor := by
  have held : (explainArguments anchor depth).get "anchor" = some (.string anchor) := by
    rw [get_explainArguments, List.singleton_append, List.lookup_cons_self]
  unfold strArg
  rw [held]
  simp [decodeString, unlessEmpty, nonempty]

theorem usizeArg_arguments (anchor : String) (depth : Option UInt64) :
    usizeArg (explainArguments anchor depth) "depth" = depth.map UInt64.toNat := by
  unfold usizeArg
  rw [get_explainArguments]
  cases depth with
  | none => rfl
  | some _ => rfl

/-- A chain is capped at the depth limit by either driver. -/
theorem explainFromEvents_min (rfc3339 : DateTime → String) (events : List TraceEvent)
    (anchor : ExplainAnchor) (depth : Nat) :
    explainFromEvents rfc3339 events anchor (min depth maxExplainDepth) =
      explainFromEvents rfc3339 events anchor depth := by
  unfold explainFromEvents
  rw [Nat.min_assoc, Nat.min_self]

/-- The server explains an anchor as the command does exactly when what the index knows of its
line is nothing new. -/
theorem server_explains_as_command_iff (anchor : String) (depth : Option UInt64)
    (inside : InsideRepository here anchor) :
    explainToolCall mode rfc3339 isUuid hashText toText here (explainArguments anchor depth) =
        (handleExplain mode rfc3339 isUuid toText here anchor depth).map some ↔
      LineAddsNothing mode rfc3339 isUuid hashText here anchor depth := by
  unfold explainToolCall handleExplain LineAddsNothing
  rw [strArg_arguments inside.nonempty, usizeArg_arguments, ← resolveMcpAnchor_root]
  generalize (depth.map UInt64.toNat).getD defaultExplainDepth = depth
  dsimp only [bind, Except.bind]
  rw [inside.store]
  dsimp only
  cases resolved : resolveMcpAnchor mode rfc3339 isUuid here here.root anchor with
  | error failure =>
      constructor
      · intro _ _ done
        cases done
      · intro _
        rfl
  | ok reading =>
      dsimp only [Except.map, pure, Except.pure]
      rw [explainFromEvents_min, Except.ok.injEq, Option.some.injEq]
      constructor
      · intro same other done isLine path text isPath isText
        cases done
        obtain ⟨numbered, named⟩ := line_of_resolveMcpAnchor resolved isLine
        exact (mergeForServer_selection_iff isLine isPath isText
          (fun _ member => explainFromEvents_evidence member) numbered named).mp same
      · intro adds
        cases isLine : reading.isFileLine with
        | false => exact mergeForServer_of_not_line isLine
        | true =>
            obtain ⟨numbered, named⟩ := line_of_resolveMcpAnchor resolved isLine
            cases isPath : reading.anchoredPath with
            | none => exact mergeForServer_of_no_selection (Or.inl isPath)
            | some path =>
                cases isText : reading.selectedText with
                | none => exact mergeForServer_of_no_selection (Or.inr isText)
                | some text =>
                    exact (mergeForServer_selection_iff isLine isPath isText
                      (fun _ member => explainFromEvents_evidence member) numbered named).mpr
                        (adds reading rfl isLine path text isPath isText)

end Drivers

/-! ## A range of which a session wrote one line -/

def seenAt : DateTime := ⟨1782122400000000000⟩

def seenText (_ : DateTime) : String := "2026-06-22T10:00:00+00:00"

def tokenLine : String := "let token = refresh();"

def tokenEdit : ActivityChunk where
  chunkId := "chunk-1"
  sessionId := "session-1"
  actionType := "tool_call"
  function := "edit_file_by_replace"
  args := .object [("file_path", .string "src/auth.rs"), ("new_string", .string tokenLine)]
  result := .object []
  createdAt := "2026-06-22T10:00:00Z"
  threadId := none
  processId := none
  sourceId := none
  sourcePath := none
  sourceRecordKey := none
  sourceLineNumber := none
  sourceMessageId := none
  sourcePartId := none

def tokenSession : SourceSessionRecord where
  sourceId := "codex_app"
  externalSessionId := "session-1"
  title := some "Refresh tokens"
  name := none
  sourcePath := none
  sourceUri := none
  sourceMtime := none
  sourceSize := none
  sourceFingerprint := none
  parserVersion := none
  sessionCreatedAt := none
  sessionUpdatedAt := none
  model := none
  inputTokens := none
  outputTokens := none
  repoPath := some "/repo"
  branch := none
  filesChanged := none
  linesAdded := none
  linesRemoved := none
  touchedFilesJson := some (.array [.string "src/auth.rs"])
  listable := true
  discoveredAt := seenAt
  lastSeenAt := seenAt
  metadataJson := none
  createdAt := seenAt
  updatedAt := seenAt

def tokenProvenance : LineProvenanceRow where
  sourceId := "codex_app"
  externalSessionId := "session-1"
  filePath := "src/auth.rs"
  normalizedFilePath := "src/auth.rs"
  lineHash := "8c92f9b90556df4f80ab84e32564e37d102438c561572105ec7d19d67b0288d8"
  lineText := tokenLine
  linePreview := tokenLine
  chunkId := "chunk-1"
  chunkIndex := 0
  function := "edit_file_by_replace"
  evidenceKind := .exactEditHunk
  matchedLineCount := 1
  selectedLineCount := 1
  createdAt := "2026-06-22T10:00:00Z"
  evidenceJson := []

/-- The second line of the file is not the session's. -/
def tokenCheckout : Checkout where
  cwd := "/repo"
  root := "/repo"
  discoverRepoRoot := fun path => if path = "/repo" then some "/repo" else none
  isDir := fun path => path = "/repo"
  readToString := fun _ => some "let token = refresh();\nlet user = load();\n"
  events := fun _ => []
  lineCount := fun _ _ => 2
  history := fun _ _ => ⟨none, fun _ => none⟩
  metadataDb := some
    { metadata :=
        { MetadataDb.new with
          sessions := ⟨[tokenSession], List.nodup_singleton _⟩
          chunks := ⟨[MetadataDb.chunkRow "codex_app" "session-1" 0 tokenEdit], List.nodup_singleton _⟩ }
      lines := ⟨[tokenProvenance], List.nodup_singleton _⟩ }
  cwd_found := rfl
  root_found := rfl

def tokenDigest (text : String) : String :=
  if text = tokenLine then "8c92f9b90556df4f80ab84e32564e37d102438c561572105ec7d19d67b0288d8" else ""

def tokenChunkText (_ : Json) : String := "\x7b\"action_type\":\"tool_call\",\"args\":" ++
  "\x7b\"file_path\":\"src/auth.rs\",\"new_string\":\"let token = refresh();\"\x7d,\"chunk_id\":\"chunk-1\"," ++
  "\"created_at\":\"2026-06-22T10:00:00Z\",\"function\":\"edit_file_by_replace\",\"result\":\x7b\x7d," ++
  "\"session_id\":\"session-1\"\x7d"

def noUuid (_ : String) : Bool := false

theorem file_explained_alike :
    explainToolCall .checked seenText noUuid tokenDigest tokenChunkText tokenCheckout
        (explainArguments "src/auth.rs" none) =
      (handleExplain .checked seenText noUuid tokenChunkText tokenCheckout "src/auth.rs" none).map
        some := by
  have inside : InsideRepository tokenCheckout "src/auth.rs" := ⟨by decide, by decide +kernel⟩
  apply (server_explains_as_command_iff .checked seenText noUuid tokenDigest tokenChunkText
    tokenCheckout "src/auth.rs" none inside).mpr
  intro reading done isLine
  have notLine : ((resolveMcpAnchor .checked seenText noUuid tokenCheckout "/repo" "src/auth.rs").map
      (·.isFileLine)).toOption = some false := by decide +kernel
  rw [show tokenCheckout.root = "/repo" from rfl] at done
  rw [done] at notLine
  have isFile : reading.isFileLine = false := Option.some.inj notLine
  rw [isFile] at isLine
  cases isLine

/-- The server shows whose line it is, the command only which session touched the file. -/
theorem range_explained_differently :
    InsideRepository tokenCheckout "src/auth.rs:1-2" ∧
      explainToolCall .checked seenText noUuid tokenDigest tokenChunkText tokenCheckout
          (explainArguments "src/auth.rs:1-2" none) ≠
        (handleExplain .checked seenText noUuid tokenChunkText tokenCheckout "src/auth.rs:1-2"
          none).map some := by
  refine ⟨⟨by decide, by decide +kernel⟩, fun same => ?_⟩
  have server : ((explainToolCall .checked seenText noUuid tokenDigest tokenChunkText tokenCheckout
      (explainArguments "src/auth.rs:1-2" none)).map (Option.map Prod.snd)).toOption =
        some (some none) := by decide +kernel
  have command : (((handleExplain .checked seenText noUuid tokenChunkText tokenCheckout
      "src/auth.rs:1-2" none).map some).map (Option.map Prod.snd)).toOption =
        some (some (some 1)) := by decide +kernel
  rw [same, command] at server
  cases server

end BrickTrace
