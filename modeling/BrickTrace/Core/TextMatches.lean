import BrickTrace.Lib.Select
import BrickTrace.Core.LineIndexing

/-!
# What a text match rests on

A text match answers with one call of each session that touched the file.  A call that wrote
the selection comes before one that only recorded it, and which of the two it is stands in
the row.
-/

set_option autoImplicit false

namespace BrickTrace

open Json

/-! ## Calls that hold a selection -/

/-- Whether a text contains the selection or enough of its lines. -/
def holdsSelection (selection text : String) : Bool :=
  let candidate := normalizeMatchText text
  containsText candidate selection ||
    enoughLineOverlapCount (matchedLines candidate (matchLines selection)).length
      (matchLines selection).length

namespace SourceSessionChunkRow

def isMutationCall (chunk : SourceSessionChunkRow) : Bool :=
  chunk.actionType == "tool_call" && isFileMutationTool chunk.function

/-- The file that the arguments of a call name. -/
def calledPath (chunk : SourceSessionChunkRow) : Option String :=
  ["file_path", "path", "target_file", "file"].findSome? fun name =>
    (chunk.argsJson.get name).bind decodeString

/-- The texts that a call wrote. -/
def writtenTexts (chunk : SourceSessionChunkRow) : List String :=
  writtenArguments.flatMap fun name => ((chunk.argsJson.get name).map collectJsonStrings).getD []

/-- The texts of the output of a call and of its record. -/
def recordedTexts (chunk : SourceSessionChunkRow) : List String :=
  collectJsonStrings chunk.resultJson ++ collectJsonStrings chunk.rawJson

def wrote (selection : String) (chunk : SourceSessionChunkRow) : Bool :=
  chunk.writtenTexts.any (holdsSelection selection)

def recorded (selection : String) (chunk : SourceSessionChunkRow) : Bool :=
  chunk.recordedTexts.any (holdsSelection selection)

end SourceSessionChunkRow

/-- The row names the session and the chunk. -/
structure IndexedRow.PointsTo (row : IndexedRow) (record : SourceSessionRecord)
    (chunk : SourceSessionChunkRow) : Prop where
  source : row.sourceId = some record.sourceId
  session : row.externalSessionId = some record.externalSessionId
  chunk : ∃ pointer, row.sourcePointer = some (.object pointer) ∧
    pointer.lookup "chunk_id" = some (.string chunk.chunkId)

/-- The row points to a call that wrote the selection to the file. -/
def IsWrittenMatch (db : MetadataDb) (filePath selection : String) (row : IndexedRow) : Prop :=
  ∃ record ∈ db.sessions.rows,
    ∃ chunk ∈ db.listSourceSessionChunks record.sourceId record.externalSessionId,
      row.PointsTo record chunk ∧ chunk.isMutationCall = true ∧
        (∃ path, chunk.calledPath = some path ∧
          blamePathMatches filePath path record.repoPath = true) ∧
        chunk.wrote selection = true

/-- The evidence of a row: the call wrote the selection, or no call of the session did and
this one recorded it. -/
inductive RestsOn (calls : List SourceSessionChunkRow) (selection : String)
    (chunk : SourceSessionChunkRow) : EvidenceKind → Prop where
  | written (wrote : chunk.wrote selection = true) : RestsOn calls selection chunk .exactEditHunk
  | recorded (noneWrote : ∀ call ∈ calls, call.isMutationCall = true → call.wrote selection = false)
      (recorded : chunk.recorded selection = true) : RestsOn calls selection chunk .exactDiffHunk

/-- The row points to a call of a session that touched the file, and names its evidence. -/
def IsEvidencedMatch (db : MetadataDb) (filePath selection : String) (row : IndexedRow) : Prop :=
  ∃ record ∈ db.sessions.rows, record.touches filePath = true ∧
    ∃ chunk ∈ db.listSourceSessionChunks record.sourceId record.externalSessionId,
      row.PointsTo record chunk ∧ chunk.isMutationCall = true ∧
        ∃ kind : EvidenceKind, row.confidence = some kind.name ∧
          RestsOn (db.listSourceSessionChunks record.sourceId record.externalSessionId) selection chunk
            kind

/-! ## The evidence of a call -/

theorem exists_of_textEvidenceFromStrings {strings : List String} {selection : String}
    {kind : EvidenceKind} {evidence : List (String × Json)}
    (found : textEvidenceFromStrings strings selection kind = some evidence) :
    strings.any (holdsSelection selection) = true ∧
      ∃ matched, evidence = matchEvidence kind matched (matchLines selection) := by
  obtain ⟨text, member, counted⟩ := List.exists_of_findSome?_eq_some found
  dsimp only at counted
  split at counted
  · rename_i holds
    exact ⟨List.any_eq_true.mpr ⟨text, member, holds⟩, _, (Option.some.inj counted).symm⟩
  · cases counted

theorem not_holds_of_textEvidenceFromStrings {strings : List String} {selection : String}
    {kind : EvidenceKind} (missing : textEvidenceFromStrings strings selection kind = none) :
    strings.any (holdsSelection selection) = false := by
  rw [List.any_eq_false]
  intro text member holds
  have counted := List.findSome?_eq_none_iff.mp missing text member
  dsimp only at counted
  split at counted
  · cases counted
  · rename_i notHeld
    exact notHeld holds

section Calls
variable {selection : String} {chunk : SourceSessionChunkRow} {evidence : List (String × Json)}

/-- What a call wrote is its evidence before what it recorded. -/
theorem chunkTextEvidence_cases
    (found : chunkTextEvidence chunk.argsJson chunk.resultJson chunk.rawJson selection =
      some evidence) :
    (∃ matched, evidence = matchEvidence .exactEditHunk matched (matchLines selection)) ∧
        chunk.wrote selection = true ∨
      (∃ matched, evidence = matchEvidence .exactDiffHunk matched (matchLines selection)) ∧
        chunk.wrote selection = false ∧ chunk.recorded selection = true := by
  rcases Option.or_eq_some_iff.mp found with inArguments | ⟨notWritten, inOutputs⟩
  · obtain ⟨wrote, isEvidence⟩ := exists_of_textEvidenceFromStrings inArguments
    exact .inl ⟨isEvidence, wrote⟩
  · obtain ⟨recorded, isEvidence⟩ := exists_of_textEvidenceFromStrings inOutputs
    exact .inr ⟨isEvidence, not_holds_of_textEvidenceFromStrings notWritten, recorded⟩

theorem evidenceKindOf_matchEvidence (kind : EvidenceKind) (matched selected : List String) :
    evidenceKindOf (matchEvidence kind matched selected) = some kind.name := by
  unfold evidenceKindOf
  rw [lookup_kind_matchEvidence]
  rfl

/-- A call that wrote the selection has evidence. -/
theorem exists_chunkTextEvidence_of_wrote (wrote : chunk.wrote selection = true) :
    ∃ evidence, chunkTextEvidence chunk.argsJson chunk.resultJson chunk.rawJson selection =
      some evidence := by
  cases found : chunkTextEvidence chunk.argsJson chunk.resultJson chunk.rawJson selection with
  | some evidence => exact ⟨evidence, rfl⟩
  | none =>
      have notWritten := not_holds_of_textEvidenceFromStrings (Option.or_eq_none_iff.mp found).1
      exact absurd wrote (Bool.not_eq_true _ ▸ notWritten)

end Calls

/-! ## The call that is chosen -/

abbrev EvidenceEntry := Nat × SourceSessionChunkRow × List (String × Json)

def EvidenceEntry.better (left right : EvidenceEntry) : Bool :=
  left.1 < right.1 || left.1 == right.1 && right.2.1.chunkIndex < left.2.1.chunkIndex

/-- A call with its evidence. -/
def evidenceEntry (selection : String) (chunk : SourceSessionChunkRow) : Option EvidenceEntry :=
  if chunk.isMutationCall then
    (chunkTextEvidence chunk.argsJson chunk.resultJson chunk.rawJson selection).map fun evidence =>
      (((evidenceKindOf evidence).map provenanceRank).getD 2, chunk, evidence)
  else none

theorem betterEvidence_eq (selection : String) (best : Option EvidenceEntry)
    (chunk : SourceSessionChunkRow) :
    betterEvidence selection best chunk =
      match evidenceEntry selection chunk with
      | some entry => Select.keepBetter EvidenceEntry.better best entry
      | none => best := by
  have guard : (chunk.actionType != "tool_call" || !isFileMutationTool chunk.function) =
      !chunk.isMutationCall := by
    unfold SourceSessionChunkRow.isMutationCall
    rw [Bool.not_and]
    rfl
  unfold betterEvidence evidenceEntry
  rw [guard]
  cases chunk.isMutationCall with
  | false => rfl
  | true =>
      cases chunkTextEvidence chunk.argsJson chunk.resultJson chunk.rawJson selection with
      | none => rfl
      | some evidence => rfl

theorem EvidenceEntry.better_asymm (first second : EvidenceEntry)
    (ahead : first.better second = true) : second.better first = false := by
  simp only [better, Bool.or_eq_true, Bool.and_eq_true, beq_iff_eq, decide_eq_true_eq,
    Bool.or_eq_false_iff, Bool.and_eq_false_imp, decide_eq_false_iff_not] at ahead ⊢
  omega

theorem EvidenceEntry.not_better_trans (first second third : EvidenceEntry)
    (left : first.better second = false) (right : second.better third = false) :
    first.better third = false := by
  simp only [better, Bool.or_eq_false_iff, Bool.and_eq_false_imp, beq_iff_eq,
    decide_eq_false_iff_not] at left right ⊢
  omega

/-- The chosen call has evidence, and no call of the session has better. -/
theorem evidenceEntry_of_textMatchChunk {db : MetadataDb} {sourceId externalSessionId : String}
    {selection : String} {found : SourceSessionChunkRow × List (String × Json)}
    (isFound : sourceSessionTextMatchChunk db sourceId externalSessionId selection = some found) :
    ∃ rank, (∃ call ∈ db.listSourceSessionChunks sourceId externalSessionId,
        evidenceEntry selection call = some (rank, found)) ∧
      ∀ call ∈ db.listSourceSessionChunks sourceId externalSessionId, ∀ entry,
        evidenceEntry selection call = some entry → entry.better (rank, found) = false := by
  obtain ⟨⟨rank, chosen⟩, isChosen, rfl⟩ := Option.map_eq_some_iff.mp isFound
  have entries : ((db.listSourceSessionChunks sourceId externalSessionId).filterMap
      (evidenceEntry selection)).foldl (Select.keepBetter EvidenceEntry.better) none =
        some (rank, chosen) := by
    rw [List.foldl_filterMap, ← isChosen]
    congr
    funext best chunk
    rw [betterEvidence_eq]
    cases evidenceEntry selection chunk with
    | none => rfl
    | some entry => rfl
  obtain ⟨kept, noneBetter, _⟩ := Select.best_of_foldl_keepBetter EvidenceEntry.better_asymm
    EvidenceEntry.not_better_trans entries
  refine ⟨rank, List.mem_filterMap.mp (kept.resolve_right fun absent => nomatch absent), ?_⟩
  intro call member entry isEntry
  exact noneBetter entry (List.mem_filterMap.mpr ⟨call, member, isEntry⟩)

theorem mutation_of_evidenceEntry {selection : String} {chunk : SourceSessionChunkRow}
    {entry : EvidenceEntry} (isEntry : evidenceEntry selection chunk = some entry) :
    chunk.isMutationCall = true ∧ entry.2.1 = chunk ∧
      chunkTextEvidence chunk.argsJson chunk.resultJson chunk.rawJson selection = some entry.2.2 ∧
        entry.1 = ((evidenceKindOf entry.2.2).map provenanceRank).getD 2 := by
  unfold evidenceEntry at isEntry
  split at isEntry
  · rename_i mutation
    obtain ⟨evidence, found, rfl⟩ := Option.map_eq_some_iff.mp isEntry
    exact ⟨mutation, rfl, found, rfl⟩
  · cases isEntry

theorem evidenceEntry_of_evidence {selection : String} {chunk : SourceSessionChunkRow}
    {kind : EvidenceKind} {matched : List String} (mutation : chunk.isMutationCall = true)
    (found : chunkTextEvidence chunk.argsJson chunk.resultJson chunk.rawJson selection =
      some (matchEvidence kind matched (matchLines selection))) :
    evidenceEntry selection chunk = some (provenanceRank kind.name, chunk,
      matchEvidence kind matched (matchLines selection)) := by
  unfold evidenceEntry
  rw [if_pos mutation, found, Option.map_some, evidenceKindOf_matchEvidence]
  rfl

/-- The call that is chosen for a session, with its evidence. -/
theorem restsOn_of_textMatchChunk {db : MetadataDb} {sourceId externalSessionId selection : String}
    {chunk : SourceSessionChunkRow} {evidence : List (String × Json)}
    (isFound : sourceSessionTextMatchChunk db sourceId externalSessionId selection =
      some (chunk, evidence)) :
    chunk ∈ db.listSourceSessionChunks sourceId externalSessionId ∧ chunk.isMutationCall = true ∧
      ∃ kind matched, evidence = matchEvidence kind matched (matchLines selection) ∧
        RestsOn (db.listSourceSessionChunks sourceId externalSessionId) selection chunk kind := by
  obtain ⟨rank, ⟨call, member, isEntry⟩, noneBetter⟩ := evidenceEntry_of_textMatchChunk isFound
  obtain ⟨mutation, rfl, found, isRank⟩ := mutation_of_evidenceEntry isEntry
  refine ⟨member, mutation, ?_⟩
  dsimp only at found isRank
  rcases chunkTextEvidence_cases found with ⟨⟨matched, rfl⟩, wrote⟩ | ⟨⟨matched, rfl⟩, _, recorded⟩
  · exact ⟨.exactEditHunk, matched, rfl, .written wrote⟩
  · refine ⟨.exactDiffHunk, matched, rfl, .recorded ?_ recorded⟩
    -- A call that wrote the selection would rank before this one.
    intro other isCall otherMutation
    rw [← Bool.not_eq_true]
    intro wrote
    obtain ⟨better, isBetter⟩ := exists_chunkTextEvidence_of_wrote wrote
    rcases chunkTextEvidence_cases isBetter with ⟨⟨otherMatched, rfl⟩, _⟩ | ⟨_, notWritten, _⟩
    · have notAhead := noneBetter other isCall _ (evidenceEntry_of_evidence otherMutation isBetter)
      rw [evidenceKindOf_matchEvidence] at isRank
      rw [isRank] at notAhead
      revert notAhead
      unfold EvidenceEntry.better
      simp [provenanceRank, EvidenceKind.name]
    · rw [notWritten] at wrote
      cases wrote

/-! ## The rows of the answer -/

theorem IndexedRow.pointer_editPointer {row : IndexedRow} {pointer : List (String × Json)}
    (held : row.sourcePointer = some (.object pointer))
    (edit : List (String × Json) → List (String × Json)) :
    (row.editPointer edit).sourcePointer = some (.object (edit pointer)) := by
  unfold IndexedRow.editPointer
  rw [held]

section Rows
variable {rfc3339 : DateTime → String}

theorem pointsTo_textMatchRow (filePath : String) (record : SourceSessionRecord)
    (chunk : SourceSessionChunkRow) (evidence : List (String × Json)) :
    (textMatchRow rfc3339 filePath record chunk evidence).PointsTo record chunk := by
  unfold textMatchRow
  dsimp only
  constructor
  · rw [(IndexedRow.session_editPointer _ _).1]
    rfl
  · rw [(IndexedRow.session_editPointer _ _).2.1]
    rfl
  · exact ⟨_, IndexedRow.pointer_editPointer rfl _, lookup_chunkId_pointToChunk ..⟩

theorem confidence_textMatchRow (filePath : String) (record : SourceSessionRecord)
    (chunk : SourceSessionChunkRow) (kind : EvidenceKind) (matched selected : List String) :
    (textMatchRow rfc3339 filePath record chunk (matchEvidence kind matched selected)).confidence =
      some kind.name := by
  unfold textMatchRow
  dsimp only
  rw [IndexedRow.confidence_editPointer, evidenceKindOf_matchEvidence]
  rfl

end Rows

/-! ## A diff that was only shown -/

def shownDiff : ActivityChunk :=
  { editOf "src/lib.rs" with
    function := "run_shell"
    args := .object [("command", .string "git diff -- src/lib.rs")]
    result := .object [("observation", .string "+let answer = 42;\n+let other = 43;")] }

def writtenEdit : ActivityChunk :=
  { editOf "src/lib.rs" with
    args := .object [("file_path", .string "src/lib.rs"), ("new_string", .string "let answer = 42;")] }

/-- The database of a session that touched the file and made one call. -/
def calledDb (chunk : ActivityChunk) : MetadataDb :=
  { MetadataDb.new with
    sessions := ⟨[editedSession "src/lib.rs"], List.nodup_singleton _⟩
    chunks := ⟨[MetadataDb.chunkRow "codex_app" "session-1" 0 chunk], List.nodup_singleton _⟩ }

def libQuery : SourceFileSessionBlameQuery := ⟨"src/lib.rs", none, some "/repo", 20⟩

end BrickTrace
