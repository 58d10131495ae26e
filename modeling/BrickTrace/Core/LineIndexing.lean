import BrickTrace.Core.FileTouchTimes
import BrickTrace.Core.LineProvenance
import BrickTrace.Core.SourceSessionChunks

/-!
# Indexing the lines of an edit

When the chunks of a session are written, the lines of each edit are indexed by their text.
The lines pass a filter for diffs: a marker of an added line is taken off, and headers and
removed lines are left out.  Text that only looks like a diff passes the same filter.
-/

set_option autoImplicit false

namespace BrickTrace

open Json
open KeyedRows (KeyedTable)

/-! ## Lines of a chunk -/

def chunkFilePath (chunk : ActivityChunk) : Option String :=
  (["file_path", "path", "target_file", "file"].findSome? fun name =>
    (chunk.args.get name).bind decodeString).or chunk.sourcePath

def editToolPayloadHasContent (args : Json) : Bool :=
  writtenArguments.any fun name => (args.get name).isSome

def diffAddedOrPlainLine (line : String) : Option String :=
  let trimmed := trimEnd line
  if startsWith trimmed "+++" || startsWith trimmed "---" || startsWith trimmed "@@" then none
  else
    match stripStart trimmed "+" with
    | some rest => some rest
    | none =>
        let plain := trimStart trimmed
        if plain = "" || startsWith plain "-" then none else some trimmed

/-- The texts of a chunk that are evidence of one kind. -/
def provenanceTexts (chunk : ActivityChunk) : EvidenceKind → List String
  | .exactEditHunk =>
      writtenArguments.flatMap fun name => ((chunk.args.get name).map collectJsonStrings).getD []
  | .exactDiffHunk => collectJsonStrings chunk.result

def chunkProvenanceLines (chunk : ActivityChunk) (kind : EvidenceKind) : List String :=
  FirstSeen.fresh (fun line => line) []
    ((((provenanceTexts chunk kind).flatMap fun value =>
      (textLines value).filterMap diffAddedOrPlainLine).map normalizeLineText).filter
        fun line => 6 ≤ line.utf8ByteSize)

def normalizeIndexPath (path : String) : String := trimStartOf '/' path

def linePreview (line : String) : String := String.ofList (line.toList.take 160)

/-! ## Rows -/

section Rows
variable (hashText : String → String) (sourceId externalSessionId : String)

def lineHash (line : String) : String := hashText (normalizeLineText line)

def lineProvenanceRow (chunkIndex : Nat) (chunk : ActivityChunk) (filePath : String)
    (kind : EvidenceKind) (line : String) : LineProvenanceRow where
  sourceId := sourceId
  externalSessionId := externalSessionId
  filePath := filePath
  normalizedFilePath := normalizeIndexPath filePath
  lineHash := lineHash hashText line
  lineText := line
  linePreview := linePreview line
  chunkId := chunk.chunkId
  chunkIndex := chunkIndex
  function := chunk.function
  evidenceKind := kind
  matchedLineCount := 1
  selectedLineCount := 1
  createdAt := chunk.createdAt
  evidenceJson :=
    [("kind", .string kind.name), ("file_path", .string filePath),
      ("line_preview", .string (linePreview line)), ("source", encodeText chunk.sourceId),
      ("session_id", .string chunk.sessionId), ("chunk_id", .string chunk.chunkId),
      ("chunk_index", encodeCount chunkIndex), ("function", .string chunk.function)].foldl
        (fun entries field => insertEntry field.1 field.2 entries) []

/-- The kind of evidence that a chunk is. -/
def provenanceKind (chunk : ActivityChunk) : EvidenceKind :=
  if editToolPayloadHasContent chunk.args then .exactEditHunk else .exactDiffHunk

def lineProvenanceForChunk (chunkIndex : Nat) (chunk : ActivityChunk) : List LineProvenanceRow :=
  if chunk.actionType != "tool_call" || !isFileMutationTool chunk.function then []
  else
    match chunkFilePath chunk with
    | none => []
    | some filePath =>
        (chunkProvenanceLines chunk (provenanceKind chunk)).map
          (lineProvenanceRow hashText sourceId externalSessionId chunkIndex chunk filePath
            (provenanceKind chunk))

/-- The chunks and the lines of a session are replaced together. -/
def LineProvenanceDb.upsertSourceSessionChunks (chunks : List ActivityChunk)
    (db : LineProvenanceDb) : Option LineProvenanceDb :=
  (db.metadata.upsertSourceSessionChunks sourceId externalSessionId chunks).map fun metadata =>
    { metadata := metadata
      lines := (db.lines.deleteWhere fun row =>
        row.sourceId == sourceId && row.externalSessionId == externalSessionId).insertOrIgnoreAll
          (chunks.mapIdx (lineProvenanceForChunk hashText sourceId externalSessionId)).flatten }

end Rows

/-! ## What an edit leaves in the index -/

/-- A line that the filter takes for a part of a diff. -/
def markedLine (line : String) : Bool :=
  let trimmed := trimEnd line
  startsWith trimmed "+" || startsWith trimmed "---" || startsWith trimmed "@@" ||
    startsWith (trimStart trimmed) "-"

/-- Some line that is indexed for the chunk answers for the text. -/
def LineKept (hashText : String → String) (chunk : ActivityChunk) (line : String) : Prop :=
  ∃ kept ∈ FirstSeen.fresh (lineHash hashText) []
      (chunkProvenanceLines chunk (provenanceKind chunk)),
    lineHash hashText kept = hashText (normalizeLineText line) ∨ kept = normalizeLineText line ∨
      linePreview kept = normalizeLineText line

/-- The record is of a line that the chunk wrote. -/
structure SourceFileLineProvenanceRecord.IsOf (found : SourceFileLineProvenanceRecord)
    (sourceId externalSessionId : String) (chunk : ActivityChunk) : Prop where
  source : found.row.sourceId = some sourceId
  session : found.row.externalSessionId = some externalSessionId
  chunk : ∃ pointer, found.row.sourcePointer = some (.object pointer) ∧
    pointer.lookup "chunk_id" = some (.string chunk.chunkId)

/-! ### The filter -/

theorem startsWith_trans {text start shorter : String} (isStart : startsWith text start = true)
    (shorterStart : startsWith start shorter = true) : startsWith text shorter = true := by
  unfold startsWith at isStart shorterStart ⊢
  rw [List.isPrefixOf_iff_prefix] at isStart shorterStart ⊢
  exact shorterStart.trans isStart

/-- A line without markers passes the filter as it is. -/
theorem diffAddedOrPlainLine_of_unmarked {line : String} (unmarked : markedLine line = false)
    (notBlank : normalizeLineText line ≠ "") : diffAddedOrPlainLine line = some (trimEnd line) := by
  unfold markedLine at unmarked
  dsimp only at unmarked
  rw [Bool.or_eq_false_iff, Bool.or_eq_false_iff, Bool.or_eq_false_iff] at unmarked
  obtain ⟨⟨⟨noPlus, noHeader⟩, noHunk⟩, noMinus⟩ := unmarked
  have noHeaderPlus : startsWith (trimEnd line) "+++" = false := by
    rw [← Bool.not_eq_true] at noPlus ⊢
    exact fun isHeader => noPlus (startsWith_trans isHeader (by decide))
  have noRest : stripStart (trimEnd line) "+" = none := by
    unfold stripStart
    rw [noPlus]
    rfl
  unfold diffAddedOrPlainLine
  dsimp only
  rw [noHeaderPlus, noHeader, noHunk, noRest, noMinus]
  dsimp only
  rw [trimStart_trimEnd]
  have plain : (decide (trim line = "") || false) = false := by
    rw [Bool.or_false]
    exact decide_eq_false notBlank
  rw [if_neg (by decide), plain]
  rfl

theorem mem_chunkProvenanceLines {chunk : ActivityChunk} {kind : EvidenceKind} {found : String} :
    found ∈ chunkProvenanceLines chunk kind ↔ 6 ≤ found.utf8ByteSize ∧
      ∃ value ∈ provenanceTexts chunk kind, ∃ line ∈ textLines value,
        ∃ rest, diffAddedOrPlainLine line = some rest ∧ normalizeLineText rest = found := by
  have keys := @FirstSeen.mem_fresh_keys _ _ _ (fun line : String => line) []
    ((((provenanceTexts chunk kind).flatMap fun value =>
      (textLines value).filterMap diffAddedOrPlainLine).map normalizeLineText).filter
        fun line => 6 ≤ line.utf8ByteSize) found
  rw [List.map_id', List.map_id'] at keys
  unfold chunkProvenanceLines
  rw [keys, List.mem_filter, decide_eq_true_iff, and_comm (a := found ∈ _)]
  simp only [List.not_mem_nil, not_false_eq_true, true_and, List.mem_map, List.mem_flatMap,
    List.mem_filterMap]
  apply and_congr_right
  intro _
  constructor
  · rintro ⟨rest, ⟨value, isText, line, isLine, passed⟩, rfl⟩
    exact ⟨value, isText, line, isLine, rest, passed, rfl⟩
  · rintro ⟨value, isText, line, isLine, rest, passed, rfl⟩
    exact ⟨rest, ⟨value, isText, line, isLine, passed⟩, rfl⟩

/-- A line without markers is indexed, or one with its digest is. -/
theorem lineKept_of_unmarked {hashText : String → String} {chunk : ActivityChunk} {text line : String}
    (isText : text ∈ provenanceTexts chunk (provenanceKind chunk)) (isLine : line ∈ textLines text)
    (long : 6 ≤ (normalizeLineText line).utf8ByteSize) (unmarked : markedLine line = false) :
    LineKept hashText chunk line := by
  have notBlank : normalizeLineText line ≠ "" := by
    intro blank
    rw [blank] at long
    exact absurd long (by decide)
  have indexed : normalizeLineText line ∈ chunkProvenanceLines chunk (provenanceKind chunk) :=
    mem_chunkProvenanceLines.mpr ⟨long, text, isText, line, isLine, trimEnd line,
      diffAddedOrPlainLine_of_unmarked unmarked notBlank, trim_trimEnd line⟩
  have keyed := (FirstSeen.key_known_or_fresh (lineHash hashText) [] indexed).resolve_left
    List.not_mem_nil
  obtain ⟨kept, isKept, sameDigest⟩ := List.mem_map.mp keyed
  refine ⟨kept, isKept, .inl ?_⟩
  rw [sameDigest]
  exact congrArg hashText (trim_trim line)

/-! ### The rows of a chunk -/

section Upsert
variable {hashText : String → String} {sourceId externalSessionId : String}
  {chunks : List ActivityChunk} {db written : LineProvenanceDb}

theorem exists_of_mem_lineProvenanceForChunk {index : Nat} {chunk : ActivityChunk}
    {row : LineProvenanceRow}
    (member : row ∈ lineProvenanceForChunk hashText sourceId externalSessionId index chunk) :
    ∃ filePath kind line,
      row = lineProvenanceRow hashText sourceId externalSessionId index chunk filePath kind line := by
  unfold lineProvenanceForChunk at member
  split at member
  · cases member
  · split at member
    · cases member
    · rename_i filePath _
      obtain ⟨line, _, rfl⟩ := List.mem_map.mp member
      exact ⟨filePath, provenanceKind chunk, line, rfl⟩

/-- The rows of an edit that are kept are those of the first line with each digest. -/
theorem fresh_lineProvenanceForChunk {index : Nat} {chunk : ActivityChunk} {filePath : String}
    (isCall : chunk.actionType = "tool_call") (isMutation : isFileMutationTool chunk.function = true)
    (isPath : chunkFilePath chunk = some filePath) :
    FirstSeen.fresh LineProvenanceRow.key []
        (lineProvenanceForChunk hashText sourceId externalSessionId index chunk) =
      (FirstSeen.fresh (lineHash hashText) []
        (chunkProvenanceLines chunk (provenanceKind chunk))).map
          (lineProvenanceRow hashText sourceId externalSessionId index chunk filePath
            (provenanceKind chunk)) := by
  have rows : lineProvenanceForChunk hashText sourceId externalSessionId index chunk =
      (chunkProvenanceLines chunk (provenanceKind chunk)).map
        (lineProvenanceRow hashText sourceId externalSessionId index chunk filePath
          (provenanceKind chunk)) := by
    unfold lineProvenanceForChunk
    rw [isCall, isMutation, isPath]
    rfl
  have injective : Function.Injective fun hash : String =>
      ((sourceId, externalSessionId), normalizeIndexPath filePath, hash, chunk.chunkId) := by
    intro left right same
    exact congrArg (fun key => key.2.2.1) same
  rw [rows, FirstSeen.fresh_map_comp]
  exact congrArg _ (FirstSeen.fresh_of_injective (lineHash hashText) injective [] _)

/-- The session of chunks that were written is known. -/
theorem session_known_of_upsert {metadata stored : MetadataDb}
    (done : metadata.upsertSourceSessionChunks sourceId externalSessionId chunks = some stored) :
    ∃ record, stored.getSourceSession sourceId externalSessionId = some record := by
  obtain ⟨rows, _, rfl⟩ := MetadataDb.upsertSourceSessionChunks_ok done
  cases known : metadata.getSourceSession sourceId externalSessionId with
  | none =>
      unfold MetadataDb.upsertSourceSessionChunks at done
      rw [known] at done
      cases done
  | some record => exact ⟨record, known⟩

/-- No two chunks of a session that was written share their id. -/
theorem chunkIds_apart {metadata stored : MetadataDb}
    (done : metadata.upsertSourceSessionChunks sourceId externalSessionId chunks = some stored) :
    chunks.Pairwise fun left right => left.chunkId ≠ right.chunkId := by
  obtain ⟨rows, inserted, _⟩ := MetadataDb.upsertSourceSessionChunks_ok done
  have distinct := rows.primaryKey
  rw [KeyedTable.rows_of_foldlM_insert inserted, List.map_append, List.nodup_append] at distinct
  have apart := List.pairwise_map.mp distinct.2.1
  rw [List.pairwise_iff_getElem] at apart ⊢
  intro first second firstBound secondBound before sameId
  apply apart first second (by rwa [List.length_mapIdx]) (by rwa [List.length_mapIdx]) before
  rw [List.getElem_mapIdx, List.getElem_mapIdx]
  exact congrArg (Prod.mk (sourceId, externalSessionId)) sameId

theorem upsertSourceSessionChunks_rows
    (done : db.upsertSourceSessionChunks hashText sourceId externalSessionId chunks = some written) :
    ∃ metadata, db.metadata.upsertSourceSessionChunks sourceId externalSessionId chunks =
        some metadata ∧ written.metadata = metadata ∧
      written.lines.rows = (db.lines.rows.filter fun row =>
        !(row.sourceId == sourceId && row.externalSessionId == externalSessionId)) ++
          FirstSeen.fresh LineProvenanceRow.key ((db.lines.rows.filter fun row =>
            !(row.sourceId == sourceId && row.externalSessionId == externalSessionId)).map
              LineProvenanceRow.key)
            (chunks.mapIdx (lineProvenanceForChunk hashText sourceId externalSessionId)).flatten := by
  obtain ⟨metadata, stored, rfl⟩ := Option.map_eq_some_iff.mp done
  exact ⟨metadata, stored, rfl, KeyedTable.rows_insertOrIgnoreAll _ _⟩

/-- Afterwards the lines of a session are those that its chunks wrote. -/
theorem mem_lines_of_upsert
    (done : db.upsertSourceSessionChunks hashText sourceId externalSessionId chunks = some written)
    {row : LineProvenanceRow} (ofSource : row.sourceId = sourceId)
    (ofSession : row.externalSessionId = externalSessionId) :
    row ∈ written.lines.rows ↔ ∃ index chunk, chunks[index]? = some chunk ∧
      row ∈ FirstSeen.fresh LineProvenanceRow.key []
        (lineProvenanceForChunk hashText sourceId externalSessionId index chunk) := by
  obtain ⟨metadata, stored, _, rows⟩ := upsertSourceSessionChunks_rows done
  have apart : (chunks.mapIdx (lineProvenanceForChunk hashText sourceId externalSessionId)).Pairwise
      fun first second => ∀ left ∈ first, ∀ right ∈ second, left.key ≠ right.key := by
    have idsApart := chunkIds_apart stored
    rw [List.pairwise_iff_getElem] at idsApart ⊢
    intro first second firstBound secondBound before left isLeft right isRight sameKey
    rw [List.getElem_mapIdx] at isLeft isRight
    obtain ⟨_, _, _, rfl⟩ := exists_of_mem_lineProvenanceForChunk isLeft
    obtain ⟨_, _, _, rfl⟩ := exists_of_mem_lineProvenanceForChunk isRight
    rw [List.length_mapIdx] at firstBound secondBound
    exact idsApart first second firstBound secondBound before
      (congrArg (fun key => key.2.2.2) sameKey)
  have unknown : ∀ group ∈ chunks.mapIdx (lineProvenanceForChunk hashText sourceId externalSessionId),
      ∀ item ∈ group, item.key ∉ (db.lines.rows.filter fun row =>
        !(row.sourceId == sourceId && row.externalSessionId == externalSessionId)).map
          LineProvenanceRow.key := by
    intro group isGroup item member held
    obtain ⟨index, _, rfl⟩ := List.mem_mapIdx.mp isGroup
    obtain ⟨_, _, _, rfl⟩ := exists_of_mem_lineProvenanceForChunk member
    obtain ⟨other, isKept, sameKey⟩ := List.mem_map.mp held
    have session := congrArg Prod.fst sameKey
    have foreign := (List.mem_filter.mp isKept).2
    have sameSource : other.sourceId = sourceId := congrArg Prod.fst session
    have sameSession : other.externalSessionId = externalSessionId := congrArg Prod.snd session
    simp [sameSource, sameSession] at foreign
  rw [rows, List.mem_append, FirstSeen.mem_fresh_flatten LineProvenanceRow.key apart unknown]
  constructor
  · rintro (foreign | ⟨group, isGroup, isFresh⟩)
    · have notOwn := (List.mem_filter.mp foreign).2
      simp [ofSource, ofSession] at notOwn
    · obtain ⟨index, bound, rfl⟩ := List.mem_mapIdx.mp isGroup
      exact ⟨index, chunks[index], List.getElem?_eq_getElem bound, isFresh⟩
  · rintro ⟨index, chunk, isChunk, isFresh⟩
    obtain ⟨bound, rfl⟩ := List.getElem?_eq_some_iff.mp isChunk
    exact .inr ⟨_, List.mem_mapIdx.mpr ⟨index, bound, rfl⟩, isFresh⟩

end Upsert

/-! ### The query -/

section Found
variable {rfc3339 : DateTime → String} {query : SourceFileLineProvenanceQuery}
  {hashText : String → String} {sourceId externalSessionId : String} {chunks : List ActivityChunk}
  {db written : LineProvenanceDb}

/-- Whether the index answers for a text by the row. -/
def LineProvenanceRow.Answers (row : LineProvenanceRow) (hashText : String → String)
    (needle : String) : Prop :=
  row.lineHash = hashText needle ∨ row.lineText = needle ∨ row.linePreview = needle

theorem mem_querySourceFileLineProvenance (notBlank : normalizeLineText query.lineText ≠ "")
    (fits : db.lines.rows.length ≤ MetadataDb.normalizedLimit query.limit)
    {found : SourceFileLineProvenanceRecord} :
    found ∈ querySourceFileLineProvenance rfc3339 query hashText db ↔
      ∃ row ∈ db.lines.rows, query.sourceId.all (· == row.sourceId) = true ∧
        row.Answers hashText (normalizeLineText query.lineText) ∧
        ∃ record, db.metadata.getSourceSession row.sourceId row.externalSessionId = some record ∧
          blamePathMatches query.filePath row.filePath record.repoPath = true ∧
          lineProvenanceRecord rfc3339 query record row = found := by
  have joined : ∀ entry, entry ∈ rowsOfLine query hashText db (normalizeLineText query.lineText) ↔
      entry.2 ∈ db.lines.rows ∧ query.sourceId.all (· == entry.2.sourceId) = true ∧
        entry.2.Answers hashText (normalizeLineText query.lineText) ∧
        db.metadata.getSourceSession entry.2.sourceId entry.2.externalSessionId = some entry.1 := by
    intro entry
    unfold rowsOfLine LineProvenanceRow.Answers
    rw [List.mem_filterMap]
    constructor
    · rintro ⟨row, member, isEntry⟩
      obtain ⟨record, isRecord, rfl⟩ := Option.map_eq_some_iff.mp isEntry
      obtain ⟨inTable, matched⟩ := List.mem_filter.mp (List.mem_mergeSort.mp member)
      simp only [Bool.and_eq_true, Bool.or_eq_true, beq_iff_eq, or_assoc] at matched
      exact ⟨inTable, matched.1, matched.2, isRecord⟩
    · rintro ⟨inTable, ofSource, answers, isRecord⟩
      refine ⟨entry.2, List.mem_mergeSort.mpr (List.mem_filter.mpr ⟨inTable, ?_⟩), ?_⟩
      · simp only [Bool.and_eq_true, Bool.or_eq_true, beq_iff_eq, or_assoc]
        exact ⟨ofSource, answers⟩
      · rw [isRecord]
        rfl
  have few : (rowsOfLine query hashText db (normalizeLineText query.lineText)).length ≤
      db.lines.rows.length := by
    unfold rowsOfLine
    refine (List.length_filterMap_le ..).trans ?_
    rw [List.length_mergeSort]
    exact List.length_filter_le ..
  unfold querySourceFileLineProvenance
  dsimp only
  rw [if_neg notBlank, List.take_of_length_le]
  · rw [List.mem_map]
    constructor
    · rintro ⟨ranked, isRanked, rfl⟩
      obtain ⟨entry, isEntry, rfl⟩ := List.mem_map.mp (List.mem_mergeSort.mp isRanked)
      obtain ⟨inJoin, matched⟩ := List.mem_filter.mp isEntry
      obtain ⟨inTable, ofSource, answers, isRecord⟩ := (joined entry).mp inJoin
      exact ⟨entry.2, inTable, ofSource, answers, entry.1, isRecord, matched, rfl⟩
    · rintro ⟨row, inTable, ofSource, answers, record, isRecord, matched, rfl⟩
      have inJoin := (joined (record, row)).mpr ⟨inTable, ofSource, answers, isRecord⟩
      exact ⟨_, List.mem_mergeSort.mpr (List.mem_map.mpr
        ⟨(record, row), List.mem_filter.mpr ⟨inJoin, matched⟩, rfl⟩), rfl⟩
  · rw [List.length_map, List.length_mergeSort, List.length_map]
    exact (List.length_filter_le ..).trans (few.trans fits)

theorem lookup_chunkId_pointToChunk (chunkId : String) (chunkIndex : Nat) (function kind : String)
    (evidence : Json) (pointer : List (String × Json)) :
    (pointToChunk chunkId chunkIndex function kind evidence pointer).lookup "chunk_id" =
      some (.string chunkId) := by
  unfold pointToChunk
  rw [List.foldl_cons, lookup_foldl_insertEntry_of_notMem (by simp), lookup_insertEntry_self]

/-- A record is of the session and of the chunk that its row names. -/
theorem isOf_lineProvenanceRecord_iff {record : SourceSessionRecord} {row : LineProvenanceRow}
    (isRecord : db.metadata.getSourceSession row.sourceId row.externalSessionId = some record)
    {chunk : ActivityChunk} :
    (lineProvenanceRecord rfc3339 query record row).IsOf sourceId externalSessionId chunk ↔
      row.sourceId = sourceId ∧ row.externalSessionId = externalSessionId ∧
        row.chunkId = chunk.chunkId := by
  have sameKey : (record.sourceId, record.externalSessionId) =
      (row.sourceId, row.externalSessionId) := (KeyedTable.find_eq_some_iff.mp isRecord).2
  have sameSource : record.sourceId = row.sourceId := congrArg Prod.fst sameKey
  have sameSession : record.externalSessionId = row.externalSessionId := congrArg Prod.snd sameKey
  have chunkId := lookup_chunkId_pointToChunk row.chunkId row.chunkIndex row.function
    row.evidenceKind.name (.object (lineEvidence query.lineNumber row)) (sessionPointer record)
  constructor
  · intro isOf
    obtain ⟨pointer, isPointer, named⟩ := isOf.chunk
    have samePointer : pointToChunk row.chunkId row.chunkIndex row.function row.evidenceKind.name
        (.object (lineEvidence query.lineNumber row)) (sessionPointer record) = pointer :=
      Json.object.inj (Option.some.inj isPointer)
    rw [samePointer, named] at chunkId
    exact ⟨sameSource.symm.trans (Option.some.inj isOf.source),
      sameSession.symm.trans (Option.some.inj isOf.session),
      (Json.string.inj (Option.some.inj chunkId)).symm⟩
  · rintro ⟨ofSource, ofSession, ofChunk⟩
    refine ⟨congrArg some (sameSource.trans ofSource), congrArg some (sameSession.trans ofSession),
      _, rfl, ?_⟩
    rw [chunkId, ofChunk]

/-- What the claimed edits have in common: a mutation with the file and its content as texts. -/
structure WritesText (chunk : ActivityChunk) (filePath text : String) : Prop where
  isCall : chunk.actionType = "tool_call"
  isMutation : isFileMutationTool chunk.function = true
  isPath : chunk.args.get "file_path" = some (.string filePath)
  isText : chunk.args.get "new_string" = some (.string text) ∨
    chunk.args.get "content" = some (.string text)

theorem WritesText.chunkFilePath_eq {chunk : ActivityChunk} {filePath text : String}
    (writes : WritesText chunk filePath text) : chunkFilePath chunk = some filePath := by
  unfold chunkFilePath
  rw [List.findSome?_cons, writes.isPath]
  rfl

theorem WritesText.mem_provenanceTexts {chunk : ActivityChunk} {filePath text : String}
    (writes : WritesText chunk filePath text) :
    text ∈ provenanceTexts chunk (provenanceKind chunk) := by
  have written : ∃ name ∈ writtenArguments, chunk.args.get name = some (.string text) := by
    rcases writes.isText with isText | isText
    · exact ⟨"new_string", by decide, isText⟩
    · exact ⟨"content", by decide, isText⟩
  obtain ⟨name, member, held⟩ := written
  have hasContent : editToolPayloadHasContent chunk.args = true := by
    refine List.any_eq_true.mpr ⟨name, member, ?_⟩
    rw [held]
    rfl
  unfold provenanceKind
  rw [hasContent]
  refine List.mem_flatMap.mpr ⟨name, member, ?_⟩
  rw [held]
  exact List.mem_singleton_self text

end Found

/-! ### A list that looks like a diff -/

def writtenList (text : String) : ActivityChunk :=
  { editOf "todo.md" with
    function := "write_file"
    args := .object [("content", .string text), ("file_path", .string "todo.md")] }

def listDb : LineProvenanceDb := ⟨editedDb "todo.md", .empty⟩

def listQuery (line : String) : SourceFileLineProvenanceQuery where
  filePath := "todo.md"
  lineText := line
  lineNumber := none
  sourceId := none
  repoPath := none
  limit := 0

/-- The digests of the texts below. -/
def listDigest (text : String) : String :=
  if text = "ship it" then "bef4261f394bf71fd2b565cd76396ac9ed7953f9110c69ee49d7a82871238fbf"
  else if text = "take it" then "1174e8393887676191528abe4d486ae046762e8890979ccda3506100960ce5e5"
  else if text = "- ship it" then "c88a5b1d2d75d8d37b2df488fa66c5536925cc3b9c95dd6528e9918864654cfc"
  else if text = "+ take it" then "0e52487e5e9ec1ebe37c684a5470c4c43310c062eb88d3991c95fee0dcd21d8a"
  else ""

def epochText (_ : DateTime) : String := "1970-01-01T00:00:00+00:00"

def afterList (text : String) : Option LineProvenanceDb :=
  listDb.upsertSourceSessionChunks listDigest "codex_app" "session-1" [writtenList text]

theorem writesText_writtenList (text : String) : WritesText (writtenList text) "todo.md" text :=
  ⟨rfl, show isFileMutationTool "write_file" = true by decide, rfl, .inr rfl⟩

end BrickTrace
