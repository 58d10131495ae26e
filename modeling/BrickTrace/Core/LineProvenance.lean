import BrickTrace.Core.FileSessionBlame

/-!
# Provenance of single lines

The metadata database also keeps the lines that the tool calls of a session wrote, with
the call that wrote each.  A line is asked for by its text, in one file.
-/

set_option autoImplicit false

namespace BrickTrace

open Json
open KeyedRows (KeyedTable)

/-- A row of `source_file_line_provenance`, with its session's key in place of the row
number.  The indexer writes two kinds of evidence, and the evidence itself as an object. -/
structure LineProvenanceRow where
  sourceId : String
  externalSessionId : String
  filePath : String
  normalizedFilePath : String
  lineHash : String
  lineText : String
  linePreview : String
  chunkId : String
  chunkIndex : Nat
  function : String
  evidenceKind : EvidenceKind
  matchedLineCount : Nat
  selectedLineCount : Nat
  createdAt : String
  evidenceJson : List (String × Json)

def LineProvenanceRow.key (row : LineProvenanceRow) :
    (String × String) × String × String × String :=
  ((row.sourceId, row.externalSessionId), row.normalizedFilePath, row.lineHash, row.chunkId)

structure LineProvenanceDb where
  metadata : MetadataDb
  lines : KeyedTable LineProvenanceRow.key

structure SourceFileLineProvenanceQuery where
  filePath : String
  lineText : String
  lineNumber : Option UInt64
  sourceId : Option String
  repoPath : Option String
  limit : Nat

structure SourceFileLineProvenanceRecord where
  row : IndexedRow
  evidence : List (String × Json)

/-! ## The query -/

/-- The order of the rows of the join. -/
def newestLineFirst (left right : LineProvenanceRow) : Bool :=
  right.createdAt < left.createdAt || left.createdAt == right.createdAt &&
    (left.sourceId < right.sourceId || left.sourceId == right.sourceId &&
      (left.externalSessionId < right.externalSessionId ||
        left.externalSessionId == right.externalSessionId && right.chunkIndex ≤ left.chunkIndex))

/-- The evidence of a line, with the call that wrote it and the line that was asked for. -/
def lineEvidence (lineNumber : Option UInt64) (row : LineProvenanceRow) : List (String × Json) :=
  ([("kind", .string row.evidenceKind.name), ("chunk_id", .string row.chunkId),
    ("chunk_index", encodeCount row.chunkIndex), ("function", .string row.function),
    ("matched_line_count", encodeCount row.matchedLineCount),
    ("selected_line_count", encodeCount row.selectedLineCount)] ++
    (lineNumber.map fun number => ("line_no", encodeU64 number)).toList).foldl
      (fun entries field => insertEntry field.1 field.2 entries) row.evidenceJson

section Query
variable (rfc3339 : DateTime → String) (query : SourceFileLineProvenanceQuery)

def lineProvenanceRecord (record : SourceSessionRecord) (row : LineProvenanceRow) :
    SourceFileLineProvenanceRecord :=
  let evidence := lineEvidence query.lineNumber row
  let blame := sourceSessionBlameRow rfc3339 query.filePath record (some row.createdAt)
  { row := { blame with confidence := some row.evidenceKind.name }.editPointer
      (pointToChunk row.chunkId row.chunkIndex row.function row.evidenceKind.name (.object evidence))
    evidence := evidence }

/-- `hashText` is the digest of a text in hexadecimal. -/
def rowsOfLine (hashText : String → String) (db : LineProvenanceDb) (needle : String) :
    List (SourceSessionRecord × LineProvenanceRow) :=
  ((db.lines.rows.filter fun row =>
    (query.sourceId.all (· == row.sourceId)) &&
      (row.lineHash == hashText needle || row.lineText == needle ||
        row.linePreview == needle)).mergeSort newestLineFirst).filterMap fun row =>
    (db.metadata.getSourceSession row.sourceId row.externalSessionId).map fun record => (record, row)

/-- The rows of the repo asked for first, then those with better evidence, then the newest. -/
def bestLineFirst (left right : Bool × Nat × SourceFileLineProvenanceRecord) : Bool :=
  if left.1 ≠ right.1 then left.1
  else if left.2.1 ≠ right.2.1 then left.2.1 < right.2.1
  else right.2.2.row.occurredAt.getD "" ≤ left.2.2.row.occurredAt.getD ""

def querySourceFileLineProvenance (hashText : String → String) (db : LineProvenanceDb) :
    List SourceFileLineProvenanceRecord :=
  let needle := normalizeLineText query.lineText
  if needle = "" then []
  else
    let matched := ((rowsOfLine query hashText db needle).filter fun entry =>
      blamePathMatches query.filePath entry.2.filePath entry.1.repoPath).map fun entry =>
        (sameRepo query.repoPath entry.1.repoPath, provenanceRank entry.2.evidenceKind.name,
          lineProvenanceRecord rfc3339 query entry.1 entry.2)
    ((matched.mergeSort bestLineFirst).map fun entry => entry.2.2).take (MetadataDb.normalizedLimit query.limit)

/-! ## What a row of a line is -/

/-- A row of a line has evidence that names the line, and a kind of it. -/
structure IsLineMatch (row : IndexedRow) : Prop where
  evidence : ∃ entries number, row.evidence = some (.object entries) ∧
    entries.lookup "line_no" = some number
  confidence : ∃ kind : EvidenceKind, row.confidence = some kind.name

theorem lookup_lineNo_lineEvidence (number : UInt64) (row : LineProvenanceRow) :
    (lineEvidence (some number) row).lookup "line_no" = some (encodeU64 number) :=
  lookup_insertEntry_self _ _ _

variable {rfc3339 query}

theorem isLineMatch_lineProvenanceRecord {number : UInt64} (asked : query.lineNumber = some number)
    (record : SourceSessionRecord) (row : LineProvenanceRow) :
    IsLineMatch (lineProvenanceRecord rfc3339 query record row).row := by
  unfold lineProvenanceRecord
  dsimp only
  rw [asked]
  constructor
  · refine ⟨lineEvidence (some number) row, encodeU64 number, ?_, lookup_lineNo_lineEvidence ..⟩
    rw [IndexedRow.evidence_editPointer rfl, lookup_evidence_pointToChunk]
  · exact ⟨row.evidenceKind, IndexedRow.confidence_editPointer ..⟩

/-- Every row that is found for a numbered line names it. -/
theorem isLineMatch_of_query {hashText : String → String} {db : LineProvenanceDb} {number : UInt64}
    (asked : query.lineNumber = some number) {found : SourceFileLineProvenanceRecord}
    (member : found ∈ querySourceFileLineProvenance rfc3339 query hashText db) :
    IsLineMatch found.row := by
  unfold querySourceFileLineProvenance at member
  dsimp only at member
  split at member
  · cases member
  · obtain ⟨entry, isEntry, rfl⟩ := List.mem_map.mp (List.mem_of_mem_take member)
    obtain ⟨joined, _, rfl⟩ := List.mem_map.mp (List.mem_mergeSort.mp isEntry)
    exact isLineMatch_lineProvenanceRecord asked joined.1 joined.2

end Query

end BrickTrace
