import BrickTrace.Core.Explain
import BrickTrace.Core.LineEvidence
import BrickTrace.Core.SourceSessionEvent

/-!
# The indexed sessions that touched a file

The metadata database tells which sessions touched a file, and which of them wrote a text.
The sessions of the repo that is asked for come first, whichever repo they were recorded in.
-/

set_option autoImplicit false

namespace BrickTrace

open Json

/-! ## Rows -/

/-- A row with the kind of its evidence. -/
structure IndexedRow extends FileSessionBlameRow where
  confidence : Option String

structure SourceFileSessionBlameQuery where
  filePath : String
  sourceId : Option String
  repoPath : Option String
  limit : Nat

def MetadataDb.normalizedLimit (limit : Nat) : Nat := if limit = 0 then 100 else min limit (2 ^ 63 - 1)

def SourceSessionRecord.metadataText (record : SourceSessionRecord) (name : String) : Option String :=
  (record.metadataJson.bind (Json.get name)).bind decodeString

def encodeText : Option String → Json := encodeNullable .string

/-- Where a session comes from. -/
def sessionPointer (record : SourceSessionRecord) : List (String × Json) :=
  [("source_id", .string record.sourceId), ("external_session_id", .string record.externalSessionId),
    ("source_path", encodeText record.sourcePath), ("source_uri", encodeText record.sourceUri),
    ("source_record_key", encodeText (record.metadataText "source_record_key")),
    ("parser_version", encodeText record.parserVersion), ("repo_path", encodeText record.repoPath),
    ("branch", encodeText record.branch),
    ("source_fingerprint", encodeText record.sourceFingerprint)].foldl
      (fun entries field => insertEntry field.1 field.2 entries) []

section Blame
variable (rfc3339 : DateTime → String)

def sourceSessionBlameRow (filePath : String) (record : SourceSessionRecord)
    (occurredAt : Option String) : IndexedRow where
  filePath := filePath
  externalSessionId := some record.externalSessionId
  sourceId := some record.sourceId
  appId := (record.metadataText "app_id").or (some record.sourceId)
  actorId := record.metadataText "actor_id"
  actorType := (record.metadataText "actor_type").or (some "agent")
  lastSeenAt := rfc3339 record.lastSeenAt
  occurredAt := occurredAt
  title := record.title.or record.name
  sourcePointer := some (.object (sessionPointer record))
  confidence := some "metadata_only"

/-- The row with its pointer changed, when it has one. -/
def IndexedRow.editPointer (row : IndexedRow)
    (edit : List (String × Json) → List (String × Json)) : IndexedRow :=
  match row.sourcePointer with
  | some (.object pointer) => { row with sourcePointer := some (.object (edit pointer)) }
  | _ => row

/-- The pointer with the chunk that holds the evidence. -/
def pointToChunk (chunkId : String) (chunkIndex : Nat) (function kind : String)
    (evidence : Json) (pointer : List (String × Json)) : List (String × Json) :=
  [("chunk_id", .string chunkId), ("chunk_index", encodeCount chunkIndex),
    ("function", .string function), ("match_confidence", .string kind), ("evidence", evidence)].foldl
      (fun entries field => insertEntry field.1 field.2 entries) pointer

/-! ## Sessions -/

def lastSeenFirst (left right : SourceSessionRecord) : Bool :=
  let leftSeen := rfc3339 left.lastSeenAt
  let rightSeen := rfc3339 right.lastSeenAt
  rightSeen < leftSeen || leftSeen == rightSeen &&
    (left.sourceId < right.sourceId || left.sourceId == right.sourceId &&
      left.externalSessionId ≤ right.externalSessionId)

/-- The sessions with touched files, those that were seen last first. -/
def sessionsWithFiles (db : MetadataDb) (sourceId : Option String) : List SourceSessionRecord :=
  (db.sessions.rows.filter fun record =>
    (sourceId.all (· == record.sourceId)) && record.touchedFilesJson.isSome).mergeSort
      (lastSeenFirst rfc3339)

def SourceSessionRecord.touches (record : SourceSessionRecord) (filePath : String) : Bool :=
  ((record.touchedFilesJson.map textItems).getD []).any fun stored =>
    blamePathMatches filePath stored record.repoPath

def sameRepo (preferred repo : Option String) : Bool :=
  match preferred, repo with
  | some want, some recorded => want == recorded
  | _, _ => false

def sameRepoFirst {A : Type} (left right : Bool × A) : Bool := left.1 || !right.1

/-! ## Chunks of a session -/

namespace SourceSessionChunkRow

/-- A column that holds a field of the chunk. -/
def column (row : SourceSessionChunkRow) (name : String) : String :=
  ((row.rawJson.get name).bind decodeString).getD ""

def actionType (row : SourceSessionChunkRow) : String := row.column "action_type"
def function (row : SourceSessionChunkRow) : String := row.column "function"
def argsJson (row : SourceSessionChunkRow) : Json := (row.rawJson.get "args").getD (.object [])
def resultJson (row : SourceSessionChunkRow) : Json := (row.rawJson.get "result").getD (.object [])

end SourceSessionChunkRow

/-- `LIKE` as SQLite has it: it folds the case of ASCII letters. -/
def like : List Char → List Char → Bool
  | [], text => text.isEmpty
  | '%' :: pattern, text => text.tails.any (like pattern)
  | '_' :: pattern, text =>
      match text with
      | [] => false
      | _ :: rest => like pattern rest
  | char :: pattern, text =>
      match text with
      | [] => false
      | other :: rest => char.toLower == other.toLower && like pattern rest

/-- Both texts are read up to a NUL. -/
def sqlLike (pattern text : String) : Bool :=
  like (pattern.toList.takeWhile (· ≠ '\x00')) (text.toList.takeWhile (· ≠ '\x00'))

/-- The name by which the chunks are looked through. -/
def touchNeedle (filePath : String) : String :=
  let name := fileName filePath
  if name = "" then filePath else name

/-- When a session last wrote the file; `toText` writes the chunk as the database holds it. -/
def sourceSessionFileTouchTime (toText : Json → String) (db : MetadataDb)
    (sourceId externalSessionId filePath : String) (repoPath : Option String) : Option String :=
  let chunks := (db.chunks.rows.filter fun row =>
    row.sourceId == sourceId && row.externalSessionId == externalSessionId &&
      row.actionType == "tool_call" &&
      sqlLike ("%" ++ touchNeedle filePath ++ "%") (toText row.rawJson)).mergeSort
        fun left right => right.chunkIndex ≤ left.chunkIndex
  (chunks.find? fun row => chunkMentionsFile row.rawJson filePath repoPath).map (·.createdAt)

def evidenceKindOf (evidence : List (String × Json)) : Option String :=
  (evidence.lookup "kind").bind decodeString

/-- The chunk that is taken, unless the one held is better evidence, or as good and later. -/
def betterEvidence (text : String)
    (best : Option (Nat × SourceSessionChunkRow × List (String × Json)))
    (chunk : SourceSessionChunkRow) : Option (Nat × SourceSessionChunkRow × List (String × Json)) :=
  if chunk.actionType != "tool_call" || !isFileMutationTool chunk.function then best
  else
    match chunkTextEvidence chunk.argsJson chunk.resultJson chunk.rawJson text with
    | none => best
    | some evidence =>
        let rank := ((evidenceKindOf evidence).map provenanceRank).getD 2
        let replace := best.all fun held =>
          rank < held.1 || rank == held.1 && held.2.1.chunkIndex < chunk.chunkIndex
        if replace then some (rank, chunk, evidence) else best

def sourceSessionTextMatchChunk (db : MetadataDb) (sourceId externalSessionId text : String) :
    Option (SourceSessionChunkRow × List (String × Json)) :=
  ((db.listSourceSessionChunks sourceId externalSessionId).foldl (betterEvidence text) none).map
    Prod.snd

/-! ## Queries -/

def querySourceFileSessionBlame (toText : Json → String) (db : MetadataDb)
    (query : SourceFileSessionBlameQuery) : List IndexedRow :=
  let matched := ((sessionsWithFiles rfc3339 db query.sourceId).filter
    (·.touches query.filePath)).map fun record =>
      (sameRepo query.repoPath record.repoPath,
        sourceSessionBlameRow rfc3339 query.filePath record
          (sourceSessionFileTouchTime toText db record.sourceId record.externalSessionId
            query.filePath record.repoPath))
  ((matched.mergeSort sameRepoFirst).map Prod.snd).take (MetadataDb.normalizedLimit query.limit)

/-- The fields that tell where the evidence was found. -/
def locateEvidence (pointer : List (String × Json)) (chunk : SourceSessionChunkRow)
    (evidence : List (String × Json)) : List (String × Json) :=
  [("source", encodeText ((pointer.lookup "source_id").bind decodeString)),
    ("session_id", encodeText ((pointer.lookup "external_session_id").bind decodeString)),
    ("chunk_id", .string chunk.chunkId), ("chunk_index", encodeCount chunk.chunkIndex),
    ("function", .string chunk.function)].foldl
      (fun entries field => insertEntry field.1 field.2 entries) evidence

def textMatchRow (filePath : String) (record : SourceSessionRecord) (chunk : SourceSessionChunkRow)
    (evidence : List (String × Json)) : IndexedRow :=
  let kind := (evidenceKindOf evidence).getD "text_match_diff_output"
  let row := sourceSessionBlameRow rfc3339 filePath record (some chunk.createdAt)
  { row with confidence := some kind }.editPointer fun pointer =>
    pointToChunk chunk.chunkId chunk.chunkIndex chunk.function kind
      (.object (locateEvidence pointer chunk evidence)) pointer

def textMatchRank (evidence : List (String × Json)) : Nat :=
  provenanceRank ((evidenceKindOf evidence).getD "text_match_diff_output")

def querySourceFileSessionTextMatch (db : MetadataDb) (query : SourceFileSessionBlameQuery)
    (text : String) : List IndexedRow :=
  let needle := normalizeMatchText text
  if needle = "" then []
  else
    let matched := (sessionsWithFiles rfc3339 db query.sourceId).filterMap fun record =>
      if record.touches query.filePath then
        (sourceSessionTextMatchChunk db record.sourceId record.externalSessionId needle).map
          fun found =>
            (sameRepo query.repoPath record.repoPath, textMatchRank found.2,
              textMatchRow rfc3339 query.filePath record found.1 found.2)
      else none
    let ordered := matched.mergeSort fun left right =>
      if left.1 = right.1 then left.2.1 ≤ right.2.1 else left.1
    (ordered.map fun entry => entry.2.2).take (MetadataDb.normalizedLimit query.limit)

/-! ## What a text match is -/

/-- The evidence that a row points to. -/
def IndexedRow.evidence (row : IndexedRow) : Option Json := row.sourcePointer.bind (Json.get "evidence")

theorem lookup_evidence_pointToChunk (chunkId : String) (chunkIndex : Nat) (function kind : String)
    (evidence : Json) (pointer : List (String × Json)) :
    (pointToChunk chunkId chunkIndex function kind evidence pointer).lookup "evidence" =
      some evidence :=
  lookup_insertEntry_self _ _ _

theorem IndexedRow.evidence_editPointer {row : IndexedRow} {pointer : List (String × Json)}
    (held : row.sourcePointer = some (.object pointer))
    (edit : List (String × Json) → List (String × Json)) :
    (row.editPointer edit).evidence = (edit pointer).lookup "evidence" := by
  unfold IndexedRow.editPointer
  rw [held]
  rfl

theorem IndexedRow.confidence_editPointer (row : IndexedRow)
    (edit : List (String × Json) → List (String × Json)) :
    (row.editPointer edit).confidence = row.confidence := by
  unfold IndexedRow.editPointer
  split
  · rfl
  · rfl

theorem IndexedRow.session_editPointer (row : IndexedRow)
    (edit : List (String × Json) → List (String × Json)) :
    (row.editPointer edit).sourceId = row.sourceId ∧
      (row.editPointer edit).externalSessionId = row.externalSessionId ∧
        (row.editPointer edit).appId = row.appId := by
  unfold IndexedRow.editPointer
  split
  · exact ⟨rfl, rfl, rfl⟩
  · exact ⟨rfl, rfl, rfl⟩

theorem evidence_textMatchRow (filePath : String) (record : SourceSessionRecord)
    (chunk : SourceSessionChunkRow) (evidence : List (String × Json)) :
    (textMatchRow rfc3339 filePath record chunk evidence).evidence =
      some (.object (locateEvidence (sessionPointer record) chunk evidence)) := by
  unfold textMatchRow
  dsimp only
  rw [IndexedRow.evidence_editPointer rfl, lookup_evidence_pointToChunk]

/-- Where the evidence was found is no line. -/
theorem lookup_lineNo_locateEvidence (pointer : List (String × Json)) (chunk : SourceSessionChunkRow)
    (evidence : List (String × Json)) :
    (locateEvidence pointer chunk evidence).lookup "line_no" = evidence.lookup "line_no" := by
  unfold locateEvidence
  exact lookup_foldl_insertEntry_of_notMem (by simp)

variable {rfc3339} {db : MetadataDb} {text : String}

theorem evidence_of_textMatchChunk {sourceId externalSessionId : String}
    {found : SourceSessionChunkRow × List (String × Json)}
    (isFound : sourceSessionTextMatchChunk db sourceId externalSessionId text = some found) :
    ∃ kind matched, found.2 = matchEvidence kind matched (matchLines text) := by
  have held : ∀ (chunks : List SourceSessionChunkRow)
      (best : Option (Nat × SourceSessionChunkRow × List (String × Json))),
      (∀ entry, best = some entry →
        ∃ kind matched, entry.2.2 = matchEvidence kind matched (matchLines text)) →
      ∀ entry, chunks.foldl (betterEvidence text) best = some entry →
        ∃ kind matched, entry.2.2 = matchEvidence kind matched (matchLines text) := by
    intro chunks
    induction chunks with
    | nil => exact fun _ counted => counted
    | cons chunk rest ih =>
        intro best counted
        apply ih
        intro entry isBest
        unfold betterEvidence at isBest
        split at isBest
        · exact counted entry isBest
        · split at isBest
          · exact counted entry isBest
          · rename_i evidence isEvidence
            dsimp only at isBest
            split at isBest
            · cases isBest
              exact exists_of_chunkTextEvidence isEvidence
            · exact counted entry isBest
  obtain ⟨entry, isEntry, rfl⟩ := Option.map_eq_some_iff.mp isFound
  exact held _ none (fun _ absent => nomatch absent) entry isEntry

/-- A row of a text match has evidence that names no line, and a kind of it. -/
structure IsTextMatch (row : IndexedRow) : Prop where
  evidence : ∃ entries, row.evidence = some (.object entries) ∧ entries.lookup "line_no" = none
  confidence : ∃ kind : EvidenceKind, row.confidence = some kind.name

theorem isTextMatch_textMatchRow (filePath : String) (record : SourceSessionRecord)
    (chunk : SourceSessionChunkRow) (kind : EvidenceKind) (matched selected : List String) :
    IsTextMatch (textMatchRow rfc3339 filePath record chunk (matchEvidence kind matched selected)) := by
  constructor
  · refine ⟨_, evidence_textMatchRow .., ?_⟩
    rw [lookup_lineNo_locateEvidence, lookup_lineNo_matchEvidence]
  · have isKind : evidenceKindOf (matchEvidence kind matched selected) = some kind.name := by
      unfold evidenceKindOf
      rw [lookup_kind_matchEvidence]
      rfl
    refine ⟨kind, ?_⟩
    unfold textMatchRow
    dsimp only
    rw [IndexedRow.confidence_editPointer, isKind]
    rfl

theorem isTextMatch_of_query {query : SourceFileSessionBlameQuery} {row : IndexedRow}
    (member : row ∈ querySourceFileSessionTextMatch rfc3339 db query text) : IsTextMatch row := by
  unfold querySourceFileSessionTextMatch at member
  dsimp only at member
  split at member
  · cases member
  · obtain ⟨entry, isEntry, rfl⟩ := List.mem_map.mp (List.mem_of_mem_take member)
    obtain ⟨record, _, isMatch⟩ := List.mem_filterMap.mp (List.mem_mergeSort.mp isEntry)
    split at isMatch
    · obtain ⟨found, isFound, rfl⟩ := Option.map_eq_some_iff.mp isMatch
      obtain ⟨chunk, evidence⟩ := found
      obtain ⟨kind, matched, isEvidence⟩ := evidence_of_textMatchChunk isFound
      dsimp only at isEvidence ⊢
      rw [isEvidence]
      exact isTextMatch_textMatchRow ..
    · cases isMatch

end Blame

end BrickTrace
