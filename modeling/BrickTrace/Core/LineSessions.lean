import BrickTrace.Core.LineIndexing

/-!
# The sessions that the rows of a line show

A line is answered with rows of calls, the best first and no more than a limit, and each
session becomes a step with its first row.  The limit counts rows, so the rows of one session
can take the places of others.
-/

set_option autoImplicit false

namespace BrickTrace

/-- The session of the database that a row is of. -/
def FileSessionBlameRow.indexedSession (row : FileSessionBlameRow) : Option String × Option String :=
  (row.sourceId, row.externalSessionId)

/-- A step for each row. -/
def sessionSteps (rows : List FileSessionBlameRow) (startDepth : Nat) : List CausalStep :=
  (rows.zipIdx startDepth).map fun entry => entry.1.step entry.2

section Query
variable (rfc3339 : DateTime → String) (query : SourceFileLineProvenanceQuery)
  (hashText : String → String) (db : LineProvenanceDb)

/-- All rows of the line, in the order in which they are ranked. -/
def rankedLineRows : List FileSessionBlameRow :=
  let needle := normalizeLineText query.lineText
  if needle = "" then []
  else
    let matched := ((rowsOfLine query hashText db needle).filter fun entry =>
      blamePathMatches query.filePath entry.2.filePath entry.1.repoPath).map fun entry =>
        (sameRepo query.repoPath entry.1.repoPath, provenanceRank entry.2.evidenceKind.name,
          lineProvenanceRecord rfc3339 query entry.1 entry.2)
    (matched.mergeSort bestLineFirst).map fun entry => entry.2.2.row.toFileSessionBlameRow

/-- The sessions of the line, each by its best row. -/
def rankedLineSessions : List FileSessionBlameRow :=
  FirstSeen.fresh FileSessionBlameRow.indexedSession [] (rankedLineRows rfc3339 query hashText db)

/-- The steps that are made of the rows of the answer. -/
def lineSteps (startDepth : Nat) : List CausalStep :=
  sourceSessionsToSteps ((querySourceFileLineProvenance rfc3339 query hashText db).map
    (·.row.toFileSessionBlameRow)) startDepth

/-- The steps are those of the first sessions of the line, as many as the limit asks for. -/
def StepsCoverSessions (startDepth : Nat) : Prop :=
  lineSteps rfc3339 query hashText db startDepth =
    sessionSteps ((rankedLineSessions rfc3339 query hashText db).take
      (MetadataDb.normalizedLimit query.limit)) startDepth

end Query

/-- The first rows are of sessions with different ids, and no session has two of them or no
session is left out. -/
structure LeavesRoom (rows : List FileSessionBlameRow) (limit : Nat) : Prop where
  apart : ∀ left ∈ rows.take limit, ∀ right ∈ rows.take limit, left.eventId = right.eventId →
    left.indexedSession = right.indexedSession
  room : ((rows.take limit).map FileSessionBlameRow.indexedSession).Nodup ∨
    ∀ row ∈ rows, ∃ kept ∈ rows.take limit, kept.indexedSession = row.indexedSession

/-! ## The rows of the answer -/

section Rows
variable {rfc3339 : DateTime → String} {query : SourceFileLineProvenanceQuery}
  {hashText : String → String} {db : LineProvenanceDb}

theorem rows_of_querySourceFileLineProvenance :
    (querySourceFileLineProvenance rfc3339 query hashText db).map (·.row.toFileSessionBlameRow) =
      (rankedLineRows rfc3339 query hashText db).take (MetadataDb.normalizedLimit query.limit) := by
  unfold querySourceFileLineProvenance rankedLineRows
  dsimp only
  split
  · rw [List.take_nil]
    rfl
  · rw [List.map_take, List.map_map]
    rfl

/-- What a row says of its session is the same for each line. -/
theorem session_lineProvenanceRecord (record : SourceSessionRecord) (row : LineProvenanceRow) :
    (lineProvenanceRecord rfc3339 query record row).row.indexedSession =
        (some record.sourceId, some record.externalSessionId) ∧
      (lineProvenanceRecord rfc3339 query record row).row.eventId =
        (sourceSessionBlameRow rfc3339 query.filePath record none).eventId := by
  unfold lineProvenanceRecord
  dsimp only
  constructor
  · unfold FileSessionBlameRow.indexedSession
    rw [(IndexedRow.session_editPointer _ _).1, (IndexedRow.session_editPointer _ _).2.1]
    rfl
  · unfold FileSessionBlameRow.eventId FileSessionBlameRow.source FileSessionBlameRow.external
    rw [(IndexedRow.session_editPointer _ _).1, (IndexedRow.session_editPointer _ _).2.1,
      (IndexedRow.session_editPointer _ _).2.2]
    rfl

theorem exists_of_mem_rankedLineRows {row : FileSessionBlameRow}
    (member : row ∈ rankedLineRows rfc3339 query hashText db) :
    ∃ record ∈ db.metadata.sessions.rows, ∃ line,
      row = (lineProvenanceRecord rfc3339 query record line).row.toFileSessionBlameRow := by
  unfold rankedLineRows at member
  dsimp only at member
  split at member
  · cases member
  · obtain ⟨entry, isEntry, rfl⟩ := List.mem_map.mp member
    obtain ⟨joined, isJoined, rfl⟩ := List.mem_map.mp (List.mem_mergeSort.mp isEntry)
    obtain ⟨line, _, isRecord⟩ := List.mem_filterMap.mp (List.mem_of_mem_filter isJoined)
    obtain ⟨record, known, rfl⟩ := Option.map_eq_some_iff.mp isRecord
    exact ⟨record, (KeyedRows.KeyedTable.find_eq_some_iff.mp known).1, line, rfl⟩

/-- The rows of one session have one id. -/
theorem eventId_eq_of_indexedSession {left right : FileSessionBlameRow}
    (isLeft : left ∈ rankedLineRows rfc3339 query hashText db)
    (isRight : right ∈ rankedLineRows rfc3339 query hashText db)
    (same : left.indexedSession = right.indexedSession) : left.eventId = right.eventId := by
  obtain ⟨first, firstKnown, firstLine, rfl⟩ := exists_of_mem_rankedLineRows isLeft
  obtain ⟨second, secondKnown, secondLine, rfl⟩ := exists_of_mem_rankedLineRows isRight
  have keys : (some first.sourceId, some first.externalSessionId) =
      (some second.sourceId, some second.externalSessionId) := by
    rw [← (session_lineProvenanceRecord first firstLine).1, same]
    exact (session_lineProvenanceRecord second secondLine).1
  obtain ⟨sources, externals⟩ := Prod.mk.inj keys
  have one : first = second := List.inj_on_of_nodup_map db.metadata.sessions.primaryKey firstKnown
    secondKnown (Prod.ext (Option.some.inj sources) (Option.some.inj externals))
  rw [(session_lineProvenanceRecord first firstLine).2, one]
  exact (session_lineProvenanceRecord second secondLine).2.symm

theorem length_sessionSteps (rows : List FileSessionBlameRow) (startDepth : Nat) :
    (sessionSteps rows startDepth).length = rows.length := by
  unfold sessionSteps
  rw [List.length_map, List.length_zipIdx]

/-- The steps are those of the first sessions of the line exactly when the first rows leave
room for them. -/
theorem line_steps_cover_sessions_iff (rfc3339 : DateTime → String)
    (query : SourceFileLineProvenanceQuery) (hashText : String → String) (db : LineProvenanceDb)
    (startDepth : Nat) :
    StepsCoverSessions rfc3339 query hashText db startDepth ↔
      LeavesRoom (rankedLineRows rfc3339 query hashText db)
        (MetadataDb.normalizedLimit query.limit) := by
  have steps : lineSteps rfc3339 query hashText db startDepth =
      sessionSteps (FirstSeen.fresh FileSessionBlameRow.eventId []
        ((rankedLineRows rfc3339 query hashText db).take (MetadataDb.normalizedLimit query.limit)))
        startDepth := by
    unfold lineSteps
    rw [rows_of_querySourceFileLineProvenance]
    rfl
  unfold StepsCoverSessions
  rw [steps]
  have determines : ∀ left ∈ rankedLineRows rfc3339 query hashText db,
      ∀ right ∈ rankedLineRows rfc3339 query hashText db,
        left.indexedSession = right.indexedSession → left.eventId = right.eventId :=
    fun left isLeft right isRight => eventId_eq_of_indexedSession isLeft isRight
  constructor
  · intro same
    have lengths := congrArg List.length same
    rw [length_sessionSteps, length_sessionSteps] at lengths
    obtain ⟨apart, room⟩ := (FirstSeen.length_fresh_take_eq_iff _ determines).mp lengths
    exact ⟨apart, room⟩
  · rintro ⟨apart, room⟩
    have lengths := (FirstSeen.length_fresh_take_eq_iff _ determines).mpr ⟨apart, room⟩
    exact congrArg (sessionSteps · startDepth)
      (FirstSeen.fresh_take_eq_of_length _ determines lengths)

end Rows

/-! ## A session that wrote a line twice -/

def lineOf (externalSessionId chunkId createdAt : String) : LineProvenanceRow :=
  lineProvenanceRow listDigest "codex_app" externalSessionId 0
    { writtenList "ship it" with chunkId := chunkId, createdAt := createdAt } "todo.md" .exactEditHunk
    "ship it"

/-- The lines of one session that wrote the text twice and of one that wrote it before. -/
def repeatedLines : List LineProvenanceRow :=
  [lineOf "session-1" "chunk-2" "2026-06-22T12:00:00Z",
    lineOf "session-1" "chunk-1" "2026-06-22T11:00:00Z",
    lineOf "session-2" "chunk-1" "2026-06-22T10:00:00Z"]

def otherSession : SourceSessionRecord :=
  { editedSession "todo.md" with externalSessionId := "session-2" }

def repeatedDb : LineProvenanceDb where
  metadata :=
    { MetadataDb.new with
      sessions := ⟨[editedSession "todo.md", otherSession], by decide⟩ }
  lines := ⟨repeatedLines, by decide⟩

def twoSessions : SourceFileLineProvenanceQuery := { listQuery "ship it" with limit := 2 }

theorem rowsOfLine_repeatedDb :
    rowsOfLine twoSessions listDigest repeatedDb "ship it" =
      [(editedSession "todo.md", lineOf "session-1" "chunk-2" "2026-06-22T12:00:00Z"),
        (editedSession "todo.md", lineOf "session-1" "chunk-1" "2026-06-22T11:00:00Z"),
        (otherSession, lineOf "session-2" "chunk-1" "2026-06-22T10:00:00Z")] := by
  have first : ∀ chunkId createdAt, repeatedDb.metadata.getSourceSession
      (lineOf "session-1" chunkId createdAt).sourceId
      (lineOf "session-1" chunkId createdAt).externalSessionId = some (editedSession "todo.md") :=
    fun _ _ => KeyedRows.KeyedTable.find_eq_some_iff.mpr ⟨List.mem_cons_self, rfl⟩
  have second : ∀ chunkId createdAt, repeatedDb.metadata.getSourceSession
      (lineOf "session-2" chunkId createdAt).sourceId
      (lineOf "session-2" chunkId createdAt).externalSessionId = some otherSession :=
    fun _ _ => KeyedRows.KeyedTable.find_eq_some_iff.mpr
      ⟨List.mem_cons_of_mem _ List.mem_cons_self, rfl⟩
  have sorted : repeatedDb.lines.rows.Pairwise fun left right =>
      newestLineFirst left right = true := by decide +kernel
  unfold rowsOfLine
  rw [List.filter_eq_self.mpr (List.all_eq_true.mp (by decide +kernel)),
    List.mergeSort_of_pairwise sorted]
  change List.filterMap _ repeatedLines = _
  unfold repeatedLines
  simp only [List.filterMap_cons, List.filterMap_nil, first, second, Option.map_some]

def repeatedRecord (externalSessionId chunkId createdAt : String) (record : SourceSessionRecord) :
    Bool × Nat × SourceFileLineProvenanceRecord :=
  (false, 0, lineProvenanceRecord epochText twoSessions record
    (lineOf externalSessionId chunkId createdAt))

theorem rankedLineRows_repeatedDb :
    rankedLineRows epochText twoSessions listDigest repeatedDb =
      [repeatedRecord "session-1" "chunk-2" "2026-06-22T12:00:00Z" (editedSession "todo.md"),
        repeatedRecord "session-1" "chunk-1" "2026-06-22T11:00:00Z" (editedSession "todo.md"),
        repeatedRecord "session-2" "chunk-1" "2026-06-22T10:00:00Z" otherSession].map
          fun entry => entry.2.2.row.toFileSessionBlameRow := by
  have needle : normalizeLineText twoSessions.lineText = "ship it" := by decide +kernel
  have sorted : [repeatedRecord "session-1" "chunk-2" "2026-06-22T12:00:00Z" (editedSession "todo.md"),
      repeatedRecord "session-1" "chunk-1" "2026-06-22T11:00:00Z" (editedSession "todo.md"),
      repeatedRecord "session-2" "chunk-1" "2026-06-22T10:00:00Z" otherSession].Pairwise
        fun left right => bestLineFirst left right = true := by decide +kernel
  unfold rankedLineRows
  dsimp only
  rw [needle, if_neg (by decide), rowsOfLine_repeatedDb,
    List.filter_eq_self.mpr (List.all_eq_true.mp (by decide +kernel))]
  exact congrArg _ (List.mergeSort_of_pairwise sorted)

/-- The second session is among the first two and has no step. -/
theorem repeated_line_hides_session :
    ¬ StepsCoverSessions epochText twoSessions listDigest repeatedDb 0 := by
  intro covered
  have lengths := congrArg List.length covered
  unfold lineSteps rankedLineSessions at lengths
  rw [rows_of_querySourceFileLineProvenance, length_sessionSteps, rankedLineRows_repeatedDb] at lengths
  revert lengths
  decide +kernel

end BrickTrace
