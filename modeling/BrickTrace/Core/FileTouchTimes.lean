import Mathlib.Data.List.Infix
import Mathlib.Data.List.TakeWhile
import BrickTrace.Lib.JsonText
import BrickTrace.Lib.StableSort
import BrickTrace.Core.FileAnchors
import BrickTrace.Core.FileSessionBlame

/-!
# The chunk that wrote a file last

A session touched a file last with its latest tool call that mentions the file.  The lookup
reads only the chunks whose stored text is like the name of the file, which leaves out a
chunk when the name is written otherwise there.
-/

set_option autoImplicit false

namespace BrickTrace

section Session
variable (db : MetadataDb) (sourceId externalSessionId : String)

def isToolCallOf (row : SourceSessionChunkRow) : Bool :=
  row.sourceId == sourceId && row.externalSessionId == externalSessionId &&
    row.actionType == "tool_call"

def laterChunk (left right : SourceSessionChunkRow) : Bool := right.chunkIndex ≤ left.chunkIndex

/-- The tool calls of the session that write the file, the latest first. -/
def fileEdits (filePath : String) (repoPath : Option String) : List SourceSessionChunkRow :=
  ((db.chunks.rows.filter (isToolCallOf sourceId externalSessionId)).filter fun row =>
    chunkMentionsFile row.rawJson filePath repoPath).mergeSort laterChunk

/-- Whether the stored text of a chunk is like the name of the file. -/
def textLikeName (toText : Json → String) (filePath : String) (row : SourceSessionChunkRow) : Bool :=
  sqlLike ("%" ++ touchNeedle filePath ++ "%") (toText row.rawJson)

/-- The latest edit is found by the name of the file, or the one found instead is as old. -/
def LatestEditFound (toText : Json → String) (filePath : String) (repoPath : Option String) : Prop :=
  ∀ latest, (fileEdits db sourceId externalSessionId filePath repoPath).head? = some latest →
    textLikeName toText filePath latest = true ∨
      ∃ found, (fileEdits db sourceId externalSessionId filePath repoPath).find?
          (textLikeName toText filePath) = some found ∧ found.createdAt = latest.createdAt

end Session

/-! ## The lookup -/

section Lookup
variable {toText : Json → String} {db : MetadataDb} {sourceId externalSessionId filePath : String}
  {repoPath : Option String}

theorem laterChunk_trans (first second third : SourceSessionChunkRow)
    (left : laterChunk first second = true) (right : laterChunk second third = true) :
    laterChunk first third = true :=
  StableSort.larger_trans SourceSessionChunkRow.chunkIndex first second third left right

theorem laterChunk_total (left right : SourceSessionChunkRow) :
    (laterChunk left right || laterChunk right left) = true :=
  StableSort.larger_total SourceSessionChunkRow.chunkIndex left right

/-- The lookup takes the latest edit among those found by the name of the file. -/
theorem sourceSessionFileTouchTime_eq :
    sourceSessionFileTouchTime toText db sourceId externalSessionId filePath repoPath =
      ((fileEdits db sourceId externalSessionId filePath repoPath).find?
        (textLikeName toText filePath)).map (·.createdAt) := by
  have lookup : sourceSessionFileTouchTime toText db sourceId externalSessionId filePath repoPath =
      ((((db.chunks.rows.filter fun row => isToolCallOf sourceId externalSessionId row &&
        textLikeName toText filePath row).mergeSort laterChunk).filter fun row =>
          chunkMentionsFile row.rawJson filePath repoPath).head?).map (·.createdAt) := by
    rw [List.head?_filter]
    rfl
  have sorted := StableSort.filter_mergeSort laterChunk_trans laterChunk_total
  unfold fileEdits
  rw [lookup, ← List.head?_filter, sorted, sorted, List.filter_filter, List.filter_filter,
    List.filter_filter]
  have sameRows : ∀ row : SourceSessionChunkRow,
      (chunkMentionsFile row.rawJson filePath repoPath &&
          (isToolCallOf sourceId externalSessionId row && textLikeName toText filePath row)) =
        (textLikeName toText filePath row && chunkMentionsFile row.rawJson filePath repoPath &&
          isToolCallOf sourceId externalSessionId row) := by
    intro row
    rw [Bool.and_comm (isToolCallOf ..), ← Bool.and_assoc,
      Bool.and_comm (chunkMentionsFile ..) (textLikeName ..)]
  simp only [sameRows]

end Lookup

/-! ## Stored text -/

section Names
variable (writeFloat : UInt64 → List Char)

/-- The chunk as the database holds it. -/
def storedText (json : Json) : String := String.ofList (JsonText.write writeFloat json)

end Names

/-! ## A name with a quote -/

def editOf (path : String) : ActivityChunk where
  chunkId := "chunk-1"
  sessionId := "session-1"
  actionType := "tool_call"
  function := "edit_file_by_replace"
  args := .object [("file_path", .string path)]
  result := .object []
  createdAt := "2026-06-22T10:00:00Z"
  threadId := none
  processId := none
  sourceId := none
  sourcePath := none
  sourceRecordKey := none
  sourceLineNumber := none
  sourceMessageId := none
  sourcePartId := none

def editedSession (path : String) : SourceSessionRecord where
  sourceId := "codex_app"
  externalSessionId := "session-1"
  title := none
  name := none
  sourcePath := none
  sourceUri := none
  sourceMtime := none
  sourceSize := none
  sourceFingerprint := none
  parserVersion := none
  sessionCreatedAt := none
  sessionUpdatedAt := none
  model := none
  inputTokens := none
  outputTokens := none
  repoPath := some "/repo"
  branch := none
  filesChanged := none
  linesAdded := none
  linesRemoved := none
  touchedFilesJson := some (.array [.string path])
  listable := true
  discoveredAt := ⟨0⟩
  lastSeenAt := ⟨0⟩
  metadataJson := none
  createdAt := ⟨0⟩
  updatedAt := ⟨0⟩

def editedDb (path : String) : MetadataDb :=
  { MetadataDb.new with
    sessions := ⟨[editedSession path], List.nodup_singleton _⟩
    chunks := ⟨[MetadataDb.chunkRow "codex_app" "session-1" 0 (editOf path)], List.nodup_singleton _⟩ }

/-- A folder above the repo is named by no path that is recorded from the repo. -/
example : blamePathMatches "/work" "src/lib.rs" (some "/work/repo") = true ∧
    touchNeedle "/work" = "work" := by
  decide +kernel

end BrickTrace
