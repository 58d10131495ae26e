import Mathlib.Data.Prod.Lex
import Mathlib.Order.WithBot
import BrickTrace.Lib.LikePattern
import BrickTrace.Lib.LimitedMerge
import BrickTrace.Core.FileSessionBlame
import BrickTrace.Core.SqliteQuery

/-!
# The runtime evidence for a path

The cache tells which diffs and which explicit file references are about a file, or about
files of a folder.  The rows of either kind are found by a query of their own, with the limit
in it; then they are put in one order and cut to the limit again.
-/

set_option autoImplicit false

namespace BrickTrace

open Select LimitedMerge

/-! ## Rows -/

inductive FileSessionBlameEvidenceKind where
  | runtimeEvent
  | sourceMetadata

def FileSessionBlameEvidenceKind.asStr : FileSessionBlameEvidenceKind → String
  | .runtimeEvent => "runtime_event"
  | .sourceMetadata => "source_metadata"

structure SqliteFileSessionBlameQuery where
  filePath : String
  limit : Nat

/-- A row with what only the runtime events tell. -/
structure RuntimeBlameRow extends IndexedRow where
  sessionId : Option String
  evidenceKind : FileSessionBlameEvidenceKind
  linesAdded : Option UInt64
  linesRemoved : Option UInt64
  filesChanged : Option UInt64

/-! ## Paths -/

/-- The text with another one in the place of each such character. -/
def replaceChar (char : Char) (written : List Char) (text : List Char) : List Char :=
  text.flatMap fun other => if other = char then written else [other]

def escapeLike (value : List Char) : List Char :=
  replaceChar '_' ['\x5c', '_'] (replaceChar '%' ['\x5c', '%'] (replaceChar '\x5c' ['\x5c', '\x5c'] value))

def folderLikePattern (path : String) : List Char :=
  escapeLike (trimEndOf '/' path).toList ++ ['/', '%']

def untilNul (chars : List Char) : List Char := chars.takeWhile (· ≠ '\x00')

/-- `LIKE` with a backslash as the escape character; both texts are read up to a NUL. -/
def sqlLikeEscape (pattern : List Char) (text : String) : Bool :=
  LikePattern.matchesLike '\x5c' (untilNul pattern) (untilNul text.toList)

def pathMatchesFolderQuery (filePath query : String) : Bool :=
  let query := trimEndOf '/' query
  query != "" && filePath != query && (stripStart filePath query).any fun tail => startsWith tail "/"

/-! ## The two queries -/

def readDiffFile : Row → Option DiffFileRow
  | .diffFiles row => some row
  | _ => none

def readReference : Row → Option FileRefRow
  | .fileRefs row => some row
  | _ => none

def readEvent : Row → Option EventRow
  | .events row => some row
  | _ => none

def unsigned (value : Int64) : Option UInt64 := if 0 ≤ value then some value.toUInt64 else none

/-- A file of a diff with its diff, the session of that and the event that reported it. -/
structure JoinedDiffFile where
  file : DiffFileRow
  diff : DiffRow
  session : Option SessionRow
  event : Option EventRow

structure JoinedFileRef where
  ref : FileRefRow
  session : Option SessionRow
  event : Option EventRow

/-- A row, with the id that tells rows of one time apart. -/
structure ListedRow where
  id : String
  row : RuntimeBlameRow

section Queries
variable (cache : QueryCache) (filePath : String)

def joinedDiffFiles : List JoinedDiffFile :=
  let withDiffs := join (fun file diff => diff.diffId == file.diffId)
    (cache.rows.filterMap readDiffFile) (cache.rows.filterMap readDiff)
  let withSessions := leftJoin (fun pair session => pair.2.sessionId == some session.sessionId)
    withDiffs (cache.rows.filterMap readSession)
  let withEvents := leftJoin (fun row event => event.eventId == row.1.2.diffId)
    withSessions (cache.rows.filterMap readEvent)
  withEvents.map fun row => ⟨row.1.1.1, row.1.1.2, row.1.2, row.2⟩

def diffFileMatches (file : DiffFileRow) : Bool :=
  file.path == filePath || file.oldPath == some filePath ||
    sqlLikeEscape (folderLikePattern filePath) file.path ||
      file.oldPath.any (sqlLikeEscape (folderLikePattern filePath))

/-- The row of a file of a diff, reported under a path. -/
def diffBlameRowAt (shown : String) (joined : JoinedDiffFile) : RuntimeBlameRow where
  filePath := shown
  sessionId := joined.diff.sessionId
  externalSessionId := none
  sourceId := none
  appId := joined.session.bind SessionRow.appId
  actorId := joined.session.bind SessionRow.actorId
  actorType := joined.session.bind SessionRow.actorType
  evidenceKind := .runtimeEvent
  lastSeenAt := joined.diff.capturedAt
  occurredAt := some joined.diff.capturedAt
  title := none
  linesAdded := joined.file.additions.bind unsigned
  linesRemoved := joined.file.deletions.bind unsigned
  filesChanged := unsigned joined.diff.fileCount
  confidence := joined.event.map EventRow.confidence
  sourcePointer := some (.object [
    ("artifact_id", .string joined.diff.artifactId),
    ("base_commit", encodeText joined.diff.baseCommit),
    ("change_kind", .string joined.file.changeKind),
    ("diff_id", .string joined.diff.diffId),
    ("diff_target", .string joined.diff.diffTarget),
    ("head_commit", encodeText joined.diff.headCommit),
    ("mission_id", encodeText joined.diff.missionId),
    ("old_path", encodeText joined.file.oldPath),
    ("patch_id", encodeText joined.diff.patchId),
    ("summary_hash", .string joined.diff.summaryHash)])

def diffBlameRow (joined : JoinedDiffFile) : RuntimeBlameRow :=
  diffBlameRowAt
    (if joined.file.path = filePath ∨ pathMatchesFolderQuery joined.file.path filePath = true then
      joined.file.path
    else joined.file.oldPath.getD joined.file.path) joined

/-- The references that no diff made. -/
def explicitFileRefs : List JoinedFileRef :=
  let withSessions := leftJoin (fun ref session => ref.sessionId == some session.sessionId)
    (cache.rows.filterMap readReference) (cache.rows.filterMap readSession)
  let withEvents := leftJoin (fun row event => event.eventId == row.1.fileRefId)
    withSessions (cache.rows.filterMap readEvent)
  let withDiffs := leftJoin (fun row diff => diff.diffId == row.1.1.fileRefId)
    withEvents (cache.rows.filterMap readDiff)
  (withDiffs.filter fun row => row.2.isNone).map fun row => ⟨row.1.1.1, row.1.1.2, row.1.2⟩

def fileRefMatches (ref : FileRefRow) : Bool :=
  ref.path == filePath || sqlLikeEscape (folderLikePattern filePath) ref.path

def fileRefBlameRow (joined : JoinedFileRef) : RuntimeBlameRow where
  filePath := joined.ref.path
  sessionId := joined.ref.sessionId
  externalSessionId := none
  sourceId := none
  appId := joined.session.bind SessionRow.appId
  actorId := joined.session.bind SessionRow.actorId
  actorType := joined.session.bind SessionRow.actorType
  evidenceKind := .runtimeEvent
  lastSeenAt := joined.ref.recordedAt
  occurredAt := some joined.ref.recordedAt
  title := none
  linesAdded := none
  linesRemoved := none
  filesChanged := some 1
  confidence := joined.event.map EventRow.confidence
  sourcePointer := some (.object [
    ("artifact_id", .string joined.ref.artifactId),
    ("file_ref_id", .string joined.ref.fileRefId),
    ("repo_context_id", encodeText joined.ref.repoContextId)])

def diffListing : List ListedRow :=
  ((joinedDiffFiles cache).filter fun joined => diffFileMatches filePath joined.file).map fun joined =>
    ⟨joined.diff.diffId, diffBlameRow filePath joined⟩

def fileRefListing : List ListedRow :=
  ((explicitFileRefs cache).filter fun joined => fileRefMatches filePath joined.ref).map fun joined =>
    ⟨joined.ref.fileRefId, fileRefBlameRow joined⟩

/-- The order of either query. -/
def listedFirst : ListedRow → ListedRow → Bool :=
  byLatest (fun listed => listed.row.lastSeenAt) ListedRow.id

def runtimeDiffBlameRows (limit : Nat) : List RuntimeBlameRow :=
  (firstRows listedFirst limit (diffListing cache filePath)).map ListedRow.row

def runtimeFileRefBlameRows (limit : Nat) : List RuntimeBlameRow :=
  (firstRows listedFirst limit (fileRefListing cache filePath)).map ListedRow.row

/-! ## Both together -/

/-- What a row is ordered by: the latest first, then the session, one that is not known
before any other, then the kind of evidence. -/
def RuntimeBlameRow.rank (row : RuntimeBlameRow) : Lex (Stringᵒᵈ × Lex (WithBot String × String)) :=
  toLex (OrderDual.toDual row.lastSeenAt, toLex (row.sessionId, row.evidenceKind.asStr))

def blameFirst (left right : RuntimeBlameRow) : Bool := decide (left.rank ≤ right.rank)

/-- The answer within a limit. -/
def runtimeBlame (limit : Nat) : List RuntimeBlameRow :=
  firstRows blameFirst limit
    (runtimeDiffBlameRows cache filePath limit ++ runtimeFileRefBlameRows cache filePath limit)

def querySqliteFileSessionBlame (query : SqliteFileSessionBlameQuery) :
    Except QueryError (List RuntimeBlameRow) :=
  if cache.hasTables then
    .ok (runtimeBlame cache query.filePath (QueryCache.normalizedLimit query.limit))
  else .error .noSuchTable

/-! ## What is to be answered -/

/-- The components of the folder come first among those of the path. -/
def LiesIn (folder path : String) : Prop :=
  trimEndOf '/' folder ≠ "" ∧ (trimEndOf '/' folder ++ "/").toList <+: path.toList

instance (folder path : String) : Decidable (LiesIn folder path) :=
  inferInstanceAs (Decidable (_ ∧ _))

def IsAsked (path : String) : Prop := path = filePath ∨ LiesIn filePath path

instance (path : String) : Decidable (IsAsked filePath path) := inferInstanceAs (Decidable (_ ∨ _))

/-- The path of a file that is asked for, its old one where the other is not. -/
def matchingPath (file : DiffFileRow) : Option String :=
  if IsAsked filePath file.path then some file.path
  else file.oldPath.filter fun path => decide (IsAsked filePath path)

def expectedDiffRows : List RuntimeBlameRow :=
  (joinedDiffFiles cache).filterMap fun joined =>
    (matchingPath filePath joined.file).map fun shown => diffBlameRowAt shown joined

def expectedFileRefRows : List RuntimeBlameRow :=
  ((explicitFileRefs cache).filter fun joined => IsAsked filePath joined.ref.path).map fileRefBlameRow

/-- A limit that leaves no row out gives the rows that are to be found, and any limit gives
the first ones of these. -/
def AnswersPath : Prop :=
  ∀ large, (diffListing cache filePath).length + (fileRefListing cache filePath).length ≤ large →
    (runtimeBlame cache filePath large).Perm
        (expectedDiffRows cache filePath ++ expectedFileRefRows cache filePath) ∧
      ∀ limit, querySqliteFileSessionBlame cache ⟨filePath, limit⟩ =
        .ok ((runtimeBlame cache filePath large).take (QueryCache.normalizedLimit limit))

/-- The path seems to be in the folder where the case of letters does not count.  A folder
with a NUL is read up to it, and then the path has to be alike. -/
def FoldedIn (folder path : String) : Prop :=
  let folder := (trimEndOf '/' folder).toList
  if '\x00' ∈ folder then
    LikePattern.folded (untilNul path.toList) = LikePattern.folded (untilNul folder)
  else LikePattern.folded (folder ++ ['/']) <+: LikePattern.folded (untilNul path.toList)

attribute [irreducible] FoldedIn

/-- Whatever seems to be in the folder that is asked for is asked for. -/
def CaseExact : Prop :=
  (∀ joined ∈ joinedDiffFiles cache,
    (FoldedIn filePath joined.file.path ∨
      ∃ oldPath, joined.file.oldPath = some oldPath ∧ FoldedIn filePath oldPath) →
        (matchingPath filePath joined.file).isSome) ∧
    ∀ joined ∈ explicitFileRefs cache,
      FoldedIn filePath joined.ref.path → IsAsked filePath joined.ref.path

end Queries

/-! ## Patterns -/

theorem escapeLike_eq (value : List Char) : escapeLike value = LikePattern.escape '\x5c' value := by
  unfold escapeLike replaceChar LikePattern.escape
  rw [List.flatMap_assoc, List.flatMap_assoc]
  apply List.flatMap_congr
  intro char _
  by_cases backslash : char = '\x5c'
  · rw [backslash]
    decide
  · by_cases percent : char = '%'
    · rw [percent]
      decide
    · by_cases underscore : char = '_'
      · rw [underscore]
        decide
      · simp [backslash, percent, underscore]

/-- Reading an escaped text up to a NUL. -/
theorem untilNul_escape_append (value rest : List Char) :
    untilNul (LikePattern.escape '\x5c' value ++ rest) =
      if '\x00' ∈ value then LikePattern.escape '\x5c' (untilNul value)
      else LikePattern.escape '\x5c' value ++ untilNul rest := by
  have split : ∀ char value, LikePattern.escape '\x5c' (char :: value) =
      LikePattern.escape '\x5c' [char] ++ LikePattern.escape '\x5c' value := by
    intro char value
    unfold LikePattern.escape
    rw [List.flatMap_cons, List.flatMap_singleton]
  induction value with
  | nil => simp [LikePattern.escape]
  | cons char value ih =>
      by_cases isNul : char = '\x00'
      · rw [isNul, if_pos List.mem_cons_self]
        rfl
      · have read : ∀ after, untilNul (LikePattern.escape '\x5c' [char] ++ after) =
            LikePattern.escape '\x5c' [char] ++ untilNul after := by
          intro after
          apply List.takeWhile_append_of_pos
          intro other member
          unfold LikePattern.escape at member
          rw [List.flatMap_singleton] at member
          split at member
          · rcases List.mem_cons.mp member with rfl | last
            · decide
            · rw [List.mem_singleton.mp last]
              exact decide_eq_true isNul
          · rw [List.mem_singleton.mp member]
            exact decide_eq_true isNul
        have until' : untilNul (char :: value) = char :: untilNul value :=
          List.takeWhile_cons_of_pos (decide_eq_true isNul)
        have mem : '\x00' ∈ char :: value ↔ '\x00' ∈ value :=
          ⟨fun member => (List.mem_cons.mp member).resolve_left (Ne.symm isNul),
            List.mem_cons_of_mem char⟩
        rw [split, List.append_assoc, read, ih, until', split char (untilNul value)]
        simp only [mem]
        split
        · rfl
        · rw [List.append_assoc]

/-- The pattern of a folder finds the paths that seem to be in it. -/
theorem sqlLikeEscape_folder_iff (folder path : String) :
    sqlLikeEscape (folderLikePattern folder) path = true ↔ FoldedIn folder path := by
  unfold sqlLikeEscape folderLikePattern FoldedIn
  rw [escapeLike_eq, untilNul_escape_append]
  dsimp only
  generalize (trimEndOf '/' folder).toList = names
  generalize untilNul path.toList = text
  have plain : untilNul ['/', '%'] = ['/', '%'] := by decide
  have notPercent : '\x5c' ≠ '%' := by decide
  rw [plain]
  split
  · exact LikePattern.matchesLike_escape notPercent
  · rw [LikePattern.matchesLike_escape_append notPercent]
    constructor
    · rintro ⟨start, rest, rfl, same, matched⟩
      obtain ⟨other, after, rfl, slash, _⟩ :=
        (LikePattern.matchesLike_plain (by decide) ['%'] rest).mp matched
      refine ⟨LikePattern.folded after, ?_⟩
      unfold LikePattern.folded at same ⊢
      simp [same, slash]
    · rintro ⟨after, whole⟩
      unfold LikePattern.folded at whole
      rw [List.map_append, List.append_assoc] at whole
      obtain ⟨start, rest, rfl, same, tail⟩ := List.map_eq_append_iff.mp whole.symm
      obtain ⟨other, last, rfl, slash, _⟩ := List.map_eq_cons_iff.mp tail
      refine ⟨start, other :: last, rfl, same, ?_⟩
      exact (LikePattern.matchesLike_plain (by decide) ['%'] _).mpr
        ⟨other, last, rfl, slash.symm, LikePattern.matchesLike_any _ _⟩

/-- A path in the folder seems to be in it. -/
theorem foldedIn_of_liesIn {folder path : String} (lies : LiesIn folder path) :
    FoldedIn folder path := by
  obtain ⟨_, rest, whole⟩ := lies
  rw [String.toList_append] at whole
  unfold FoldedIn
  dsimp only
  rw [← whole]
  generalize (trimEndOf '/' folder).toList = names
  split
  · next hasNul =>
    -- the text ends where the folder does
    have cut : ∀ after, untilNul (names ++ after) = untilNul names := by
      intro after
      unfold untilNul
      rw [List.takeWhile_append, if_neg]
      intro lengths
      have all := List.takeWhile_eq_self_iff.mp
        ((List.takeWhile_prefix (· ≠ '\x00')).eq_of_length lengths) '\x00' hasNul
      exact of_decide_eq_true all rfl
    rw [List.append_assoc, cut]
  · next free =>
    have read : untilNul (names ++ "/".toList ++ rest) = names ++ ['/'] ++ untilNul rest := by
      apply List.takeWhile_append_of_pos
      intro char member
      rw [decide_eq_true_eq]
      rintro rfl
      rcases List.mem_append.mp member with inNames | isSlash
      · exact free inNames
      · exact absurd isSlash (by decide)
    rw [read]
    unfold LikePattern.folded
    rw [show (names ++ ['/'] ++ untilNul rest).map Char.toLower =
      (names ++ ['/']).map Char.toLower ++ (untilNul rest).map Char.toLower from
        List.map_append]
    exact List.prefix_append _ _

/-- The check of the code tells whether a path is in the folder. -/
theorem pathMatchesFolderQuery_iff (path folder : String) :
    pathMatchesFolderQuery path folder = true ↔ LiesIn folder path := by
  unfold pathMatchesFolderQuery LiesIn
  dsimp only
  generalize trimEndOf '/' folder = names
  rw [Bool.and_eq_true, Bool.and_eq_true, bne_iff_ne, bne_iff_ne, Option.any_eq_true]
  unfold stripStart startsWith
  have oneSlash : "/".toList.length = 1 := rfl
  generalize "/" = slash at oneSlash ⊢
  constructor
  · rintro ⟨⟨notEmpty, _⟩, tail, stripped, isSlash⟩
    split at stripped
    · next isStart =>
      obtain ⟨rest, whole⟩ := List.isPrefixOf_iff_prefix.mp isStart
      cases stripped
      rw [String.toList_ofList, ← whole, ← String.length_toList, List.drop_left,
        List.isPrefixOf_iff_prefix] at isSlash
      refine ⟨notEmpty, ?_⟩
      rw [String.toList_append, ← whole]
      exact (List.prefix_append_right_inj _).mpr isSlash
    · cases stripped
  · rintro ⟨notEmpty, rest, whole⟩
    rw [String.toList_append, List.append_assoc] at whole
    refine ⟨⟨notEmpty, ?_⟩, String.ofList (path.toList.drop names.length), ?_, ?_⟩
    · rintro rfl
      have lengths := congrArg List.length whole
      rw [List.length_append, List.length_append] at lengths
      omega
    · rw [if_pos (List.isPrefixOf_iff_prefix.mpr ⟨_, whole⟩)]
    · rw [String.toList_ofList, ← whole, ← String.length_toList, List.drop_left,
        List.isPrefixOf_iff_prefix]
      exact List.prefix_append _ _

/-! ## The rows that are found -/

section Found
variable {cache : QueryCache} {filePath : String}

theorem isSome_matchingPath_iff (file : DiffFileRow) :
    (matchingPath filePath file).isSome ↔ IsAsked filePath file.path ∨
      ∃ oldPath, file.oldPath = some oldPath ∧ IsAsked filePath oldPath := by
  unfold matchingPath
  by_cases asked : IsAsked filePath file.path
  · rw [if_pos asked]
    exact iff_of_true rfl (Or.inl asked)
  · rw [if_neg asked, Option.isSome_iff_exists]
    simp only [Option.filter_eq_some_iff, decide_eq_true_eq, asked, false_or]

theorem diffFileMatches_iff (file : DiffFileRow) :
    diffFileMatches filePath file = true ↔ (matchingPath filePath file).isSome ∨
      FoldedIn filePath file.path ∨
        ∃ oldPath, file.oldPath = some oldPath ∧ FoldedIn filePath oldPath := by
  have pattern : diffFileMatches filePath file = true ↔
      ((file.path = filePath ∨ file.oldPath = some filePath) ∨ FoldedIn filePath file.path) ∨
        ∃ oldPath, file.oldPath = some oldPath ∧ FoldedIn filePath oldPath := by
    unfold diffFileMatches
    simp only [Bool.or_eq_true, beq_iff_eq, Option.any_eq_true, sqlLikeEscape_folder_iff]
  rw [pattern, isSome_matchingPath_iff]
  constructor
  · rintro (((same | old) | folder) | found)
    · exact Or.inl (Or.inl (Or.inl same))
    · exact Or.inl (Or.inr ⟨filePath, old, Or.inl rfl⟩)
    · exact Or.inr (Or.inl folder)
    · exact Or.inr (Or.inr found)
  · rintro (((same | lies) | ⟨oldPath, isOld, same | lies⟩) | folder | found)
    · exact Or.inl (Or.inl (Or.inl same))
    · exact Or.inl (Or.inr (foldedIn_of_liesIn lies))
    · exact Or.inl (Or.inl (Or.inr (same ▸ isOld)))
    · exact Or.inr ⟨oldPath, isOld, foldedIn_of_liesIn lies⟩
    · exact Or.inl (Or.inr folder)
    · exact Or.inr found

theorem fileRefMatches_iff (ref : FileRefRow) :
    fileRefMatches filePath ref = true ↔ IsAsked filePath ref.path ∨ FoldedIn filePath ref.path := by
  unfold fileRefMatches IsAsked
  rw [Bool.or_eq_true, beq_iff_eq, sqlLikeEscape_folder_iff, or_assoc]
  apply or_congr_right
  exact ⟨Or.inr, fun either => either.elim foldedIn_of_liesIn id⟩

/-- A file that is asked for is reported under the path that is. -/
theorem diffBlameRow_of_matching {joined : JoinedDiffFile} {shown : String}
    (matching : matchingPath filePath joined.file = some shown) :
    diffBlameRow filePath joined = diffBlameRowAt shown joined := by
  have checked : (joined.file.path = filePath ∨
      pathMatchesFolderQuery joined.file.path filePath = true) ↔ IsAsked filePath joined.file.path :=
    or_congr_right (pathMatchesFolderQuery_iff joined.file.path filePath)
  unfold matchingPath at matching
  unfold diffBlameRow
  rw [if_congr checked rfl rfl]
  by_cases asked : IsAsked filePath joined.file.path
  · rw [if_pos asked] at matching ⊢
    cases matching
    rfl
  · rw [if_neg asked] at matching ⊢
    rw [(Option.filter_eq_some_iff.mp matching).1]
    rfl

theorem expectedDiffRows_eq : expectedDiffRows cache filePath =
    ((joinedDiffFiles cache).filter fun joined => (matchingPath filePath joined.file).isSome).map
      (diffBlameRow filePath) := by
  unfold expectedDiffRows
  induction joinedDiffFiles cache with
  | nil => rfl
  | cons joined rest ih =>
      cases matching : matchingPath filePath joined.file with
      | none =>
          rw [List.filterMap_cons_none (by rw [matching]; rfl),
            List.filter_cons_of_neg (by simp [matching]), ih]
      | some shown =>
          rw [List.filterMap_cons_some (b := diffBlameRowAt shown joined) (by rw [matching]; rfl),
            List.filter_cons_of_pos (by simp [matching]), List.map_cons,
            diffBlameRow_of_matching matching, ih]

theorem length_expected_le :
    (expectedDiffRows cache filePath).length ≤ (diffListing cache filePath).length ∧
      (expectedFileRefRows cache filePath).length ≤ (fileRefListing cache filePath).length := by
  rw [expectedDiffRows_eq]
  unfold expectedFileRefRows diffListing fileRefListing
  simp only [List.length_map, ← List.countP_eq_length_filter]
  constructor
  · apply List.countP_mono_left
    exact fun joined _ asked => (diffFileMatches_iff joined.file).mpr (Or.inl asked)
  · apply List.countP_mono_left
    exact fun joined _ asked => (fileRefMatches_iff joined.ref).mpr (Or.inl (of_decide_eq_true asked))

theorem listings_expected (caseExact : CaseExact cache filePath) :
    (diffListing cache filePath).map ListedRow.row = expectedDiffRows cache filePath ∧
      (fileRefListing cache filePath).map ListedRow.row = expectedFileRefRows cache filePath := by
  rw [expectedDiffRows_eq]
  unfold expectedFileRefRows diffListing fileRefListing
  rw [List.map_map, List.map_map]
  constructor
  · congr 1
    apply List.filter_congr
    intro joined member
    rw [Bool.eq_iff_iff, diffFileMatches_iff]
    exact ⟨fun either => either.elim id (caseExact.1 joined member), Or.inl⟩
  · congr 1
    apply List.filter_congr
    intro joined member
    rw [Bool.eq_iff_iff, fileRefMatches_iff, decide_eq_true_eq]
    exact ⟨fun either => either.elim id (caseExact.2 joined member), Or.inl⟩

theorem caseExact_of_lengths
    (few : (diffListing cache filePath).length + (fileRefListing cache filePath).length =
      (expectedDiffRows cache filePath).length + (expectedFileRefRows cache filePath).length) :
    CaseExact cache filePath := by
  obtain ⟨diffs, refs⟩ := @length_expected_le cache filePath
  have fewDiffs : (diffListing cache filePath).length ≤ (expectedDiffRows cache filePath).length := by
    omega
  have fewRefs :
      (fileRefListing cache filePath).length ≤ (expectedFileRefRows cache filePath).length := by
    omega
  rw [expectedDiffRows_eq] at fewDiffs
  unfold diffListing at fewDiffs
  unfold fileRefListing expectedFileRefRows at fewRefs
  rw [List.length_map, List.length_map] at fewDiffs fewRefs
  constructor
  · have asked : ∀ joined ∈ joinedDiffFiles cache, (matchingPath filePath joined.file).isSome = true →
        diffFileMatches filePath joined.file = true :=
      fun joined _ isAsked => (diffFileMatches_iff joined.file).mpr (Or.inl isAsked)
    intro joined member seems
    have found := (diffFileMatches_iff joined.file).mpr (Or.inr seems)
    exact (filter_eq_of_length_le asked fewDiffs joined member).symm.trans found
  · have asked : ∀ joined ∈ explicitFileRefs cache, decide (IsAsked filePath joined.ref.path) = true →
        fileRefMatches filePath joined.ref = true :=
      fun joined _ isAsked =>
        (fileRefMatches_iff joined.ref).mpr (Or.inl (of_decide_eq_true isAsked))
    intro joined member seems
    have found := (fileRefMatches_iff joined.ref).mpr (Or.inr seems)
    exact of_decide_eq_true ((filter_eq_of_length_le asked fewRefs joined member).symm.trans found)

/-! ## The order and the limits -/

theorem listedFirst_trans (first second third : ListedRow)
    (left : listedFirst first second = true) (right : listedFirst second third = true) :
    listedFirst first third = true := by
  unfold listedFirst byLatest at left right ⊢
  rw [decide_eq_true_eq] at left right ⊢
  rcases left with later | ⟨same, ids⟩
  · rcases right with earlier | ⟨alike, _⟩
    · exact Or.inl (earlier.trans later)
    · exact Or.inl (alike ▸ later)
  · rcases right with earlier | ⟨alike, others⟩
    · exact Or.inl (same ▸ earlier)
    · exact Or.inr ⟨same.trans alike, ids.trans others⟩

theorem listedFirst_total (left right : ListedRow) :
    (listedFirst left right || listedFirst right left) = true := by
  unfold listedFirst byLatest
  rw [Bool.or_eq_true, decide_eq_true_eq, decide_eq_true_eq]
  rcases lt_trichotomy left.row.lastSeenAt right.row.lastSeenAt with earlier | same | later
  · exact Or.inr (Or.inl earlier)
  · rcases le_total left.id right.id with before | after
    · exact Or.inl (Or.inr ⟨same, before⟩)
    · exact Or.inr (Or.inr ⟨same.symm, after⟩)
  · exact Or.inl (Or.inl later)

/-- The order of the answer, for the rows of either query. -/
def answeredFirst (left right : ListedRow) : Bool := blameFirst left.row right.row

theorem answeredFirst_trans (first second third : ListedRow)
    (left : answeredFirst first second = true) (right : answeredFirst second third = true) :
    answeredFirst first third = true :=
  decide_eq_true ((of_decide_eq_true left).trans (of_decide_eq_true right))

theorem answeredFirst_total (left right : ListedRow) :
    (answeredFirst left right || answeredFirst right left) = true := by
  unfold answeredFirst blameFirst
  rw [Bool.or_eq_true, decide_eq_true_eq, decide_eq_true_eq]
  exact le_total left.row.rank right.row.rank

theorem runtimeBlame_eq (limit : Nat) : runtimeBlame cache filePath limit =
    (limited listedFirst answeredFirst limit (diffListing cache filePath)
      (fileRefListing cache filePath)).map ListedRow.row := by
  unfold runtimeBlame runtimeDiffBlameRows runtimeFileRefBlameRows limited firstRows
  rw [← List.map_append, List.map_take]
  congr 1
  refine (List.map_mergeSort ?_).symm
  intro left _ right _
  rfl

/-- A limit that leaves nothing out cuts nothing. -/
theorem runtimeBlame_of_large {large : Nat}
    (fits : (diffListing cache filePath).length + (fileRefListing cache filePath).length ≤ large) :
    runtimeBlame cache filePath large = (whole listedFirst answeredFirst (diffListing cache filePath)
      (fileRefListing cache filePath)).map ListedRow.row := by
  rw [runtimeBlame_eq]
  unfold limited whole
  have uncut : ∀ listing : List ListedRow, listing.length ≤ large →
      (listing.mergeSort listedFirst).take large = listing.mergeSort listedFirst := by
    intro listing few
    exact List.take_of_length_le (by rwa [List.length_mergeSort])
  rw [uncut _ (by omega), uncut _ (by omega)]
  congr 1
  apply List.take_of_length_le
  rw [List.length_mergeSort, List.length_append, List.length_mergeSort, List.length_mergeSort]
  exact fits

theorem whole_perm : ((whole listedFirst answeredFirst (diffListing cache filePath)
    (fileRefListing cache filePath)).map ListedRow.row).Perm
      ((diffListing cache filePath).map ListedRow.row ++
        (fileRefListing cache filePath).map ListedRow.row) := by
  rw [← List.map_append]
  exact ((List.mergeSort_perm _ _).trans
    ((List.mergeSort_perm _ _).append (List.mergeSort_perm _ _))).map _

/-- A row of a diff points at it, a row of a reference does not. -/
theorem listings_apart : ∀ left ∈ diffListing cache filePath, ∀ right ∈ fileRefListing cache filePath,
    left.row ≠ right.row := by
  intro left isLeft right isRight same
  obtain ⟨joined, _, rfl⟩ := List.mem_map.mp isLeft
  obtain ⟨ref, _, rfl⟩ := List.mem_map.mp isRight
  have pointers := congrArg (fun row : RuntimeBlameRow => row.sourcePointer.map fun pointer =>
    (pointer.get "diff_id").isSome) same
  simp [diffBlameRow, diffBlameRowAt, fileRefBlameRow, Json.get, List.lookup_cons] at pointers

end Found

/-- The query answers a path as it is to be answered exactly when no path that is stored is in
the folder but for the case of its letters, and no row that belongs to the first ones of the
answer has too many ahead of it in its own query. -/
theorem path_blame_answers_iff {cache : QueryCache} (tables : cache.hasTables = true)
    (filePath : String) :
    AnswersPath cache filePath ↔ CaseExact cache filePath ∧
      ∀ limit, ListedInTime listedFirst answeredFirst (QueryCache.normalizedLimit limit)
        (diffListing cache filePath) (fileRefListing cache filePath) := by
  have cuts : ∀ limit, querySqliteFileSessionBlame cache ⟨filePath, limit⟩ =
      .ok (((whole listedFirst answeredFirst (diffListing cache filePath)
        (fileRefListing cache filePath)).map ListedRow.row).take (QueryCache.normalizedLimit limit)) ↔
      ListedInTime listedFirst answeredFirst (QueryCache.normalizedLimit limit)
        (diffListing cache filePath) (fileRefListing cache filePath) := by
    intro limit
    unfold querySqliteFileSessionBlame
    rw [if_pos tables, Except.ok.injEq, runtimeBlame_eq]
    apply map_limited_eq_take_iff listedFirst_trans listedFirst_total answeredFirst_trans
      answeredFirst_total _ listings_apart
    intro left right same
    unfold answeredFirst
    rw [same]
    exact decide_eq_true le_rfl
  constructor
  · intro answers
    obtain ⟨rows, limits⟩ := answers _ le_rfl
    rw [runtimeBlame_of_large le_rfl] at rows limits
    refine ⟨?_, fun limit => (cuts limit).mp (limits limit)⟩
    have lengths := (whole_perm.symm.trans rows).length_eq
    rw [List.length_append, List.length_append, List.length_map, List.length_map] at lengths
    exact caseExact_of_lengths lengths
  · rintro ⟨caseExact, inTime⟩ large fits
    rw [runtimeBlame_of_large fits]
    refine ⟨?_, fun limit => (cuts limit).mpr (inTime limit)⟩
    obtain ⟨diffs, refs⟩ := listings_expected caseExact
    rw [← diffs, ← refs]
    exact whole_perm

/-! ## One file of one diff -/

def fixDiff : DiffRow where
  diffId := "diff-1"
  artifactId := "artifact-1"
  sessionId := some "session-1"
  missionId := none
  diffTarget := "working_tree"
  baseCommit := none
  headCommit := none
  patchId := none
  summaryHash := "hash-1"
  fileCount := 1
  additions := 2
  deletions := 0
  binaryFileCount := 0
  repoContextId := none
  capturedAt := "2026-06-22T10:00:00+00:00"

def cacheWith (path : String) : QueryCache where
  hasTables := true
  rows := [.diffs fixDiff, .diffFiles ⟨"diff-1", path, none, "modified", some 2, some 0⟩]

theorem folder_answered : AnswersPath (cacheWith "src/auth.rs") "src" := by
  have tables : (cacheWith "src/auth.rs").hasTables = true := rfl
  have asked : (joinedDiffFiles (cacheWith "src/auth.rs")).all fun joined =>
      (matchingPath "src" joined.file).isSome := by
    decide +kernel
  have noRefs : (explicitFileRefs (cacheWith "src/auth.rs")).length = 0 := by decide +kernel
  have first : (both (diffListing (cacheWith "src/auth.rs") "src")
      (fileRefListing (cacheWith "src/auth.rs") "src")).all fun here =>
        aheadInList listedFirst (diffListing (cacheWith "src/auth.rs") "src")
          (fileRefListing (cacheWith "src/auth.rs") "src") here == 0 := by
    decide +kernel
  apply (path_blame_answers_iff tables "src").mpr
  refine ⟨⟨?_, ?_⟩, ?_⟩
  · exact fun joined member _ => List.all_eq_true.mp asked joined member
  · rw [List.eq_nil_of_length_eq_zero noRefs]
    exact fun _ member => absurd member List.not_mem_nil
  · intro limit here member _
    rw [beq_iff_eq.mp (List.all_eq_true.mp first here member)]
    unfold QueryCache.normalizedLimit
    exact Nat.lt_min.mpr ⟨Nat.lt_of_lt_of_le Nat.one_pos (Nat.le_max_right _ _), by decide⟩

/-- A file of the folder SRC is answered for the folder src. -/
theorem other_folder_answered : ¬ AnswersPath (cacheWith "SRC/auth.rs") "src" := by
  have found : (runtimeBlame (cacheWith "SRC/auth.rs") "src" 1).length = 1 := by decide +kernel
  have expected : (expectedDiffRows (cacheWith "SRC/auth.rs") "src" ++
      expectedFileRefRows (cacheWith "SRC/auth.rs") "src").length = 0 := by
    decide +kernel
  intro answers
  have lengths := (answers 1 (by decide +kernel)).1.length_eq
  rw [found, expected] at lengths
  cases lengths

end BrickTrace
