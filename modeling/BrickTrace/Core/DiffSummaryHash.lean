import Mathlib.Data.Prod.Lex
import Mathlib.Order.WithBot
import BrickTrace.Lib.LineFrames
import BrickTrace.Lib.StableSort
import BrickTrace.Core.DiffNumstat

/-!
# The summary hash of a diff

A diff is written into a text, its changes sorted by path and old path, and the text is hashed.
The sort is stable and looks at nothing else, so changes of one path and old path are written
in the order in which they are given.
-/

set_option autoImplicit false

namespace BrickTrace

/-! ## The text of a diff -/

/-- `{:?}` of the target. -/
def DiffTarget.debugName : DiffTarget → String
  | .working => "Working"
  | .staged => "Staged"
  | .range => "Range"

/-- `{:?}` of the kind. -/
def DiffFileChangeKind.debugName : DiffFileChangeKind → String
  | .added => "Added"
  | .modified => "Modified"
  | .deleted => "Deleted"
  | .renamed => "Renamed"
  | .copied => "Copied"
  | .typeChanged => "TypeChanged"
  | .unknown => "Unknown"

/-- The paths by which changes are sorted; no old path comes before any. -/
def changeKey (path : String) (oldPath : Option String) : String ×ₗ WithBot String :=
  toLex (path, oldPath)

def changeBefore (left right : DiffFileChange) : Bool :=
  changeKey left.path left.oldPath ≤ changeKey right.path right.oldPath

def normalizedHunk (hunk : DiffHunk) : String :=
  "\thunk\t" ++ hunk.oldStart.toNat.repr ++ "\t" ++ hunk.oldLines.toNat.repr ++ "\t" ++
    hunk.newStart.toNat.repr ++ "\t" ++ hunk.newLines.toNat.repr ++ "\n"

def normalizedChange (change : DiffFileChange) : String :=
  change.oldPath.getD "" ++ "\t" ++ change.path ++ "\t" ++ change.changeKind.debugName ++ "\t" ++
    numstatCountText change.additions ++ "\t" ++ numstatCountText change.deletions ++ "\n" ++
    String.join (change.hunks.map normalizedHunk)

/-- What is hashed of a diff. -/
structure HashedDiff where
  target : DiffTarget
  baseCommit : Option String
  headCommit : Option String
  changes : List DiffFileChange

def normalizedDiff (diff : HashedDiff) : String :=
  "target=" ++ diff.target.debugName ++ "\n" ++ ("base=" ++ diff.baseCommit.getD "" ++ "\n") ++
    ("head=" ++ diff.headCommit.getD "" ++ "\n") ++
    String.join ((diff.changes.mergeSort changeBefore).map normalizedChange)

/-- The digest is of the text in UTF-8, in hexadecimal digits. -/
def computeSummaryHash (sha256 : String → String) (diff : HashedDiff) : String :=
  sha256 (normalizedDiff diff)

/-! ## Diffs that are the same -/

/-- What is compared of a change. -/
structure ChangeFigures where
  oldPath : Option String
  path : String
  kind : DiffFileChangeKind
  additions : Option UInt64
  deletions : Option UInt64
  ranges : List ((UInt64 × UInt64) × (UInt64 × UInt64))
deriving DecidableEq

def DiffHunk.ranges (hunk : DiffHunk) : (UInt64 × UInt64) × (UInt64 × UInt64) :=
  ((hunk.oldStart, hunk.oldLines), (hunk.newStart, hunk.newLines))

def DiffFileChange.figures (change : DiffFileChange) : ChangeFigures where
  oldPath := change.oldPath
  path := change.path
  kind := change.changeKind
  additions := change.additions
  deletions := change.deletions
  ranges := change.hunks.map DiffHunk.ranges

namespace HashedDiff

def figures (diff : HashedDiff) : List ChangeFigures := diff.changes.map DiffFileChange.figures

/-- The same target and commits, and the same changes in whatever order. -/
def Same (first second : HashedDiff) : Prop :=
  first.target = second.target ∧ first.baseCommit = second.baseCommit ∧
    first.headCommit = second.headCommit ∧ first.figures.Perm second.figures

/-- The changes of one path and old path, in the order in which they are given. -/
def figuresAt (diff : HashedDiff) (path : String) (oldPath : Option String) : List ChangeFigures :=
  diff.figures.filter fun figures => figures.path = path ∧ figures.oldPath = oldPath

/-- Changes that are tied by path and old path are given in the same order. -/
def TiesInOrder (first second : HashedDiff) : Prop :=
  ∀ path oldPath, first.figuresAt path oldPath = second.figuresAt path oldPath

/-- No name holds what separates the names in the text, and none is there but empty. -/
structure Plain (diff : HashedDiff) : Prop where
  commits : ∀ commit, diff.baseCommit = some commit ∨ diff.headCommit = some commit →
    commit ≠ "" ∧ '\n' ∉ commit.toList
  paths : ∀ figures ∈ diff.figures, '\t' ∉ figures.path.toList ∧ '\n' ∉ figures.path.toList
  oldPaths : ∀ figures ∈ diff.figures, ∀ oldPath, figures.oldPath = some oldPath →
    oldPath ≠ "" ∧ '\t' ∉ oldPath.toList ∧ '\n' ∉ oldPath.toList

end HashedDiff

/-! ## The lines of the text -/

def fieldsLine (fields : List String) : List Char := ['\t'].intercalate (fields.map String.toList)

def rangeFields (ranges : (UInt64 × UInt64) × (UInt64 × UInt64)) : List String :=
  ["", "hunk", ranges.1.1.toNat.repr, ranges.1.2.toNat.repr, ranges.2.1.toNat.repr,
    ranges.2.2.toNat.repr]

namespace ChangeFigures

def fields (figures : ChangeFigures) : List String :=
  [figures.oldPath.getD "", figures.path, figures.kind.debugName,
    numstatCountText figures.additions, numstatCountText figures.deletions]

/-- The line of a change and those of its hunks. -/
def lines (figures : ChangeFigures) : List (List Char) :=
  fieldsLine figures.fields :: figures.ranges.map fun ranges => fieldsLine (rangeFields ranges)

def key (figures : ChangeFigures) : String ×ₗ WithBot String := changeKey figures.path figures.oldPath

end ChangeFigures

/-- The figures in the order in which they are written. -/
def sortedFigures (figures : List ChangeFigures) : List ChangeFigures :=
  StableSort.largestFirst (fun figures => OrderDual.toDual figures.key) figures

def headerLines (diff : HashedDiff) : List (List Char) :=
  [("target=" ++ diff.target.debugName).toList, ("base=" ++ diff.baseCommit.getD "").toList,
    ("head=" ++ diff.headCommit.getD "").toList]

theorem write_append (front back : List (List Char)) :
    LineFrames.write '\n' (front ++ back) = LineFrames.write '\n' front ++ LineFrames.write '\n' back :=
  List.flatMap_append

theorem toList_normalizedHunk (hunk : DiffHunk) :
    (normalizedHunk hunk).toList = fieldsLine (rangeFields hunk.ranges) ++ ['\n'] := by
  unfold normalizedHunk fieldsLine rangeFields DiffHunk.ranges
  simp [List.intercalate, List.intersperse]

theorem toList_normalizedChange (change : DiffFileChange) :
    (normalizedChange change).toList = LineFrames.write '\n' change.figures.lines := by
  have hunks : (String.join (change.hunks.map normalizedHunk)).toList =
      LineFrames.write '\n'
        (change.figures.ranges.map fun ranges => fieldsLine (rangeFields ranges)) := by
    unfold DiffFileChange.figures
    dsimp only
    induction change.hunks with
    | nil => rfl
    | cons hunk rest ih =>
        rw [List.map_cons, String.join_cons, String.toList_append, ih, toList_normalizedHunk]
        rfl
  unfold normalizedChange
  rw [String.toList_append, hunks]
  simp [ChangeFigures.lines, ChangeFigures.fields, LineFrames.write, fieldsLine, List.intercalate,
    List.intersperse, DiffFileChange.figures]

theorem map_figures_mergeSort (changes : List DiffFileChange) :
    (changes.mergeSort changeBefore).map DiffFileChange.figures =
      sortedFigures (changes.map DiffFileChange.figures) :=
  List.map_mergeSort fun _ _ _ _ => rfl

theorem toList_normalizedDiff (diff : HashedDiff) :
    (normalizedDiff diff).toList = LineFrames.write '\n'
      (headerLines diff ++ (sortedFigures diff.figures).flatMap ChangeFigures.lines) := by
  have changes : ∀ changes : List DiffFileChange, (String.join (changes.map normalizedChange)).toList =
      LineFrames.write '\n' ((changes.map DiffFileChange.figures).flatMap ChangeFigures.lines) := by
    intro changes
    induction changes with
    | nil => rfl
    | cons change rest ih =>
        rw [List.map_cons, String.join_cons, String.toList_append, ih, toList_normalizedChange,
          List.map_cons, List.flatMap_cons, write_append]
  unfold normalizedDiff
  rw [String.toList_append, changes, map_figures_mergeSort, write_append]
  congr 1
  simp [headerLines, LineFrames.write]

/-! ## Reading the lines back -/

theorem newline_notMem_fieldsLine {fields : List String}
    (free : ∀ field ∈ fields, '\n' ∉ field.toList) : '\n' ∉ fieldsLine fields := by
  unfold fieldsLine
  induction fields with
  | nil => exact List.not_mem_nil
  | cons field rest ih =>
      obtain ⟨here, others⟩ := List.forall_mem_cons.mp free
      cases rest with
      | nil => simpa using here
      | cons second rest =>
          rw [List.map_cons, List.map_cons, List.intercalate_cons_cons, List.mem_append,
            List.mem_append, not_or, not_or]
          exact ⟨⟨here, by decide⟩, ih others⟩

theorem fieldsLine_inj {first second : List String} (firstFull : first ≠ []) (secondFull : second ≠ [])
    (firstFree : ∀ field ∈ first, '\t' ∉ field.toList)
    (secondFree : ∀ field ∈ second, '\t' ∉ field.toList)
    (same : fieldsLine first = fieldsLine second) : first = second := by
  have read : ∀ fields : List String, fields ≠ [] → (∀ field ∈ fields, '\t' ∉ field.toList) →
      (fieldsLine fields).splitOn '\t' = fields.map String.toList := by
    intro fields full free
    refine List.splitOn_intercalate '\t' ?_ (by simpa using full)
    intro chars member
    obtain ⟨field, isField, rfl⟩ := List.mem_map.mp member
    exact free field isField
  have chars := congrArg (List.splitOn '\t') same
  rw [read first firstFull firstFree, read second secondFull secondFree] at chars
  exact List.map_injective_iff.mpr (fun _ _ => String.toList_injective) chars

theorem numstatCountText_inj {first second : Option UInt64}
    (same : numstatCountText first = numstatCountText second) : first = second := by
  have read := parseNumstatCount_text first ""
  rw [same, parseNumstatCount_text second ""] at read
  exact (Except.ok.inj read).symm

theorem newline_notMem_numstatCountText (count : Option UInt64) :
    '\n' ∉ (numstatCountText count).toList := by
  intro member
  rcases mem_numstatCountText member with hyphen | digit
  · exact absurd hyphen (by decide)
  · exact absurd digit (by decide)

/-- No tab and no line feed. -/
def Separable (text : String) : Prop := '\t' ∉ text.toList ∧ '\n' ∉ text.toList

theorem separable_numstatCountText (count : Option UInt64) : Separable (numstatCountText count) :=
  ⟨tab_notMem_numstatCountText count, newline_notMem_numstatCountText count⟩

theorem separable_rangeFields (ranges : (UInt64 × UInt64) × (UInt64 × UInt64)) :
    ∀ field ∈ rangeFields ranges, Separable field := by
  intro field member
  unfold rangeFields at member
  simp only [List.mem_cons, List.not_mem_nil, or_false] at member
  rcases member with rfl | rfl | rfl | rfl | rfl | rfl
  · exact ⟨by decide, by decide⟩
  · exact ⟨by decide, by decide⟩
  · exact separable_numstatCountText (some ranges.1.1)
  · exact separable_numstatCountText (some ranges.1.2)
  · exact separable_numstatCountText (some ranges.2.1)
  · exact separable_numstatCountText (some ranges.2.2)

/-- The figures of a change whose names are plain. -/
structure ChangeFigures.Plain (figures : ChangeFigures) : Prop where
  path : Separable figures.path
  oldPath : ∀ oldPath, figures.oldPath = some oldPath → oldPath ≠ "" ∧ Separable oldPath

theorem ChangeFigures.Plain.separable {figures : ChangeFigures} (plain : figures.Plain) :
    ∀ field ∈ figures.fields, Separable field := by
  intro field member
  unfold fields at member
  simp only [List.mem_cons, List.not_mem_nil, or_false] at member
  rcases member with rfl | rfl | rfl | rfl | rfl
  · cases moved : figures.oldPath with
    | none => exact ⟨by decide, by decide⟩
    | some oldPath => exact (plain.oldPath oldPath moved).2
  · exact plain.path
  · cases figures.kind <;> exact ⟨by decide, by decide⟩
  · exact separable_numstatCountText _
  · exact separable_numstatCountText _

theorem getD_inj {first second : Option String} (firstFull : first ≠ some "") (secondFull : second ≠ some "")
    (same : first.getD "" = second.getD "") : first = second := by
  cases first with
  | none =>
      cases second with
      | none => rfl
      | some text => exact absurd (congrArg some same).symm secondFull
  | some text =>
      cases second with
      | none => exact absurd (congrArg some same) firstFull
      | some other => exact congrArg some same

theorem rangesLine_inj {first second : (UInt64 × UInt64) × (UInt64 × UInt64)}
    (same : fieldsLine (rangeFields first) = fieldsLine (rangeFields second)) : first = second := by
  have fields := fieldsLine_inj (List.cons_ne_nil _ _) (List.cons_ne_nil _ _)
    (fun field member => (separable_rangeFields first field member).1)
    (fun field member => (separable_rangeFields second field member).1) same
  have number : ∀ {n m : UInt64}, n.toNat.repr = m.toNat.repr → n = m :=
    fun {n m} repr => Option.some.inj (@numstatCountText_inj (some n) (some m) repr)
  simp only [List.cons.injEq, and_true, true_and] at fields
  obtain ⟨oldStart, oldLines, newStart, newLines⟩ := fields
  exact Prod.ext (Prod.ext (number oldStart) (number oldLines))
    (Prod.ext (number newStart) (number newLines))

/-- The line of a change tells everything but the hunks. -/
theorem changeLine_inj {first second : ChangeFigures} (firstPlain : first.Plain)
    (secondPlain : second.Plain) (same : fieldsLine first.fields = fieldsLine second.fields) :
    { first with ranges := second.ranges } = second := by
  have fields := fieldsLine_inj (List.cons_ne_nil _ _) (List.cons_ne_nil _ _)
    (fun field member => (firstPlain.separable field member).1)
    (fun field member => (secondPlain.separable field member).1) same
  simp only [List.cons.injEq, and_true] at fields
  obtain ⟨oldPath, path, kind, additions, deletions⟩ := fields
  have sameOld := getD_inj (fun empty => (firstPlain.oldPath _ empty).1 rfl)
    (fun empty => (secondPlain.oldPath _ empty).1 rfl) oldPath
  have sameKind : first.kind = second.kind := by
    cases firstKind : first.kind <;> cases secondKind : second.kind <;>
      simp [firstKind, secondKind, DiffFileChangeKind.debugName] at kind ⊢
  obtain ⟨_, _, _, _, _, _⟩ := second
  obtain ⟨_, _, _, _, _, _⟩ := first
  have sameAdditions := numstatCountText_inj additions
  have sameDeletions := numstatCountText_inj deletions
  dsimp only at sameOld path sameKind sameAdditions sameDeletions ⊢
  rw [sameOld, path, sameKind, sameAdditions, sameDeletions]

/-- The lines of hunks have one field more than those of changes. -/
def isHunkLine (line : List Char) : Bool := (line.splitOn '\t').length == 6

theorem length_splitOn_fieldsLine {fields : List String} (full : fields ≠ [])
    (free : ∀ field ∈ fields, Separable field) :
    ((fieldsLine fields).splitOn '\t').length = fields.length := by
  unfold fieldsLine
  rw [List.splitOn_intercalate '\t' ?_ (by simpa using full), List.length_map]
  intro chars member
  obtain ⟨field, isField, rfl⟩ := List.mem_map.mp member
  exact (free field isField).1

theorem isHunkLine_ranges (ranges : (UInt64 × UInt64) × (UInt64 × UInt64)) :
    isHunkLine (fieldsLine (rangeFields ranges)) = true := by
  have full : rangeFields ranges ≠ [] := List.cons_ne_nil _ _
  unfold isHunkLine
  rw [length_splitOn_fieldsLine full (separable_rangeFields ranges)]
  rfl

theorem isHunkLine_change {figures : ChangeFigures} (plain : figures.Plain) :
    isHunkLine (fieldsLine figures.fields) = false := by
  have full : figures.fields ≠ [] := List.cons_ne_nil _ _
  unfold isHunkLine
  rw [length_splitOn_fieldsLine full plain.separable]
  rfl

/-- After the lines of hunks comes the line of a change, if anything. -/
theorem takeWhile_isHunkLine {others : List ChangeFigures} (plain : ∀ figures ∈ others, figures.Plain)
    (ranges : List ((UInt64 × UInt64) × (UInt64 × UInt64))) :
    ((ranges.map fun ranges => fieldsLine (rangeFields ranges)) ++
        others.flatMap ChangeFigures.lines).takeWhile isHunkLine =
      ranges.map fun ranges => fieldsLine (rangeFields ranges) := by
  have allHunks : ∀ line ∈ ranges.map fun ranges => fieldsLine (rangeFields ranges),
      isHunkLine line = true := by
    intro line member
    obtain ⟨ranges, _, rfl⟩ := List.mem_map.mp member
    exact isHunkLine_ranges ranges
  have noMore : (others.flatMap ChangeFigures.lines).takeWhile isHunkLine = [] := by
    cases others with
    | nil => rfl
    | cons figures rest =>
        rw [List.flatMap_cons, ChangeFigures.lines, List.cons_append, List.takeWhile_cons_of_neg]
        rw [isHunkLine_change (plain figures List.mem_cons_self)]
        exact Bool.false_ne_true
  rw [List.takeWhile_append_of_pos allHunks, noMore, List.append_nil]

theorem flatMap_lines_inj {first second : List ChangeFigures}
    (firstPlain : ∀ figures ∈ first, figures.Plain) (secondPlain : ∀ figures ∈ second, figures.Plain)
    (same : first.flatMap ChangeFigures.lines = second.flatMap ChangeFigures.lines) :
    first = second := by
  induction first generalizing second with
  | nil =>
      cases second with
      | nil => rfl
      | cons other others => cases same
  | cons figures rest ih =>
      cases second with
      | nil => cases same
      | cons other others =>
          obtain ⟨plain, restPlain⟩ := List.forall_mem_cons.mp firstPlain
          obtain ⟨otherPlain, othersPlain⟩ := List.forall_mem_cons.mp secondPlain
          rw [List.flatMap_cons, List.flatMap_cons, ChangeFigures.lines, ChangeFigures.lines,
            List.cons_append, List.cons_append, List.cons.injEq] at same
          obtain ⟨changeLine, later⟩ := same
          have hunks := congrArg (List.takeWhile isHunkLine) later
          rw [takeWhile_isHunkLine restPlain, takeWhile_isHunkLine othersPlain] at hunks
          have sameRanges : figures.ranges = other.ranges :=
            List.map_injective_iff.mpr (fun _ _ => rangesLine_inj) hunks
          rw [sameRanges] at later
          have sameFigures : figures = other := by
            rw [← changeLine_inj plain otherPlain changeLine, ← sameRanges]
          rw [sameFigures, ih restPlain othersPlain (List.append_cancel_left later)]

/-! ## Hashes of diffs -/

theorem HashedDiff.Plain.figures_plain {diff : HashedDiff} (plain : diff.Plain) :
    ∀ figures ∈ diff.figures, figures.Plain := fun figures member =>
  ⟨plain.paths figures member, plain.oldPaths figures member⟩

theorem HashedDiff.Plain.sorted_plain {diff : HashedDiff} (plain : diff.Plain) :
    ∀ figures ∈ sortedFigures diff.figures, figures.Plain := fun figures member =>
  plain.figures_plain figures (StableSort.largestFirst_perm.mem_iff.mp member)

theorem HashedDiff.Plain.newline_notMem_lines {diff : HashedDiff} (plain : diff.Plain) :
    ∀ line ∈ headerLines diff ++ (sortedFigures diff.figures).flatMap ChangeFigures.lines,
      '\n' ∉ line := by
  have commitLine : ∀ commit : Option String, (commit = diff.baseCommit ∨ commit = diff.headCommit) →
      '\n' ∉ (commit.getD "").toList := by
    intro commit ofDiff
    cases named : commit with
    | none => exact List.not_mem_nil
    | some text =>
        rw [named] at ofDiff
        exact (plain.commits text (ofDiff.imp Eq.symm Eq.symm)).2
  intro line member
  rcases List.mem_append.mp member with header | later
  · unfold headerLines at header
    simp only [List.mem_cons, List.not_mem_nil, or_false] at header
    rcases header with rfl | rfl | rfl
    · cases diff.target <;> decide
    · rw [String.toList_append, List.mem_append, not_or]
      exact ⟨by decide, commitLine _ (Or.inl rfl)⟩
    · rw [String.toList_append, List.mem_append, not_or]
      exact ⟨by decide, commitLine _ (Or.inr rfl)⟩
  · obtain ⟨figures, isFigures, ofFigures⟩ := List.mem_flatMap.mp later
    rcases List.mem_cons.mp ofFigures with rfl | hunk
    · exact newline_notMem_fieldsLine fun field isField =>
        ((plain.sorted_plain figures isFigures).separable field isField).2
    · obtain ⟨ranges, _, rfl⟩ := List.mem_map.mp hunk
      exact newline_notMem_fieldsLine fun field isField => (separable_rangeFields ranges field isField).2

/-- The text tells the target, the commits and the sorted changes. -/
theorem normalizedDiff_inj_iff {first second : HashedDiff} (firstPlain : first.Plain)
    (secondPlain : second.Plain) :
    normalizedDiff first = normalizedDiff second ↔
      first.target = second.target ∧ first.baseCommit = second.baseCommit ∧
        first.headCommit = second.headCommit ∧
          sortedFigures first.figures = sortedFigures second.figures := by
  constructor
  · intro same
    have chars := congrArg String.toList same
    rw [toList_normalizedDiff, toList_normalizedDiff] at chars
    have frames := congrArg (LineFrames.frames '\n') chars
    rw [LineFrames.frames_write firstPlain.newline_notMem_lines,
      LineFrames.frames_write secondPlain.newline_notMem_lines] at frames
    have lines := List.map_injective_iff.mpr (fun _ _ pair => congrArg Prod.fst pair) frames
    obtain ⟨headers, changes⟩ := List.append_inj lines rfl
    simp only [headerLines, List.cons.injEq, and_true] at headers
    obtain ⟨targetLine, baseLine, headLine⟩ := headers
    refine ⟨?_, ?_, ?_, ?_⟩
    · have names := (String.append_right_inj _).mp (String.toList_injective targetLine)
      cases firstTarget : first.target <;> cases secondTarget : second.target <;>
        simp [firstTarget, secondTarget, DiffTarget.debugName] at names ⊢
    · exact getD_inj (fun empty => (firstPlain.commits _ (Or.inl empty)).1 rfl)
        (fun empty => (secondPlain.commits _ (Or.inl empty)).1 rfl)
        ((String.append_right_inj _).mp (String.toList_injective baseLine))
    · exact getD_inj (fun empty => (firstPlain.commits _ (Or.inr empty)).1 rfl)
        (fun empty => (secondPlain.commits _ (Or.inr empty)).1 rfl)
        ((String.append_right_inj _).mp (String.toList_injective headLine))
    · exact flatMap_lines_inj firstPlain.sorted_plain secondPlain.sorted_plain changes
  · rintro ⟨target, base, head, sorted⟩
    apply String.toList_injective
    rw [toList_normalizedDiff, toList_normalizedDiff, sorted]
    unfold headerLines
    rw [target, base, head]

theorem sortedFigures_eq_iff (first second : HashedDiff) :
    sortedFigures first.figures = sortedFigures second.figures ↔ first.TiesInOrder second := by
  unfold sortedFigures
  rw [StableSort.largestFirst_eq_iff]
  have tied : ∀ (figures : List ChangeFigures) (path : String) (oldPath : Option String),
      figures.filter (fun other =>
        OrderDual.toDual other.key = OrderDual.toDual (changeKey path oldPath)) =
      figures.filter fun other => other.path = path ∧ other.oldPath = oldPath := by
    intro figures path oldPath
    refine List.filter_congr fun other _ => decide_eq_decide.mpr ?_
    rw [OrderDual.toDual_inj, ChangeFigures.key, changeKey, changeKey, toLex_inj]
    exact Prod.mk.injEq _ _ _ _ ▸ Iff.rfl
  constructor
  · intro same path oldPath
    have here := same (OrderDual.toDual (changeKey path oldPath))
    rwa [tied, tied] at here
  · intro ties value
    obtain ⟨path, oldPath, rfl⟩ : ∃ path oldPath, value = OrderDual.toDual (changeKey path oldPath) :=
      ⟨(ofLex (OrderDual.ofDual value)).1, (ofLex (OrderDual.ofDual value)).2, rfl⟩
    exact (tied first.figures path oldPath).trans
      ((ties path oldPath).trans (tied second.figures path oldPath).symm)

/-- Diffs with plain names have one hash exactly if they are the same, provided that changes of
one path and old path come in the same order. -/
theorem computeSummaryHash_eq_iff (sha256 : String → String) (injective : Function.Injective sha256)
    (first second : HashedDiff) (firstPlain : first.Plain) (secondPlain : second.Plain) :
    (computeSummaryHash sha256 first = computeSummaryHash sha256 second ↔ first.Same second) ↔
      (first.Same second → first.TiesInOrder second) := by
  have hashes : computeSummaryHash sha256 first = computeSummaryHash sha256 second ↔
      first.target = second.target ∧ first.baseCommit = second.baseCommit ∧
        first.headCommit = second.headCommit ∧ first.TiesInOrder second := by
    unfold computeSummaryHash
    rw [injective.eq_iff, normalizedDiff_inj_iff firstPlain secondPlain, sortedFigures_eq_iff]
  rw [hashes]
  constructor
  · intro tells same
    exact (tells.mpr same).2.2.2
  · intro inOrder
    constructor
    · rintro ⟨target, base, head, ties⟩
      refine ⟨target, base, head, ?_⟩
      have sorted := (sortedFigures_eq_iff first second).mpr ties
      have perm : ∀ figures : List ChangeFigures, (sortedFigures figures).Perm figures :=
        fun _ => StableSort.largestFirst_perm
      exact (perm first.figures).symm.trans (sorted ▸ perm second.figures)
    · intro same
      exact ⟨same.1, same.2.1, same.2.2.1, inOrder same⟩

/-! ## Diffs that are told apart wrongly -/

def changeOf (path : String) (oldPath : Option String) (kind : DiffFileChangeKind) : DiffFileChange :=
  { numstatChange oldPath path (some 1) (some 0) with changeKind := kind }

def rangeDiff (changes : List DiffFileChange) : HashedDiff := ⟨.range, some "base", some "head", changes⟩

theorem two_paths_in_any_order : computeSummaryHash id
      (rangeDiff [changeOf "a.rs" none .modified, changeOf "b.rs" none .added]) =
    computeSummaryHash id
      (rangeDiff [changeOf "b.rs" none .added, changeOf "a.rs" none .modified]) := by
  have plain : ∀ changes : List DiffFileChange,
      (∀ change ∈ changes, Separable change.path ∧ change.oldPath = none) →
        (rangeDiff changes).Plain := by
    intro changes plainPaths
    refine ⟨?_, ?_, ?_⟩
    · intro commit named
      rcases named with base | head
      · cases base
        exact ⟨by decide, by decide⟩
      · cases head
        exact ⟨by decide, by decide⟩
    · intro figures member
      obtain ⟨change, isChange, rfl⟩ := List.mem_map.mp member
      exact (plainPaths change isChange).1
    · intro figures member oldPath moved
      obtain ⟨change, isChange, rfl⟩ := List.mem_map.mp member
      have stays : change.oldPath = some oldPath := moved
      rw [(plainPaths change isChange).2] at stays
      cases stays
  refine ((computeSummaryHash_eq_iff id Function.injective_id _ _ (plain _ ?_) (plain _ ?_)).mpr ?_).mpr ?_
  · intro change member
    rcases List.mem_pair.mp member with rfl | rfl <;> exact ⟨⟨by decide, by decide⟩, rfl⟩
  · intro change member
    rcases List.mem_pair.mp member with rfl | rfl <;> exact ⟨⟨by decide, by decide⟩, rfl⟩
  · intro _ path oldPath
    unfold HashedDiff.figuresAt HashedDiff.figures rangeDiff
    simp only [List.map_cons, List.map_nil, List.filter_cons, List.filter_nil]
    by_cases isFirst : "a.rs" = path
    · have notSecond : "b.rs" ≠ path := isFirst ▸ by decide
      simp [DiffFileChange.figures, changeOf, numstatChange, notSecond]
    · simp [DiffFileChange.figures, changeOf, numstatChange, isFirst]
  · exact ⟨rfl, rfl, rfl, List.Perm.swap _ _ _⟩

/-- Two changes of one path, in both orders. -/
def tiedDiff (first second : DiffFileChangeKind) : HashedDiff :=
  rangeDiff [changeOf "a.rs" none first, changeOf "a.rs" none second]

def withoutBase (baseCommit : Option String) : HashedDiff := ⟨.working, baseCommit, none, []⟩

theorem mergeSort_tied (first second : DiffFileChange)
    (tied : changeKey first.path first.oldPath = changeKey second.path second.oldPath) :
    [first, second].mergeSort changeBefore = [first, second] := by
  refine List.mergeSort_of_pairwise (List.pairwise_pair.mpr ?_)
  unfold changeBefore
  rw [tied]
  exact decide_eq_true le_rfl

/-- The order of tied changes shows, an empty commit does not, and neither does which of two
paths a tab belongs to. -/
theorem hashes_mislead :
    ((tiedDiff .added .modified).Same (tiedDiff .modified .added) ∧
      computeSummaryHash id (tiedDiff .added .modified) ≠
        computeSummaryHash id (tiedDiff .modified .added)) ∧
    (¬ (withoutBase none).Same (withoutBase (some "")) ∧
      computeSummaryHash id (withoutBase none) = computeSummaryHash id (withoutBase (some ""))) ∧
    (¬ (rangeDiff [changeOf "c" (some "a\tb") .renamed]).Same
        (rangeDiff [changeOf "b\tc" (some "a") .renamed]) ∧
      computeSummaryHash id (rangeDiff [changeOf "c" (some "a\tb") .renamed]) =
        computeSummaryHash id (rangeDiff [changeOf "b\tc" (some "a") .renamed])) := by
  refine ⟨⟨⟨rfl, rfl, rfl, List.Perm.swap _ _ _⟩, ?_⟩, ⟨?_, ?_⟩, ⟨?_, ?_⟩⟩
  · unfold computeSummaryHash normalizedDiff tiedDiff rangeDiff
    dsimp only
    rw [mergeSort_tied (changeOf "a.rs" none .added) (changeOf "a.rs" none .modified) rfl,
      mergeSort_tied (changeOf "a.rs" none .modified) (changeOf "a.rs" none .added) rfl]
    decide +kernel
  · rintro ⟨_, base, _⟩
    cases base
  · unfold computeSummaryHash normalizedDiff withoutBase
    dsimp only
    rw [List.mergeSort_nil]
    decide +kernel
  · rintro ⟨_, _, _, perm⟩
    have paths := List.perm_singleton.mp (perm.map ChangeFigures.path)
    exact absurd paths (by decide)
  · unfold computeSummaryHash normalizedDiff rangeDiff
    dsimp only
    rw [List.mergeSort_singleton, List.mergeSort_singleton]
    decide +kernel

end BrickTrace
