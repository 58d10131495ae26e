import BrickTrace.Core.BlameAttribution

/-!
# Lines credited to the working tree

The overlay credits an uncommitted line to the last working diff whenever a hunk of
that diff covers the line.  It does not ask whether the diff has been committed since.
-/

set_option autoImplicit false

namespace BrickTrace

open OrderedMap LastWrite

/-- The line lies in the new range of the hunk, as the overlay computes its end. -/
def DiffHunk.Covers (hunk : DiffHunk) (lineNo : UInt64) : Prop :=
  hunk.newLines ≠ 0 ∧ hunk.newStart ≤ lineNo ∧ lineNo ≤ hunk.newStart + hunk.newLines - 1

instance (hunk : DiffHunk) (lineNo : UInt64) : Decidable (hunk.Covers lineNo) :=
  inferInstanceAs (Decidable (_ ∧ _ ∧ _))

/-- No patch id that the diff recorded for the path is the one of a commit git reports. -/
def StillUncommitted (git : FileHistory) (relPath : String) (payload : DiffCapturedPayload) : Prop :=
  ∀ change ∈ payload.fileChanges, change.path = relPath →
    ∀ patchId, change.patchId = some patchId →
      ∀ lineNo commit, git.MapsTo lineNo commit → git.filePatchId commit ≠ some patchId

/-- The event is the last diff of the working tree that touches the path. -/
structure LastWorking (events : List TraceEvent) (relPath : String) (event : TraceEvent)
    (payload : DiffCapturedPayload) : Prop where
  last : IsLast (fun event => ∃ held, CapturesWorking relPath event held) events event
  captures : CapturesWorking relPath event payload

/-! ## What the overlay makes of a line -/

/-- The line once the hunks are laid over it. -/
def laid (git : FileHistory) (attr : Attribution) (hunks : List DiffHunk) (line : BlameLine) :
    BlameLine :=
  if git.uncommitted line.lineNo = true ∧ ∃ hunk ∈ hunks, hunk.Covers line.lineNo then
    line.applyAttr attr .working
  else line

section Overlay
variable {mode : OverflowMode} {git : FileHistory} {attr : Attribution} {relPath : String}
  {lines after : List BlameLine}

@[simp] theorem lineNo_applyAttr (line : BlameLine) (confidence : BlameConfidence) :
    (line.applyAttr attr confidence).lineNo = line.lineNo := rfl

theorem map_laid_nil : lines.map (laid git attr []) = lines := by
  have kept : laid git attr [] = id := funext fun line => by simp [laid]
  rw [kept, List.map_id]

theorem laid_append (first second : List DiffHunk) (line : BlameLine) :
    laid git attr (first ++ second) line = laid git attr second (laid git attr first line) := by
  by_cases open' : git.uncommitted line.lineNo = true
  · by_cases early : ∃ hunk ∈ first, hunk.Covers line.lineNo
    · by_cases late : ∃ hunk ∈ second, hunk.Covers line.lineNo
      · simp [laid, open', early, late, List.mem_append, or_and_right, exists_or,
          BlameLine.applyAttr]
      · simp [laid, open', early, late, List.mem_append, or_and_right, exists_or]
    · simp [laid, open', early, List.mem_append, or_and_right, exists_or]
  · simp [laid, open']

theorem addU64_of_ok {left right sum : UInt64} (added : addU64 mode left right = .ok sum) :
    sum = left + right := by
  unfold addU64 at added
  cases mode with
  | wrapping => exact (Except.ok.inj added).symm
  | checked =>
      dsimp only at added
      split at added
      · exact (Except.ok.inj added).symm
      · cases added

theorem overlayHunk_eq {hunk : DiffHunk}
    (done : overlayHunk mode git attr lines hunk = .ok after) :
    after = lines.map (laid git attr [hunk]) := by
  unfold overlayHunk at done
  by_cases empty : hunk.newLines = 0
  · rw [if_pos empty] at done
    cases done
    have kept : laid git attr [hunk] = id :=
      funext fun line => by simp [laid, DiffHunk.Covers, empty]
    rw [kept, List.map_id]
  · rw [if_neg empty] at done
    obtain ⟨sum, added, rest⟩ := Fallible.bind_eq_ok_iff.mp done
    cases rest
    apply List.map_congr_left
    intro line _
    simp [laid, DiffHunk.Covers, empty, addU64_of_ok added]

theorem overlayHunks_eq {hunks : List DiffHunk}
    (done : hunks.foldlM (overlayHunk mode git attr) lines = .ok after) :
    after = lines.map (laid git attr hunks) := by
  induction hunks generalizing lines with
  | nil =>
      cases done
      exact map_laid_nil.symm
  | cons hunk rest ih =>
      rw [List.foldlM_cons] at done
      obtain ⟨next, first, others⟩ := Fallible.bind_eq_ok_iff.mp done
      rw [ih others, overlayHunk_eq first, List.map_map]
      apply List.map_congr_left
      intro line _
      exact (laid_append [hunk] rest line).symm

theorem overlayChanges_eq {changes : List DiffFileChange}
    (done : changes.foldlM
      (fun lines change => change.hunks.foldlM (overlayHunk mode git attr) lines) lines =
        .ok after) :
    after = lines.map (laid git attr (changes.flatMap DiffFileChange.hunks)) := by
  induction changes generalizing lines with
  | nil =>
      cases done
      exact map_laid_nil.symm
  | cons change rest ih =>
      rw [List.foldlM_cons] at done
      obtain ⟨next, first, others⟩ := Fallible.bind_eq_ok_iff.mp done
      rw [ih others, overlayHunks_eq first, List.map_map]
      apply List.map_congr_left
      intro line _
      exact (laid_append change.hunks _ line).symm

end Overlay

/-! ## The lines of the file -/

section File
variable (mode : OverflowMode) (rfc3339 : DateTime → String) (events : List TraceEvent)
  (lineCount : UInt64) (git : FileHistory) (relPath : String)

/-- Every line credited to the working tree is credited to a diff that is uncommitted still. -/
def WorkingLinesUncommitted : Prop :=
  ∀ lines, blameFile mode rfc3339 events lineCount git relPath = .ok lines →
    ∀ line ∈ lines, line.confidence = .working →
      ∃ event payload, LastWorking events relPath event payload ∧ Carries line event ∧
        StillUncommitted git relPath payload

/-- Some uncommitted line of the file lies in a hunk that the diff has for the path. -/
def CoversUncommitted (payload : DiffCapturedPayload) : Prop :=
  ∃ lineNo ∈ lineNumbers lineCount, git.uncommitted lineNo = true ∧
    ∃ change ∈ payload.fileChanges, change.path = relPath ∧
      ∃ hunk ∈ change.hunks, hunk.Covers lineNo

variable {mode rfc3339 events lineCount git relPath}

theorem LastWorking.unique {event other : TraceEvent} {payload held : DiffCapturedPayload}
    (one : LastWorking events relPath event payload)
    (another : LastWorking events relPath other held) : event = other ∧ payload = held := by
  have same := one.last.unique another.last
  subst same
  have decoded := one.captures.2.1.symm.trans another.captures.2.1
  exact ⟨rfl, Option.some.inj decoded⟩

theorem latestWorking_eq_some_iff {attr : Attribution} {payload : DiffCapturedPayload} :
    (capturedDiffs rfc3339 events relPath).latestWorking = some (attr, payload) ↔
      ∃ event, LastWorking events relPath event payload ∧ attributionOf rfc3339 event = attr := by
  rw [capturedDiffs_latestWorking]
  apply exists_congr
  intro event
  constructor
  · rintro ⟨last, captures, same⟩
    exact ⟨⟨last, captures⟩, same⟩
  · rintro ⟨⟨last, captures⟩, same⟩
    exact ⟨last, captures, same⟩

/-- The lines that the first loop leaves for the overlay. -/
theorem committed_lines (git : FileHistory) (lineCount : UInt64)
    (patchToAttr : Map String Attribution) :
    (blameLines git patchToAttr ∅ (lineNumbers lineCount)).map BlameLine.lineNo =
        lineNumbers lineCount ∧
      ∀ line ∈ blameLines git patchToAttr ∅ (lineNumbers lineCount),
        line.confidence ≠ .working := by
  have start : PatchIdsTrue git ∅ := fun commit patchId held => by simp at held
  have blamed := blameLines_spec patchToAttr start (lineNumbers lineCount)
  constructor
  · have same : List.Forall₂ (fun line lineNo => line.lineNo = lineNo)
        (blameLines git patchToAttr ∅ (lineNumbers lineCount)) (lineNumbers lineCount) := by
      refine (blamed.imp fun lineNo line spec => ?_).flip
      cases spec with
      | uncommitted => rfl
      | unattributed => rfl
      | attributed => rfl
    rw [← List.forall₂_map_left_iff (f := BlameLine.lineNo), List.forall₂_eq_eq_eq] at same
    exact same
  · intro line member working
    obtain ⟨lineNo, -, spec⟩ := Fallible.exists_of_mem_right blamed member
    cases spec with
    | uncommitted => cases working
    | unattributed => cases working
    | attributed => cases working

theorem blameFile_of_ok {lines : List BlameLine}
    (done : blameFile mode rfc3339 events lineCount git relPath = .ok lines) :
    lines = blameLines git (capturedDiffs rfc3339 events relPath).patchToAttr ∅
        (lineNumbers lineCount) ∨
      ∃ event payload, LastWorking events relPath event payload ∧
        lines = (blameLines git (capturedDiffs rfc3339 events relPath).patchToAttr ∅
          (lineNumbers lineCount)).map (laid git (attributionOf rfc3339 event)
            ((payload.changesOf relPath).flatMap DiffFileChange.hunks)) := by
  simp only [blameFile] at done
  cases found : (capturedDiffs rfc3339 events relPath).latestWorking with
  | none =>
      rw [found] at done
      cases done
      exact Or.inl rfl
  | some working =>
      obtain ⟨attr, payload⟩ := working
      obtain ⟨event, last, rfl⟩ := latestWorking_eq_some_iff.mp found
      rw [found] at done
      exact Or.inr ⟨event, payload, last, overlayChanges_eq done⟩

/-- A line of the result is credited to the last working diff exactly where git reports an
uncommitted line in a hunk of that diff. -/
theorem exists_working_line_iff {lines : List BlameLine} {event : TraceEvent}
    {payload : DiffCapturedPayload} (last : LastWorking events relPath event payload)
    (done : blameFile mode rfc3339 events lineCount git relPath = .ok lines) :
    (∃ line ∈ lines, line.confidence = .working) ↔
      CoversUncommitted lineCount git relPath payload := by
  obtain ⟨numbers, unmarked⟩ := committed_lines git lineCount
    (capturedDiffs rfc3339 events relPath).patchToAttr
  have latest : (capturedDiffs rfc3339 events relPath).latestWorking =
      some (attributionOf rfc3339 event, payload) :=
    latestWorking_eq_some_iff.mpr ⟨event, last, rfl⟩
  simp only [blameFile] at done
  rw [latest] at done
  have result := overlayChanges_eq done
  subst result
  simp only [List.mem_map, exists_exists_and_eq_and]
  have covered : ∀ lineNo, (∃ hunk ∈ (payload.changesOf relPath).flatMap DiffFileChange.hunks,
        hunk.Covers lineNo) ↔
      ∃ change ∈ payload.fileChanges, change.path = relPath ∧
        ∃ hunk ∈ change.hunks, hunk.Covers lineNo := by
    intro lineNo
    simp only [List.mem_flatMap, DiffCapturedPayload.changesOf, List.mem_filter,
      decide_eq_true_eq]
    constructor
    · rintro ⟨hunk, ⟨change, ⟨member, path⟩, inside⟩, covers⟩
      exact ⟨change, member, path, hunk, inside, covers⟩
    · rintro ⟨change, member, path, hunk, inside, covers⟩
      exact ⟨hunk, ⟨change, ⟨member, path⟩, inside⟩, covers⟩
  constructor
  · rintro ⟨line, member, working⟩
    have number : line.lineNo ∈ lineNumbers lineCount := by
      rw [← numbers]
      exact List.mem_map_of_mem member
    unfold laid at working
    split at working
    · rename_i marked
      exact ⟨line.lineNo, number, marked.1, (covered _).mp marked.2⟩
    · exact absurd working (unmarked line member)
  · rintro ⟨lineNo, member, open', covers⟩
    rw [← numbers] at member
    obtain ⟨line, inside, rfl⟩ := List.mem_map.mp member
    refine ⟨line, inside, ?_⟩
    rw [laid, if_pos ⟨open', (covered _).mpr covers⟩]
    rfl

theorem carries_of_working {lines : List BlameLine}
    (done : blameFile mode rfc3339 events lineCount git relPath = .ok lines)
    {line : BlameLine} (member : line ∈ lines) (working : line.confidence = .working) :
    ∃ event payload, LastWorking events relPath event payload ∧ Carries line event := by
  have unmarked := (committed_lines git lineCount
    (capturedDiffs rfc3339 events relPath).patchToAttr).2
  rcases blameFile_of_ok done with rfl | ⟨event, payload, last, rfl⟩
  · exact absurd working (unmarked line member)
  · obtain ⟨before, inside, rfl⟩ := List.mem_map.mp member
    refine ⟨event, payload, last, ?_⟩
    unfold laid at working ⊢
    split at working
    · rename_i marked
      rw [if_pos marked]
      exact ⟨rfl, rfl, rfl, rfl, rfl⟩
    · exact absurd working (unmarked before inside)

theorem blameFile_ok_iff :
    (∃ lines, blameFile mode rfc3339 events lineCount git relPath = .ok lines) ↔
      mode = .wrapping ∨ HunksFit events relPath := by
  rw [← hunksFit_iff rfc3339, ← overlayWorking_ok_iff]
  rfl

/-- The last working diff is credited with lines wherever it covers an uncommitted one, so it
must be uncommitted itself there. -/
theorem working_lines_uncommitted_iff (mode : OverflowMode) (rfc3339 : DateTime → String)
    (events : List TraceEvent) (lineCount : UInt64) (git : FileHistory) (relPath : String) :
    WorkingLinesUncommitted mode rfc3339 events lineCount git relPath ↔
      ∀ event payload, LastWorking events relPath event payload →
        StillUncommitted git relPath payload ∨ ¬ CoversUncommitted lineCount git relPath payload ∨
          (mode = .checked ∧ ¬ HunksFit events relPath) := by
  have checked_iff : mode = .checked ↔ ¬ mode = .wrapping := by
    cases mode with
    | checked => simp
    | wrapping => simp
  constructor
  · intro uncommitted event payload last
    by_cases fits : mode = .wrapping ∨ HunksFit events relPath
    · obtain ⟨lines, done⟩ := blameFile_ok_iff.mpr fits
      by_cases covers : CoversUncommitted lineCount git relPath payload
      · obtain ⟨line, member, working⟩ := (exists_working_line_iff last done).mpr covers
        obtain ⟨_, _, other, -, still⟩ := uncommitted lines done line member working
        obtain ⟨-, rfl⟩ := last.unique other
        exact Or.inl still
      · exact Or.inr (Or.inl covers)
    · rw [not_or, ← checked_iff] at fits
      exact Or.inr (Or.inr fits)
  · intro condition lines done line member working
    obtain ⟨event, payload, last, carries⟩ := carries_of_working done member working
    refine ⟨event, payload, last, carries, ?_⟩
    rcases condition event payload last with still | uncovered | ⟨checks, overflows⟩
    · exact still
    · exact absurd ((exists_working_line_iff last done).mp ⟨line, member, working⟩) uncovered
    · rcases blameFile_ok_iff.mp ⟨lines, done⟩ with wraps | fits
      · rw [wraps] at checks
        cases checks
      · exact absurd fits overflows

end File

/-! ## A diff committed since, and a line edited after that -/

/-- A working diff of the first two lines of a file, under a patch id. -/
def diffUnderPatchId : TraceEvent where
  eventId := ⟨1⟩
  eventType := .diffCaptured
  schemaVersion := 1
  payloadSchemaVersion := 1
  occurredAt := ⟨0⟩
  recordedAt := ⟨0⟩
  actor := ⟨.agent, "agent-1", none⟩
  repoId := none
  orgId := none
  projectId := none
  missionId := none
  sessionId := some ⟨"session_1"⟩
  artifactId := some ⟨"artifact_1"⟩
  repoContextId := none
  confidence := .explicit
  payload := .object [("diff_target", .string "working"), ("summary_hash", .string "abc123"),
    ("file_changes", .array [.object [("path", .string "src/lib.rs"),
      ("change_kind", .string "modified"), ("hunks", .array [.object [
        ("old_start", Json.encodeU64 1),
        ("old_lines", Json.encodeU64 2), ("new_start", Json.encodeU64 1),
        ("new_lines", Json.encodeU64 2)]]),
      ("patch_id", .string "3f2a9c417be05d86e1c4a7b2903fd8e651b0c9a4")]])]

/-- The diff is committed, and the second line was edited after the commit. -/
def editedAfterCommit : FileHistory where
  lineCommits := some ((∅ : Map UInt64 String)
    |>.insert 1 "9d41c07e5ab2f6803c7e19d4ab50f2e86c3b7d10"
    |>.insert 2 "0000000000000000000000000000000000000000")
  filePatchId commit :=
    if commit = "9d41c07e5ab2f6803c7e19d4ab50f2e86c3b7d10" then
      some "3f2a9c417be05d86e1c4a7b2903fd8e651b0c9a4"
    else none

theorem edited_line_credited_to_committed_diff :
    ¬ ∀ (mode : OverflowMode) (rfc3339 : DateTime → String) (events : List TraceEvent)
        (lineCount : UInt64) (git : FileHistory) (relPath : String),
      WorkingLinesUncommitted mode rfc3339 events lineCount git relPath := by
  intro claim
  have confidences : (blameFile .wrapping (fun _ => "") [diffUnderPatchId] 2 editedAfterCommit
      "src/lib.rs").map (·.map BlameLine.confidence) = .ok [.commit, .working] := by
    decide +kernel
  obtain ⟨lines, ran, marks⟩ := Fallible.map_eq_ok_iff.mp confidences
  have member : BlameConfidence.working ∈ lines.map BlameLine.confidence := by
    rw [marks]
    decide
  obtain ⟨line, inside, working⟩ := List.mem_map.mp member
  obtain ⟨event, payload, last, -, still⟩ :=
    claim .wrapping (fun _ => "") [diffUnderPatchId] 2 editedAfterCommit "src/lib.rs" lines ran line
      inside working
  obtain rfl := List.mem_singleton.mp last.last.mem
  obtain ⟨change, recorded, path, patchId⟩ : ∃ change ∈ payload.fileChanges,
      change.path = "src/lib.rs" ∧
        change.patchId = some "3f2a9c417be05d86e1c4a7b2903fd8e651b0c9a4" := by
    have decoded := last.captures.2.1
    cases decoded
    exact ⟨_, List.mem_cons_self, rfl, rfl⟩
  refine still change recorded path _ patchId 1 "9d41c07e5ab2f6803c7e19d4ab50f2e86c3b7d10" ⟨?_, ?_⟩ ?_
  · decide +kernel
  · decide +kernel
  · decide +kernel

end BrickTrace
