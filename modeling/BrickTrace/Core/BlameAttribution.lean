import BrickTrace.Core.Blame

/-!
# Who a line is blamed on

The patch ids of the log end with the last diff that recorded them, the cache of
patch ids never answers otherwise than git, and the overlay leaves alone what git maps
to a commit.  The ends of the hunks are the only additions that can overflow.
-/

set_option autoImplicit false

namespace BrickTrace

open OrderedMap LastWrite

/-- The event is a diff captured with the patch id on a change of exactly the path. -/
def Records (relPath patchId : String) (event : TraceEvent) : Prop :=
  event.eventType = .diffCaptured ∧
    ∃ payload, DiffCapturedPayload.decode event.payload = some payload ∧
      ∃ change ∈ payload.fileChanges, change.path = relPath ∧ change.patchId = some patchId

/-- The event is a diff of the working tree that touches the path. -/
def CapturesWorking (relPath : String) (event : TraceEvent) (payload : DiffCapturedPayload) :
    Prop :=
  event.eventType = .diffCaptured ∧ DiffCapturedPayload.decode event.payload = some payload ∧
    (∃ change ∈ payload.fileChanges, change.path = relPath) ∧ payload.diffTarget = .working

/-! ## What the log leaves recorded -/

section Capture
variable {rfc3339 : DateTime → String} {relPath patchId : String}

theorem collectDiff_eq_some_iff {event : TraceEvent} {diff : TraceEvent × DiffCapturedPayload} :
    collectDiff relPath event = some diff ↔
      event.eventType = .diffCaptured ∧ DiffCapturedPayload.decode event.payload = some diff.2 ∧
        (∃ change ∈ diff.2.fileChanges, change.path = relPath) ∧ event = diff.1 := by
  obtain ⟨origin, held⟩ := diff
  unfold collectDiff
  by_cases type : event.eventType = .diffCaptured
  · cases decoded : DiffCapturedPayload.decode event.payload with
    | none => simp [type]
    | some payload =>
        by_cases touches : ∃ change ∈ payload.fileChanges, change.path = relPath
        · simp only [type, ne_eq, not_true_eq_false, if_false, List.any_eq_true, decide_eq_true_eq,
            touches, if_true, Option.some.injEq, Prod.mk.injEq, true_and]
          constructor
          · rintro ⟨rfl, rfl⟩
            exact ⟨rfl, touches, rfl⟩
          · rintro ⟨rfl, -, rfl⟩
            exact ⟨rfl, rfl⟩
        · simp only [type, ne_eq, not_true_eq_false, if_false, List.any_eq_true, decide_eq_true_eq,
            touches, Option.some.injEq, true_and, reduceCtorEq, false_iff]
          rintro ⟨rfl, touched, -⟩
          exact touches touched
  · simp [type]

theorem getElem?_recordPatchIds (attr : Attribution) (patchToAttr : Map String Attribution)
    (changes : List DiffFileChange) :
    (changes.foldl (recordPatchId attr) patchToAttr)[patchId]? =
      if ∃ change ∈ changes, change.patchId = some patchId then some attr
      else patchToAttr[patchId]? := by
  induction changes generalizing patchToAttr with
  | nil => simp
  | cons change rest ih =>
      have recorded : (recordPatchId attr patchToAttr change)[patchId]? =
          if change.patchId = some patchId then some attr else patchToAttr[patchId]? := by
        unfold recordPatchId
        cases found : change.patchId with
        | none => simp
        | some own => simp [getElem?_insert_eq]
      rw [List.foldl_cons, ih, recorded]
      by_cases later : ∃ change ∈ rest, change.patchId = some patchId
      · simp [later]
      · simp [later]

/-- What a captured diff writes under the patch id. -/
def patchWrite (rfc3339 : DateTime → String) (relPath patchId : String)
    (diff : TraceEvent × DiffCapturedPayload) : Option Attribution :=
  if ∃ change ∈ diff.2.changesOf relPath, change.patchId = some patchId then
    some (attributionOf rfc3339 diff.1)
  else none

def workingWrite (rfc3339 : DateTime → String) (diff : TraceEvent × DiffCapturedPayload) :
    Option (Attribution × DiffCapturedPayload) :=
  if diff.2.diffTarget = .working then some (attributionOf rfc3339 diff.1, diff.2) else none

theorem captureDiff_patchToAttr (rfc3339 : DateTime → String) (relPath patchId : String)
    (captured : CapturedDiffs)
    (diff : TraceEvent × DiffCapturedPayload) :
    (captureDiff rfc3339 relPath captured diff).patchToAttr[patchId]? =
      (patchWrite rfc3339 relPath patchId diff).or captured.patchToAttr[patchId]? := by
  dsimp only [captureDiff]
  rw [getElem?_recordPatchIds, patchWrite]
  split
  · rfl
  · rfl

theorem captureDiff_latestWorking (captured : CapturedDiffs)
    (diff : TraceEvent × DiffCapturedPayload) :
    (captureDiff rfc3339 relPath captured diff).latestWorking =
      (workingWrite rfc3339 diff).or captured.latestWorking := by
  dsimp only [captureDiff]
  rw [workingWrite]
  split
  · rfl
  · rfl

theorem collected_patchWrite_iff {event : TraceEvent} {attr : Attribution} :
    (collectDiff relPath event).bind (patchWrite rfc3339 relPath patchId) = some attr ↔
      Records relPath patchId event ∧ attributionOf rfc3339 event = attr := by
  simp only [Option.bind_eq_some_iff, collectDiff_eq_some_iff, patchWrite]
  constructor
  · rintro ⟨⟨origin, payload⟩, ⟨type, decoded, -, rfl⟩, wrote⟩
    split at wrote
    · rename_i recorded
      obtain ⟨change, member, own⟩ := recorded
      obtain ⟨isChange, path⟩ := List.mem_filter.mp member
      refine ⟨⟨type, payload, decoded, change, isChange, of_decide_eq_true path, own⟩, ?_⟩
      exact Option.some.inj wrote
    · cases wrote
  · rintro ⟨⟨type, payload, decoded, change, isChange, path, own⟩, rfl⟩
    refine ⟨(event, payload), ⟨type, decoded, ⟨change, isChange, path⟩, rfl⟩, if_pos ?_⟩
    exact ⟨change, List.mem_filter.mpr ⟨isChange, decide_eq_true path⟩, own⟩

theorem collected_workingWrite_iff {event : TraceEvent} {attr : Attribution}
    {payload : DiffCapturedPayload} :
    (collectDiff relPath event).bind (workingWrite rfc3339) = some (attr, payload) ↔
      CapturesWorking relPath event payload ∧ attributionOf rfc3339 event = attr := by
  simp only [Option.bind_eq_some_iff, collectDiff_eq_some_iff, workingWrite]
  constructor
  · rintro ⟨⟨origin, held⟩, ⟨type, decoded, touches, rfl⟩, wrote⟩
    split at wrote
    · rename_i target
      cases wrote
      exact ⟨⟨type, decoded, touches, target⟩, rfl⟩
    · cases wrote
  · rintro ⟨⟨type, decoded, touches, target⟩, rfl⟩
    exact ⟨(event, payload), ⟨type, decoded, touches, rfl⟩, if_pos target⟩

/-- The last write of the captured diffs is made of the last event that is one to be written. -/
theorem lastWrite_collectDiffEvents_iff {writer : TraceEvent → Prop}
    {write : TraceEvent × DiffCapturedPayload → Option Attribution}
    (writes : ∀ event attr, (collectDiff relPath event).bind write = some attr ↔
      writer event ∧ attributionOf rfc3339 event = attr)
    {events : List TraceEvent} {attr : Attribution} :
    lastWrite write (collectDiffEvents events relPath) = some attr ↔
      ∃ event, IsLast writer events event ∧ attributionOf rfc3339 event = attr := by
  have recorded : ∀ event, ((collectDiff relPath event).bind write).isSome ↔ writer event := by
    intro event
    simp [Option.isSome_iff_exists, writes]
  rw [collectDiffEvents, lastWrite_filterMap, lastWrite_eq_some_iff]
  apply exists_congr
  intro event
  rw [isLast_congr recorded, writes]
  constructor
  · rintro ⟨last, -, attributed⟩
    exact ⟨last, attributed⟩
  · rintro ⟨last, attributed⟩
    exact ⟨last, ⟨last.writer, attributed⟩⟩

theorem capturedDiffs_patchToAttr {events : List TraceEvent} {attr : Attribution} :
    (capturedDiffs rfc3339 events relPath).patchToAttr[patchId]? = some attr ↔
      ∃ event, IsLast (Records relPath patchId) events event ∧
        attributionOf rfc3339 event = attr := by
  have read : (capturedDiffs rfc3339 events relPath).patchToAttr[patchId]? =
      lastWrite (patchWrite rfc3339 relPath patchId) (collectDiffEvents events relPath) := by
    have written := view_foldl (fun captured : CapturedDiffs => captured.patchToAttr[patchId]?)
      (captureDiff_patchToAttr rfc3339 relPath patchId) (collectDiffEvents events relPath) ⟨∅, none⟩
    exact written.trans (by simp)
  rw [read]
  exact lastWrite_collectDiffEvents_iff fun _ _ => collected_patchWrite_iff

theorem capturedDiffs_latestWorking {events : List TraceEvent} {attr : Attribution}
    {payload : DiffCapturedPayload} :
    (capturedDiffs rfc3339 events relPath).latestWorking = some (attr, payload) ↔
      ∃ event, IsLast (fun event => ∃ held, CapturesWorking relPath event held) events event ∧
        CapturesWorking relPath event payload ∧ attributionOf rfc3339 event = attr := by
  have working : ∀ event, ((collectDiff relPath event).bind (workingWrite rfc3339)).isSome ↔
      ∃ held, CapturesWorking relPath event held := by
    intro event
    simp [Option.isSome_iff_exists, collected_workingWrite_iff]
  have read : (capturedDiffs rfc3339 events relPath).latestWorking =
      lastWrite (workingWrite rfc3339) (collectDiffEvents events relPath) :=
    (view_foldl CapturedDiffs.latestWorking captureDiff_latestWorking _ _).trans (by simp)
  rw [read, collectDiffEvents, lastWrite_filterMap, lastWrite_eq_some_iff]
  apply exists_congr
  intro event
  rw [isLast_congr working, collected_workingWrite_iff]

end Capture

/-! ## What git maps a line to -/

/-- Git maps the line to a commit that is not the all-zero one. -/
def FileHistory.MapsTo (git : FileHistory) (lineNo : UInt64) (commit : String) : Prop :=
  git.blameCommits[lineNo]? = some commit ∧ isZeroSha commit = false

theorem FileHistory.MapsTo.committed {git : FileHistory} {lineNo : UInt64} {commit : String}
    (maps : git.MapsTo lineNo commit) : git.uncommitted lineNo = false := by
  simp [uncommitted, maps.1, maps.2]

theorem FileHistory.MapsTo.unique {git : FileHistory} {lineNo : UInt64} {commit other : String}
    (maps : git.MapsTo lineNo commit) (mapsOther : git.MapsTo lineNo other) : commit = other :=
  Option.some.inj (maps.1.symm.trans mapsOther.1)

/-! ## Committed lines -/

theorem lineNumbers_toNat (lineCount : UInt64) :
    (lineNumbers lineCount).map UInt64.toNat = List.range' 1 lineCount.toNat := by
  have small := lineCount.toNat_lt
  rw [lineNumbers, List.map_map, List.range'_eq_map_range]
  apply List.map_congr_left
  intro index member
  have below := List.mem_range.mp member
  have fits : index + 1 < 2 ^ 64 := by omega
  rw [Function.comp_apply, UInt64.toNat_ofNat', Nat.mod_eq_of_lt fits, Nat.add_comm]

section Committed
variable {git : FileHistory} {patchToAttr : Map String Attribution}
  {commitPatchIds : CommitPatchIds}

/-- The kept patch ids are the ones git gives. -/
def PatchIdsTrue (git : FileHistory) (commitPatchIds : CommitPatchIds) : Prop :=
  ∀ commit patchId, commitPatchIds[commit]? = some patchId → patchId = git.filePatchId commit

theorem patchIdOf_fst (kept : PatchIdsTrue git commitPatchIds) (commit : String) :
    (patchIdOf git commitPatchIds commit).1 = git.filePatchId commit := by
  unfold patchIdOf
  cases found : commitPatchIds[commit]? with
  | none => rfl
  | some patchId => exact kept commit patchId found

theorem PatchIdsTrue.patchIdOf (kept : PatchIdsTrue git commitPatchIds) (commit : String) :
    PatchIdsTrue git (patchIdOf git commitPatchIds commit).2 := by
  unfold BrickTrace.patchIdOf
  cases found : commitPatchIds[commit]? with
  | some patchId => exact kept
  | none =>
      intro other patchId held
      dsimp only at held
      rw [getElem?_insert_eq] at held
      split at held
      · rename_i same
        cases held
        rw [same]
      · exact kept other patchId held

/-- What the first loop may make of a line. -/
inductive CommitBlamed (git : FileHistory) (patchToAttr : Map String Attribution)
    (lineNo : UInt64) : BlameLine → Prop where
  | uncommitted : git.uncommitted lineNo = true → CommitBlamed git patchToAttr lineNo (blankLine lineNo)
  | unattributed {commit : String} : git.MapsTo lineNo commit →
      (git.filePatchId commit).bind (patchToAttr[·]?) = none →
      CommitBlamed git patchToAttr lineNo { blankLine lineNo with commit := some commit }
  | attributed {commit : String} {attr : Attribution} : git.MapsTo lineNo commit →
      (git.filePatchId commit).bind (patchToAttr[·]?) = some attr →
      CommitBlamed git patchToAttr lineNo
        ({ blankLine lineNo with commit := some commit }.applyAttr attr .commit)

theorem blameLine_spec (patchToAttr : Map String Attribution)
    (kept : PatchIdsTrue git commitPatchIds) (lineNo : UInt64) :
    CommitBlamed git patchToAttr lineNo (blameLine git patchToAttr commitPatchIds lineNo).1 ∧
      PatchIdsTrue git (blameLine git patchToAttr commitPatchIds lineNo).2 := by
  unfold blameLine
  cases found : git.blameCommits[lineNo]? with
  | none => exact ⟨.uncommitted (by simp [FileHistory.uncommitted, found]), kept⟩
  | some commit =>
      cases zero : isZeroSha commit with
      | true =>
          simp only [zero, if_true]
          exact ⟨.uncommitted (by simp [FileHistory.uncommitted, found, zero]), kept⟩
      | false =>
          have asked := patchIdOf_fst kept commit
          have still := kept.patchIdOf commit
          have maps : git.MapsTo lineNo commit := ⟨found, zero⟩
          simp only [zero, Bool.false_eq_true, if_false, asked]
          cases recorded : (git.filePatchId commit).bind (patchToAttr[·]?) with
          | none => exact ⟨.unattributed maps recorded, still⟩
          | some attr => exact ⟨.attributed maps recorded, still⟩

theorem blameLines_spec (patchToAttr : Map String Attribution)
    (kept : PatchIdsTrue git commitPatchIds) (lineNumbers : List UInt64) :
    List.Forall₂ (CommitBlamed git patchToAttr) lineNumbers
      (blameLines git patchToAttr commitPatchIds lineNumbers) := by
  induction lineNumbers generalizing commitPatchIds with
  | nil => exact .nil
  | cons lineNo rest ih =>
      have spec := blameLine_spec patchToAttr kept lineNo
      exact .cons spec.1 (ih spec.2)

end Committed

/-! ## The overlay -/

/-- What the overlay may make of a line. -/
def Overlaid (git : FileHistory) (before after : BlameLine) : Prop :=
  after = before ∨
    (git.uncommitted before.lineNo = true ∧ ∃ attr, after = before.applyAttr attr .working)

theorem Overlaid.trans {git : FileHistory} {first second third : BlameLine}
    (left : Overlaid git first second) (right : Overlaid git second third) :
    Overlaid git first third := by
  rcases left with rfl | ⟨uncommitted, attr, rfl⟩
  · exact right
  · rcases right with rfl | ⟨-, last, rfl⟩
    · exact .inr ⟨uncommitted, attr, rfl⟩
    · exact .inr ⟨uncommitted, last, rfl⟩

section Overlay
variable {mode : OverflowMode} {git : FileHistory} {attr : Attribution} {relPath : String}
  {lines after : List BlameLine}

theorem overlayHunk_spec {hunk : DiffHunk} {first : List BlameLine}
    (soFar : List.Forall₂ (Overlaid git) first lines)
    (laid : overlayHunk mode git attr lines hunk = .ok after) :
    List.Forall₂ (Overlaid git) first after := by
  unfold overlayHunk at laid
  split at laid
  · cases laid
    exact soFar
  · obtain ⟨sum, -, rest⟩ := Fallible.bind_eq_ok_iff.mp laid
    cases rest
    rw [List.forall₂_map_right_iff]
    refine soFar.imp fun before line overlaid => overlaid.trans ?_
    split
    · rename_i covered
      exact .inr ⟨covered.1, attr, rfl⟩
    · exact .inl rfl

theorem overlayWorking_spec {latest : Option (Attribution × DiffCapturedPayload)}
    (laid : overlayWorking mode git relPath latest lines = .ok after) :
    List.Forall₂ (Overlaid git) lines after := by
  have start : List.Forall₂ (Overlaid git) lines lines :=
    List.forall₂_same.mpr fun _ _ => .inl rfl
  cases latest with
  | none =>
      cases laid
      exact start
  | some working =>
      refine Fallible.foldlM_invariant ?_ start laid
      intro state change next soFar changed
      exact Fallible.foldlM_invariant (fun _ _ _ => overlayHunk_spec) soFar changed

/-- The end of the hunk is computed without overflow. -/
def HunkFits (hunk : DiffHunk) : Prop :=
  hunk.newLines = 0 ∨ hunk.newStart.toNat + hunk.newLines.toNat < UInt64.size

theorem overlayHunk_ok_iff {hunk : DiffHunk} :
    (∃ next, overlayHunk mode git attr lines hunk = .ok next) ↔
      mode = .wrapping ∨ HunkFits hunk := by
  unfold overlayHunk HunkFits addU64
  by_cases empty : hunk.newLines = 0
  · simp [empty, pure, Except.pure]
  · cases mode with
    | wrapping => simp [empty, bind, Except.bind, pure, Except.pure]
    | checked =>
        by_cases fits : hunk.newStart.toNat + hunk.newLines.toNat < UInt64.size
        · simp [empty, fits, bind, Except.bind, pure, Except.pure]
        · simp [empty, fits, bind, Except.bind]

theorem overlayWorking_ok_iff {latest : Option (Attribution × DiffCapturedPayload)} :
    (∃ next, overlayWorking mode git relPath latest lines = .ok next) ↔
      ∀ working ∈ latest, ∀ change ∈ working.2.changesOf relPath, ∀ hunk ∈ change.hunks,
        mode = .wrapping ∨ HunkFits hunk := by
  cases latest with
  | none => simp [overlayWorking, pure, Except.pure]
  | some working =>
      obtain ⟨attr, payload⟩ := working
      simp only [overlayWorking, Option.mem_def, Option.some.injEq, forall_eq']
      apply Fallible.foldlM_ok_iff
        fun change : DiffFileChange => ∀ hunk ∈ change.hunks, mode = .wrapping ∨ HunkFits hunk
      intro state change
      exact Fallible.foldlM_ok_iff (fun hunk => mode = .wrapping ∨ HunkFits hunk)
        fun _ _ => overlayHunk_ok_iff

end Overlay

/-! ## The whole file -/

section File
variable (rfc3339 : DateTime → String) (events : List TraceEvent) (lineCount : UInt64)
  (git : FileHistory) (relPath : String)

/-- The line carries what the event says of its session, actor, mission and identity. -/
structure Carries (line : BlameLine) (event : TraceEvent) : Prop where
  session : line.sessionId = event.sessionId.map TraceId.text
  actorType : line.actorType = some event.actor.actorType.debugName.toLower
  actorId : line.actorId = some event.actor.actorId
  mission : line.missionId = event.missionId.map TraceId.text
  event : line.sourceEventId = some event.eventId.text

/-- A file as it is to be blamed.  `committed` is what the lines are before the overlay. -/
structure BlamesFile (committed lines : List BlameLine) : Prop where
  numbered : lines.map (·.lineNo.toNat) = List.range' 1 lineCount.toNat
  commitIff : ∀ line ∈ lines, line.confidence = .commit ↔
    ∃ commit patchId, git.MapsTo line.lineNo commit ∧ git.filePatchId commit = some patchId ∧
      ∃ event ∈ events, Records relPath patchId event
  carries : ∀ line ∈ lines, line.confidence = .commit →
    ∃ commit patchId event, git.MapsTo line.lineNo commit ∧
      git.filePatchId commit = some patchId ∧ IsLast (Records relPath patchId) events event ∧
        Carries line event
  overlayKeeps : List.Forall₂
    (fun before after => ∀ commit, git.MapsTo before.lineNo commit → after = before) committed lines

/-- No hunk of the last working diff on the path ends beyond the largest line number. -/
def HunksFit : Prop :=
  ∀ event payload, IsLast (fun event => ∃ held, CapturesWorking relPath event held) events event →
    CapturesWorking relPath event payload → ∀ change ∈ payload.fileChanges, change.path = relPath →
      ∀ hunk ∈ change.hunks, HunkFits hunk

variable {rfc3339 events lineCount git relPath}

theorem commitBlamed_recorded_iff {lineNo : UInt64} {attr : Attribution} :
    (∃ commit, git.MapsTo lineNo commit ∧ (git.filePatchId commit).bind
        ((capturedDiffs rfc3339 events relPath).patchToAttr[·]?) = some attr) ↔
      ∃ commit patchId event, git.MapsTo lineNo commit ∧ git.filePatchId commit = some patchId ∧
        IsLast (Records relPath patchId) events event ∧ attributionOf rfc3339 event = attr := by
  simp only [Option.bind_eq_some_iff, capturedDiffs_patchToAttr]
  constructor
  · rintro ⟨commit, maps, patchId, own, event, last, attributed⟩
    exact ⟨commit, patchId, event, maps, own, last, attributed⟩
  · rintro ⟨commit, patchId, event, maps, own, last, attributed⟩
    exact ⟨commit, maps, patchId, own, event, last, attributed⟩

/-- A line after both passes, from what either pass may make of it. -/
structure LineBlamed (rfc3339 : DateTime → String) (events : List TraceEvent) (git : FileHistory)
    (relPath : String) (lineNo : UInt64) (line : BlameLine) : Prop where
  numbered : line.lineNo = lineNo
  committed : line.confidence = .commit → ∃ commit patchId event, git.MapsTo lineNo commit ∧
    git.filePatchId commit = some patchId ∧ IsLast (Records relPath patchId) events event ∧
      Carries line event
  recorded : ∀ commit patchId event, git.MapsTo lineNo commit →
    git.filePatchId commit = some patchId → IsLast (Records relPath patchId) events event →
      line.confidence = .commit

theorem lineBlamed_of_passes {lineNo : UInt64} {before line : BlameLine}
    (blamed : CommitBlamed git (capturedDiffs rfc3339 events relPath).patchToAttr lineNo before)
    (overlaid : Overlaid git before line) : LineBlamed rfc3339 events git relPath lineNo line := by
  have kept : ∀ commit, git.MapsTo lineNo commit → before.lineNo = lineNo → line = before := by
    intro commit maps same
    rcases overlaid with rfl | ⟨uncommitted, -⟩
    · rfl
    · rw [same, maps.committed] at uncommitted
      cases uncommitted
  cases blamed with
  | uncommitted open' =>
      have none : ∀ commit, ¬ git.MapsTo lineNo commit := by
        intro commit maps
        rw [maps.committed] at open'
        cases open'
      refine ⟨?_, ?_, fun commit _ _ maps => absurd maps (none commit)⟩
      · rcases overlaid with rfl | ⟨-, attr, rfl⟩
        · rfl
        · rfl
      · intro confident
        rcases overlaid with rfl | ⟨-, attr, rfl⟩
        · cases confident
        · cases confident
  | @unattributed commit maps unrecorded =>
      have same := kept commit maps rfl
      subst same
      refine ⟨rfl, fun confident => (by cases confident), ?_⟩
      intro other patchId event mapsOther own last
      obtain ⟨found, mapsFound, recorded⟩ := commitBlamed_recorded_iff.mpr
        ⟨other, patchId, event, mapsOther, own, last, rfl⟩
      rw [maps.unique mapsFound, recorded] at unrecorded
      cases unrecorded
  | @attributed commit attr maps recorded =>
      have same := kept commit maps rfl
      subst same
      refine ⟨rfl, fun _ => ?_, fun _ _ _ _ _ _ => rfl⟩
      obtain ⟨found, patchId, event, mapsFound, own, last, rfl⟩ :=
        commitBlamed_recorded_iff.mp ⟨commit, maps, recorded⟩
      exact ⟨found, patchId, event, mapsFound, own, last, ⟨rfl, rfl, rfl, rfl, rfl⟩⟩

theorem lineBlamed_of_overlaid {lines : List BlameLine}
    (overlaid : List.Forall₂ (Overlaid git)
      (blameLines git (capturedDiffs rfc3339 events relPath).patchToAttr ∅ (lineNumbers lineCount))
      lines) :
    List.Forall₂ (LineBlamed rfc3339 events git relPath) (lineNumbers lineCount) lines := by
  have start : PatchIdsTrue git ∅ := fun commit patchId held => by simp at held
  have blamed := blameLines_spec (capturedDiffs rfc3339 events relPath).patchToAttr start
    (lineNumbers lineCount)
  refine Fallible.forall₂_chain ?_ blamed overlaid
  intro lineNo before line first second
  exact lineBlamed_of_passes first second

theorem blamesFile_of_passes {lines : List BlameLine}
    (overlaid : List.Forall₂ (Overlaid git)
      (blameLines git (capturedDiffs rfc3339 events relPath).patchToAttr ∅ (lineNumbers lineCount))
      lines) :
    BlamesFile events lineCount git relPath
      (blameLines git (capturedDiffs rfc3339 events relPath).patchToAttr ∅ (lineNumbers lineCount))
      lines := by
  have both := lineBlamed_of_overlaid overlaid
  refine ⟨?_, ?_, ?_, ?_⟩
  · have same : List.Forall₂ (· = ·) ((lineNumbers lineCount).map UInt64.toNat)
        (lines.map (·.lineNo.toNat)) := by
      rw [List.forall₂_map_left_iff, List.forall₂_map_right_iff]
      exact both.imp fun lineNo line spec => congrArg UInt64.toNat spec.numbered.symm
    rw [List.forall₂_eq_eq_eq] at same
    rw [← same, lineNumbers_toNat]
  · intro line member
    obtain ⟨lineNo, -, spec⟩ := Fallible.exists_of_mem_right both member
    rw [spec.numbered]
    constructor
    · intro confident
      obtain ⟨commit, patchId, event, maps, own, last, -⟩ := spec.committed confident
      exact ⟨commit, patchId, maps, own, exists_isLast_iff.mp ⟨event, last⟩⟩
    · rintro ⟨commit, patchId, maps, own, recorded⟩
      obtain ⟨event, last⟩ := exists_isLast_iff.mpr recorded
      exact spec.recorded commit patchId event maps own last
  · intro line member confident
    obtain ⟨lineNo, -, spec⟩ := Fallible.exists_of_mem_right both member
    rw [spec.numbered]
    exact spec.committed confident
  · refine overlaid.imp fun before after laid commit maps => ?_
    rcases laid with same | ⟨uncommitted, -⟩
    · exact same
    · rw [maps.committed] at uncommitted
      cases uncommitted

theorem hunksFit_iff (rfc3339 : DateTime → String) (mode : OverflowMode) :
    (∀ working ∈ (capturedDiffs rfc3339 events relPath).latestWorking,
        ∀ change ∈ working.2.changesOf relPath, ∀ hunk ∈ change.hunks,
          mode = .wrapping ∨ HunkFits hunk) ↔
      mode = .wrapping ∨ HunksFit events relPath := by
  by_cases wraps : mode = .wrapping
  · simp [wraps]
  · simp only [wraps, false_or]
    constructor
    · intro fits event payload last captures change member path
      have working : (capturedDiffs rfc3339 events relPath).latestWorking =
          some (attributionOf rfc3339 event, payload) :=
        capturedDiffs_latestWorking.mpr ⟨event, last, captures, rfl⟩
      have ofPath : change ∈ payload.changesOf relPath :=
        List.mem_filter.mpr ⟨member, decide_eq_true path⟩
      exact fits _ working change ofPath
    · rintro fits ⟨attr, payload⟩ working change ofPath
      obtain ⟨event, last, captures, -⟩ := capturedDiffs_latestWorking.mp working
      obtain ⟨member, path⟩ := List.mem_filter.mp ofPath
      exact fits event payload last captures change member (of_decide_eq_true path)

theorem blame_file_attributes_iff (mode : OverflowMode) (rfc3339 : DateTime → String)
    (events : List TraceEvent) (lineCount : UInt64) (git : FileHistory) (relPath : String) :
    (∃ lines, blameFile mode rfc3339 events lineCount git relPath = .ok lines ∧
        BlamesFile events lineCount git relPath
          (blameLines git (capturedDiffs rfc3339 events relPath).patchToAttr ∅
            (lineNumbers lineCount)) lines) ↔
      mode = .wrapping ∨ HunksFit events relPath := by
  rw [← hunksFit_iff rfc3339, ← overlayWorking_ok_iff]
  constructor
  · rintro ⟨lines, done, -⟩
    exact ⟨lines, done⟩
  · rintro ⟨lines, done⟩
    exact ⟨lines, done, blamesFile_of_passes (overlayWorking_spec done)⟩

end File

/-! ## A hunk that ends beyond the last line number -/

/-- A working diff of one file with one hunk of two lines from the given one on. -/
def workingDiffFrom (newStart : UInt64) : TraceEvent where
  eventId := ⟨1⟩
  eventType := .diffCaptured
  schemaVersion := 1
  payloadSchemaVersion := 1
  occurredAt := ⟨0⟩
  recordedAt := ⟨0⟩
  actor := ⟨.agent, "agent-1", none⟩
  repoId := none
  orgId := none
  projectId := none
  missionId := none
  sessionId := some ⟨"session_1"⟩
  artifactId := some ⟨"artifact_1"⟩
  repoContextId := none
  confidence := .explicit
  payload := .object [("diff_target", .string "working"), ("summary_hash", .string "abc123"),
    ("file_changes", .array [.object [("path", .string "src/lib.rs"),
      ("change_kind", .string "modified"), ("hunks", .array [.object [
        ("old_start", Json.encodeU64 1),
        ("old_lines", Json.encodeU64 1), ("new_start", Json.encodeU64 newStart),
        ("new_lines", Json.encodeU64 2)]])]])]

def untrackedFile : FileHistory := ⟨none, fun _ => none⟩

theorem blame_of_overflowing_hunk_panics :
    ¬ ∀ (mode : OverflowMode) (rfc3339 : DateTime → String) (events : List TraceEvent)
        (lineCount : UInt64) (git : FileHistory) (relPath : String),
      ∃ lines, blameFile mode rfc3339 events lineCount git relPath = .ok lines ∧
        BlamesFile events lineCount git relPath
          (blameLines git (capturedDiffs rfc3339 events relPath).patchToAttr ∅
            (lineNumbers lineCount)) lines := by
  intro claim
  obtain ⟨lines, done, -⟩ := claim .checked (fun _ => "") [workingDiffFrom 18446744073709551615] 1
    untrackedFile "src/lib.rs"
  have panics : blameFile .checked (fun _ => "") [workingDiffFrom 18446744073709551615] 1
      untrackedFile "src/lib.rs" = .error .addOverflow := by rfl
  rw [panics] at done
  cases done

end BrickTrace
