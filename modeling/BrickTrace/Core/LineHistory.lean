import BrickTrace.Core.BlamePorcelain
import BrickTrace.Core.BlameWorking

/-!
# The history of a range of lines

`git log -L` lists every commit that touched a range of lines, and each of them is
attributed by the patch id of its slice of the file, like the last one in the blame of the
file.  The history keeps one patch id of each captured diff, the first that it has for the
path, where the blame keeps all of them.
-/

set_option autoImplicit false

namespace BrickTrace

open OrderedMap LastWrite

/-! ## The commits of the range -/

structure RangeCommit where
  sha : String
  subject : Option String
  committedAt : Option String
deriving DecidableEq

/-- A line of the log: three fields with a unit separator between them. -/
def readRangeCommit (line : String) : Option RangeCommit :=
  let nonEmpty (field : List Char) : Option String :=
    if field = [] then none else some (String.ofList field)
  match line.toList.splitOn '\x1f' with
  | [] => none
  | sha :: fields =>
      if isSha sha then
        some ⟨String.ofList sha, fields[0]?.bind nonEmpty, fields[1]?.bind nonEmpty⟩
      else none

/-- Why there is no history of a range. -/
inductive RangeError where
  | invalidLineRange (lineStart lineEnd : UInt64)
  | gitLogFailed (stderr : String)
deriving DecidableEq

/-- What `git log -L` answers, or what it says when it fails. -/
abbrev RangeLog := Except String String

def gitLogLineRangeCommits (log : RangeLog) : Except RangeError (List RangeCommit) :=
  match log with
  | .error stderr => .error (.gitLogFailed (trim stderr))
  | .ok text => .ok ((textLines text).filterMap readRangeCommit)

/-! ## Their owners -/

structure SessionTouch where
  commit : String
  subject : Option String
  committedAt : Option String
  sessionId : Option String
  actorType : Option String
  actorId : Option String
  missionId : Option String
  occurredAt : Option String
  sourceEventId : Option String
  attributed : Bool
deriving DecidableEq

/-- The loop over the changes of a diff stops at the first patch id. -/
def recordFirstPatchId (attr : Attribution) (patchToAttr : Map String Attribution) :
    List DiffFileChange → Map String Attribution
  | [] => patchToAttr
  | change :: rest =>
      match change.patchId with
      | some patchId => patchToAttr.insert patchId attr
      | none => recordFirstPatchId attr patchToAttr rest

section History
variable (rfc3339 : DateTime → String)

def rangeAttributions (events : List TraceEvent) (relPath : String) : Map String Attribution :=
  (collectDiffEvents events relPath).foldl
    (fun patchToAttr diff =>
      recordFirstPatchId (attributionOf rfc3339 diff.1) patchToAttr (diff.2.changesOf relPath)) ∅

def sessionTouch (filePatchId : String → Option String) (patchToAttr : Map String Attribution)
    (commit : RangeCommit) : SessionTouch :=
  let touch : SessionTouch :=
    { commit := commit.sha
      subject := commit.subject
      committedAt := commit.committedAt
      sessionId := none
      actorType := none
      actorId := none
      missionId := none
      occurredAt := none
      sourceEventId := none
      attributed := false }
  match (filePatchId commit.sha).bind (patchToAttr[·]?) with
  | some attr =>
      { touch with
        sessionId := attr.sessionId
        actorType := some attr.actorType
        actorId := some attr.actorId
        missionId := attr.missionId
        occurredAt := some attr.occurredAt
        sourceEventId := some attr.eventId
        attributed := true }
  | none => touch

def blameLineRangeHistory (events : List TraceEvent) (git : FileHistory) (log : RangeLog)
    (relPath : String) (lineStart lineEnd : UInt64) : Except RangeError (List SessionTouch) :=
  if lineStart = 0 ∨ lineEnd < lineStart then .error (.invalidLineRange lineStart lineEnd)
  else do
    let patchToAttr := rangeAttributions rfc3339 events relPath
    let commits ← gitLogLineRangeCommits log
    return commits.map (sessionTouch git.filePatchId patchToAttr)

end History

/-! ## What the history keeps of the log -/

/-- The event is a diff captured with the patch id as the first one that it has for the path. -/
def RecordsFirst (relPath patchId : String) (event : TraceEvent) : Prop :=
  event.eventType = .diffCaptured ∧
    ∃ payload, DiffCapturedPayload.decode event.payload = some payload ∧
      (payload.changesOf relPath).findSome? (·.patchId) = some patchId

theorem RecordsFirst.records {relPath patchId : String} {event : TraceEvent}
    (first : RecordsFirst relPath patchId event) : Records relPath patchId event := by
  obtain ⟨type, payload, decoded, found⟩ := first
  obtain ⟨change, member, own⟩ := List.exists_of_findSome?_eq_some found
  obtain ⟨isChange, path⟩ := List.mem_filter.mp member
  exact ⟨type, payload, decoded, change, isChange, of_decide_eq_true path, own⟩

section Kept
variable {rfc3339 : DateTime → String} {events : List TraceEvent} {relPath patchId : String}
  {attr : Attribution}

theorem getElem?_recordFirstPatchId (attr : Attribution) (patchToAttr : Map String Attribution)
    (changes : List DiffFileChange) :
    (recordFirstPatchId attr patchToAttr changes)[patchId]? =
      if changes.findSome? (·.patchId) = some patchId then some attr else patchToAttr[patchId]? := by
  induction changes with
  | nil => simp [recordFirstPatchId]
  | cons change rest ih =>
      unfold recordFirstPatchId
      rw [List.findSome?_cons]
      cases found : change.patchId with
      | none => exact ih
      | some own => simp [getElem?_insert_eq]

/-- What a captured diff writes under the patch id when only its first one counts. -/
def firstPatchWrite (rfc3339 : DateTime → String) (relPath patchId : String)
    (diff : TraceEvent × DiffCapturedPayload) : Option Attribution :=
  if (diff.2.changesOf relPath).findSome? (·.patchId) = some patchId then
    some (attributionOf rfc3339 diff.1)
  else none

theorem collected_firstPatchWrite_iff {event : TraceEvent} :
    (collectDiff relPath event).bind (firstPatchWrite rfc3339 relPath patchId) = some attr ↔
      RecordsFirst relPath patchId event ∧ attributionOf rfc3339 event = attr := by
  simp only [Option.bind_eq_some_iff, collectDiff_eq_some_iff, firstPatchWrite]
  constructor
  · rintro ⟨⟨origin, payload⟩, ⟨type, decoded, -, rfl⟩, wrote⟩
    split at wrote
    · rename_i first
      exact ⟨⟨type, payload, decoded, first⟩, Option.some.inj wrote⟩
    · cases wrote
  · rintro ⟨⟨type, payload, decoded, first⟩, rfl⟩
    obtain ⟨change, member, -⟩ := List.exists_of_findSome?_eq_some first
    obtain ⟨isChange, path⟩ := List.mem_filter.mp member
    exact ⟨(event, payload), ⟨type, decoded, ⟨change, isChange, of_decide_eq_true path⟩, rfl⟩,
      if_pos first⟩

theorem rangeAttributions_eq_some_iff :
    (rangeAttributions rfc3339 events relPath)[patchId]? = some attr ↔
      ∃ event, IsLast (RecordsFirst relPath patchId) events event ∧
        attributionOf rfc3339 event = attr := by
  have writing : ∀ (map : Map String Attribution) (diff : TraceEvent × DiffCapturedPayload),
      (recordFirstPatchId (attributionOf rfc3339 diff.1) map (diff.2.changesOf relPath))[patchId]? =
        (firstPatchWrite rfc3339 relPath patchId diff).or map[patchId]? := by
    intro map diff
    rw [getElem?_recordFirstPatchId]
    unfold firstPatchWrite
    split <;> rfl
  have read : (rangeAttributions rfc3339 events relPath)[patchId]? =
      lastWrite (firstPatchWrite rfc3339 relPath patchId) (collectDiffEvents events relPath) := by
    refine (view_foldl (fun map : Map String Attribution => map[patchId]?) writing
      (collectDiffEvents events relPath) ∅).trans ?_
    simp
  rw [read]
  exact lastWrite_collectDiffEvents_iff fun _ _ => collected_firstPatchWrite_iff

end Kept

/-! ## The two views -/

/-- The touch credits what the event says of its session, actor, mission and identity. -/
structure TouchCarries (touch : SessionTouch) (event : TraceEvent) : Prop where
  session : touch.sessionId = event.sessionId.map TraceId.text
  actorType : touch.actorType = some event.actor.actorType.debugName.toLower
  actorId : touch.actorId = some event.actor.actorId
  mission : touch.missionId = event.missionId.map TraceId.text
  event : touch.sourceEventId = some event.eventId.text

/-- A touch is attributed as the line is, and to the same event, session, actor and mission. -/
structure Agrees (line : BlameLine) (touch : SessionTouch) : Prop where
  attributed : touch.attributed = true ↔ line.confidence = .commit
  session : line.confidence = .commit → touch.sessionId = line.sessionId
  actorType : line.confidence = .commit → touch.actorType = line.actorType
  actorId : line.confidence = .commit → touch.actorId = line.actorId
  mission : line.confidence = .commit → touch.missionId = line.missionId
  event : line.confidence = .commit → touch.sourceEventId = line.sourceEventId

/-- The events are credited alike. -/
structure SameCredit (left right : TraceEvent) : Prop where
  event : left.eventId = right.eventId
  session : left.sessionId = right.sessionId
  actorType : left.actor.actorType = right.actor.actorType
  actorId : left.actor.actorId = right.actor.actorId
  mission : left.missionId = right.missionId

theorem debugName_toLower_injective {left right : ActorType}
    (same : left.debugName.toLower = right.debugName.toLower) : left = right := by
  have chars := congrArg String.toList same
  unfold String.toLower at chars
  rw [String.toList_map, String.toList_map] at chars
  revert chars
  cases left <;> cases right <;> decide

theorem map_text_injective {kind : TraceIdKind} {left right : Option (TraceId kind)}
    (same : left.map TraceId.text = right.map TraceId.text) : left = right :=
  Option.map_injective (fun first second => by
    cases first
    cases second
    exact congrArg TraceId.mk) same

section Views
variable {mode : OverflowMode} {rfc3339 : DateTime → String} {events : List TraceEvent}
  {lineCount : UInt64} {git : FileHistory} {log : RangeLog} {relPath : String}
  {lineStart lineEnd : UInt64}

theorem touched_iff (commit : String) (attr : Attribution) :
    (git.filePatchId commit).bind ((rangeAttributions rfc3339 events relPath)[·]?) = some attr ↔
      ∃ patchId event, git.filePatchId commit = some patchId ∧
        IsLast (RecordsFirst relPath patchId) events event ∧ attributionOf rfc3339 event = attr := by
  simp only [Option.bind_eq_some_iff, rangeAttributions_eq_some_iff]
  constructor
  · rintro ⟨patchId, own, event, last, attributed⟩
    exact ⟨patchId, event, own, last, attributed⟩
  · rintro ⟨patchId, event, own, last, attributed⟩
    exact ⟨patchId, own, event, last, attributed⟩

/-- What the history makes of a commit. -/
structure Touched (rfc3339 : DateTime → String) (events : List TraceEvent) (git : FileHistory)
    (relPath : String) (touch : SessionTouch) : Prop where
  credited : touch.attributed = true → ∃ patchId event, git.filePatchId touch.commit = some patchId ∧
    IsLast (RecordsFirst relPath patchId) events event ∧ TouchCarries touch event
  recorded : ∀ patchId event, git.filePatchId touch.commit = some patchId →
    IsLast (RecordsFirst relPath patchId) events event → touch.attributed = true

theorem touched_sessionTouch (listed : RangeCommit) :
    Touched rfc3339 events git relPath
      (sessionTouch git.filePatchId (rangeAttributions rfc3339 events relPath) listed) := by
  unfold sessionTouch
  cases found : (git.filePatchId listed.sha).bind
      ((rangeAttributions rfc3339 events relPath)[·]?) with
  | none =>
      refine ⟨fun attributed => (nomatch attributed), ?_⟩
      intro patchId event own last
      have recorded := (touched_iff listed.sha (attributionOf rfc3339 event)).mpr
        ⟨patchId, event, own, last, rfl⟩
      rw [found] at recorded
      cases recorded
  | some attr =>
      obtain ⟨patchId, event, own, last, rfl⟩ := (touched_iff listed.sha attr).mp found
      exact ⟨fun _ => ⟨patchId, event, own, last, ⟨rfl, rfl, rfl, rfl, rfl⟩⟩, fun _ _ _ _ => rfl⟩

/-- `git log -L` lists the commit for the range. -/
def RangeLog.Lists (log : RangeLog) (commit : String) : Prop :=
  ∃ commits, gitLogLineRangeCommits log = .ok commits ∧ ∃ listed ∈ commits, listed.sha = commit

theorem touches_of_history {touches : List SessionTouch}
    (walked : blameLineRangeHistory rfc3339 events git log relPath lineStart lineEnd = .ok touches) :
    (∀ touch ∈ touches, Touched rfc3339 events git relPath touch ∧ log.Lists touch.commit) ∧
      ∀ commit, log.Lists commit → ∃ touch ∈ touches, touch.commit = commit := by
  unfold blameLineRangeHistory at walked
  split at walked
  · cases walked
  · obtain ⟨commits, isLog, done⟩ := Fallible.bind_eq_ok_iff.mp walked
    cases done
    have sameCommit : ∀ listed, (sessionTouch git.filePatchId
        (rangeAttributions rfc3339 events relPath) listed).commit = listed.sha := by
      intro listed
      unfold sessionTouch
      dsimp only
      split <;> rfl
    constructor
    · intro touch member
      obtain ⟨listed, isListed, rfl⟩ := List.mem_map.mp member
      exact ⟨touched_sessionTouch listed, commits, isLog, listed, isListed, (sameCommit listed).symm⟩
    · rintro commit ⟨others, isOthers, listed, isListed, rfl⟩
      rw [isLog] at isOthers
      cases isOthers
      exact ⟨_, List.mem_map_of_mem isListed, sameCommit listed⟩

theorem lineBlamed_of_blameFile {lines : List BlameLine}
    (blamed : blameFile mode rfc3339 events lineCount git relPath = .ok lines) :
    List.Forall₂ (LineBlamed rfc3339 events git relPath) (lineNumbers lineCount) lines :=
  lineBlamed_of_overlaid (overlayWorking_spec blamed)

/-- The last event with the patch id on a change of the path is credited like the last one
with it as its first patch id. -/
def CreditedByFirst (events : List TraceEvent) (relPath patchId : String) : Prop :=
  ∀ event, IsLast (Records relPath patchId) events event →
    ∃ first, IsLast (RecordsFirst relPath patchId) events first ∧ SameCredit first event

theorem sameCredit_of_carries {line : BlameLine} {touch : SessionTouch} {event first : TraceEvent}
    (agrees : Agrees line touch) (confident : line.confidence = .commit) (carries : Carries line event)
    (credits : TouchCarries touch first) : SameCredit first event where
  event := Uuid.text_injective (Option.some.inj
    (credits.event.symm.trans ((agrees.event confident).trans carries.event)))
  session := map_text_injective
    (credits.session.symm.trans ((agrees.session confident).trans carries.session))
  actorType := debugName_toLower_injective (Option.some.inj
    (credits.actorType.symm.trans ((agrees.actorType confident).trans carries.actorType)))
  actorId := Option.some.inj
    (credits.actorId.symm.trans ((agrees.actorId confident).trans carries.actorId))
  mission := map_text_injective
    (credits.mission.symm.trans ((agrees.mission confident).trans carries.mission))

theorem agrees_of_sameCredit {line : BlameLine} {touch : SessionTouch} {event first : TraceEvent}
    (attributed : touch.attributed = true) (confident : line.confidence = .commit)
    (carries : Carries line event) (credits : TouchCarries touch first)
    (same : SameCredit first event) : Agrees line touch where
  attributed := ⟨fun _ => confident, fun _ => attributed⟩
  session _ := by rw [credits.session, carries.session, same.session]
  actorType _ := by rw [credits.actorType, carries.actorType, same.actorType]
  actorId _ := by rw [credits.actorId, carries.actorId, same.actorId]
  mission _ := by rw [credits.mission, carries.mission, same.mission]
  event _ := by rw [credits.event, carries.event, same.event]

/-- The two views agree on a commit exactly when the patch id of its slice of the file is
credited by first patch ids as by all of them. -/
theorem views_agree_iff {lines : List BlameLine} {touches : List SessionTouch}
    (blamed : blameFile mode rfc3339 events lineCount git relPath = .ok lines)
    (walked : blameLineRangeHistory rfc3339 events git log relPath lineStart lineEnd = .ok touches) :
    (∀ line ∈ lines, ∀ touch ∈ touches, git.MapsTo line.lineNo touch.commit → Agrees line touch) ↔
      ∀ lineNo ∈ lineNumbers lineCount, ∀ commit patchId, git.MapsTo lineNo commit →
        log.Lists commit → git.filePatchId commit = some patchId →
          CreditedByFirst events relPath patchId := by
  have both := lineBlamed_of_blameFile blamed
  obtain ⟨touched, listed⟩ := touches_of_history walked
  constructor
  · intro agree lineNo isLine commit patchId maps lists own event last
    obtain ⟨line, member, spec⟩ := Fallible.exists_of_mem_left both isLine
    obtain ⟨touch, isTouch, rfl⟩ := listed commit lists
    rw [← spec.numbered] at maps
    have agrees := agree line member touch isTouch maps
    rw [spec.numbered] at maps
    have confident := spec.recorded touch.commit patchId event maps own last
    obtain ⟨other, otherId, blamedOn, mapsOther, ownOther, lastOther, carries⟩ :=
      spec.committed confident
    obtain ⟨firstId, first, ownFirst, lastFirst, credits⟩ :=
      (touched touch isTouch).1.credited (agrees.attributed.mpr confident)
    have sameCommit := maps.unique mapsOther
    rw [← sameCommit, own] at ownOther
    rw [own] at ownFirst
    cases ownOther
    cases ownFirst
    rw [lastOther.unique last] at carries
    exact ⟨first, lastFirst, sameCredit_of_carries agrees confident carries credits⟩
  · intro credited line member touch isTouch maps
    obtain ⟨lineNo, isLine, spec⟩ := Fallible.exists_of_mem_right both member
    obtain ⟨isTouched, lists⟩ := touched touch isTouch
    rw [spec.numbered] at maps
    by_cases confident : line.confidence = .commit
    · obtain ⟨commit, patchId, event, mapsCommit, own, last, carries⟩ := spec.committed confident
      rw [← maps.unique mapsCommit] at own
      obtain ⟨first, lastFirst, same⟩ := credited lineNo isLine touch.commit patchId maps lists own
        event last
      have attributed := isTouched.recorded patchId first own lastFirst
      obtain ⟨otherId, other, ownOther, lastOther, credits⟩ := isTouched.credited attributed
      rw [own] at ownOther
      cases ownOther
      rw [lastOther.unique lastFirst] at credits
      exact agrees_of_sameCredit attributed confident carries credits same
    · have silent : touch.attributed ≠ true := by
        intro attributed
        obtain ⟨patchId, first, own, last, -⟩ := isTouched.credited attributed
        obtain ⟨event, isLast⟩ := exists_isLast_iff.mpr ⟨first, last.mem, last.writer.records⟩
        exact confident (spec.recorded touch.commit patchId event maps own isLast)
      constructor
      · exact ⟨fun attributed => absurd attributed silent, fun isCommit => absurd isCommit confident⟩
      all_goals exact fun isCommit => absurd isCommit confident

end Views

/-! ## A diff with two changes of one path -/

def changeOfLib (patchId : String) : Json :=
  .object [("path", .string "src/lib.rs"), ("change_kind", .string "modified"),
    ("patch_id", .string patchId)]

/-- A diff with a change of the path under each of the patch ids. -/
def diffUnderPatchIds (patchIds : List String) : TraceEvent :=
  { diffUnderPatchId with
    payload := .object [("diff_target", .string "working"), ("summary_hash", .string "abc123"),
      ("file_changes", .array (patchIds.map changeOfLib))] }

def committedPatchId : String := "3f2a9c417be05d86e1c4a7b2903fd8e651b0c9a4"

def logOfOneCommit : RangeLog :=
  .ok "9d41c07e5ab2f6803c7e19d4ab50f2e86c3b7d10\x1fEdit\x1f2026-06-22T10:00:00+00:00\n"

def linesUnder (patchIds : List String) : Except BlamePanic (List BlameLine) :=
  blameFile .wrapping (fun _ => "") [diffUnderPatchIds patchIds] 2 editedAfterCommit "src/lib.rs"

def touchesUnder (patchIds : List String) : Except RangeError (List SessionTouch) :=
  blameLineRangeHistory (fun _ => "") [diffUnderPatchIds patchIds] editedAfterCommit logOfOneCommit
    "src/lib.rs" 1 2

theorem views_agree_on_one_change : ∃ lines touches,
    linesUnder [committedPatchId] = .ok lines ∧ touchesUnder [committedPatchId] = .ok touches ∧
      ∀ line ∈ lines, ∀ touch ∈ touches, editedAfterCommit.MapsTo line.lineNo touch.commit →
        Agrees line touch := by
  have confidences : (linesUnder [committedPatchId]).map (·.map BlameLine.confidence) =
      .ok [.commit, .unattributed] := by
    decide +kernel
  have attributions : (touchesUnder [committedPatchId]).map (·.map SessionTouch.attributed) =
      .ok [true] := by
    decide +kernel
  obtain ⟨lines, blamed, -⟩ := Fallible.map_eq_ok_iff.mp confidences
  obtain ⟨touches, walked, -⟩ := Fallible.map_eq_ok_iff.mp attributions
  refine ⟨lines, touches, blamed, walked, (views_agree_iff blamed walked).mpr ?_⟩
  intro lineNo _ commit patchId _ _ own event last
  have isCommitted : patchId = committedPatchId := by
    unfold editedAfterCommit at own
    dsimp only at own
    split at own
    · exact (Option.some.inj own).symm
    · cases own
  obtain rfl := List.mem_singleton.mp last.mem
  have first : RecordsFirst "src/lib.rs" patchId (diffUnderPatchIds [committedPatchId]) := by
    rw [isCommitted]
    obtain ⟨type, payload, decoded, -⟩ := last.writer
    refine ⟨type, payload, decoded, ?_⟩
    cases decoded
    decide
  exact ⟨diffUnderPatchIds [committedPatchId], ⟨[], [], rfl, first, List.forall_mem_nil _⟩,
    ⟨rfl, rfl, rfl, rfl, rfl⟩⟩

/-- The commit has the second patch id of the diff, which the history does not keep. -/
theorem views_differ_on_two_changes : ∃ lines touches,
    linesUnder ["0c1d", committedPatchId] = .ok lines ∧
      touchesUnder ["0c1d", committedPatchId] = .ok touches ∧
      ¬ ∀ line ∈ lines, ∀ touch ∈ touches, editedAfterCommit.MapsTo line.lineNo touch.commit →
        Agrees line touch := by
  have confidences : (linesUnder ["0c1d", committedPatchId]).map
      (·.map fun line => (line.lineNo, line.confidence)) = .ok [(1, .commit), (2, .unattributed)] := by
    decide +kernel
  have attributions : (touchesUnder ["0c1d", committedPatchId]).map
      (·.map fun touch => (touch.commit, touch.attributed)) =
        .ok [("9d41c07e5ab2f6803c7e19d4ab50f2e86c3b7d10", false)] := by
    decide +kernel
  obtain ⟨lines, blamed, marks⟩ := Fallible.map_eq_ok_iff.mp confidences
  obtain ⟨touches, walked, owners⟩ := Fallible.map_eq_ok_iff.mp attributions
  refine ⟨lines, touches, blamed, walked, fun agree => ?_⟩
  have isLine : ((1 : UInt64), BlameConfidence.commit) ∈
      lines.map fun line => (line.lineNo, line.confidence) := by
    rw [marks]
    exact List.mem_cons_self
  have isTouch : ("9d41c07e5ab2f6803c7e19d4ab50f2e86c3b7d10", false) ∈
      touches.map fun touch => (touch.commit, touch.attributed) := by
    rw [owners]
    exact List.mem_cons_self
  obtain ⟨line, member, numbered⟩ := List.mem_map.mp isLine
  obtain ⟨touch, touched, credited⟩ := List.mem_map.mp isTouch
  obtain ⟨number, confident⟩ := Prod.mk.inj numbered
  obtain ⟨commit, silent⟩ := Prod.mk.inj credited
  have maps : editedAfterCommit.MapsTo line.lineNo touch.commit := by
    rw [number, commit]
    exact ⟨by decide +kernel, by decide +kernel⟩
  have attributed := (agree line member touch touched maps).attributed.mpr confident
  rw [silent] at attributed
  cases attributed

end BrickTrace
