import BrickTrace.Lib.Fallible
import BrickTrace.Lib.LastWrite
import BrickTrace.Core.Index

/-!
# Blame of a file

Every current line of a file is mapped to the session that produced it.  Git maps a
line to the commit that last touched it, and the patch id of that commit's slice of
the file to the diff captured under the same patch id.  The latest working diff is
then laid over the lines that git reports as uncommitted.  What git answers is given.
-/

set_option autoImplicit false

namespace BrickTrace

open OrderedMap LastWrite

inductive BlameConfidence where
  | commit
  | working
  | unattributed
deriving DecidableEq

structure BlameLine where
  lineNo : UInt64
  sessionId : Option String
  actorType : Option String
  actorId : Option String
  missionId : Option String
  commit : Option String
  occurredAt : Option String
  sourceEventId : Option String
  confidence : BlameConfidence
deriving DecidableEq

structure Attribution where
  sessionId : Option String
  actorType : String
  actorId : String
  missionId : Option String
  occurredAt : String
  eventId : String
deriving DecidableEq

/-- Additions of unsigned integers that are checked for overflow panic on it. -/
inductive BlamePanic where
  | addOverflow
deriving DecidableEq

/-- The answers of git for one file.  `git blame` may fail; `filePatchId` is the patch
id of the slice of the file in a commit, when there is one. -/
structure FileHistory where
  lineCommits : Option (Map UInt64 String)
  filePatchId : String → Option String

/-- A failed blame counts as an empty one. -/
def FileHistory.blameCommits (git : FileHistory) : Map UInt64 String := git.lineCommits.getD ∅

def ActorType.debugName : ActorType → String
  | .human => "Human"
  | .agent => "Agent"
  | .system => "System"

def isZeroSha (sha : String) : Bool := sha.toList.all (· = '0')

def BlameLine.applyAttr (line : BlameLine) (attr : Attribution) (confidence : BlameConfidence) :
    BlameLine :=
  { line with
    sessionId := attr.sessionId
    actorType := some attr.actorType
    actorId := some attr.actorId
    missionId := attr.missionId
    occurredAt := some attr.occurredAt
    sourceEventId := some attr.eventId
    confidence := confidence }

/-! ## The captured diffs -/

/-- A captured diff that touches the path, with its payload. -/
def collectDiff (relPath : String) (event : TraceEvent) :
    Option (TraceEvent × DiffCapturedPayload) :=
  if event.eventType ≠ .diffCaptured then none
  else
    match DiffCapturedPayload.decode event.payload with
    | none => none
    | some payload =>
        if payload.fileChanges.any (·.path = relPath) then some (event, payload) else none

/-- The captured diffs that touch the path, in log order. -/
def collectDiffEvents (events : List TraceEvent) (relPath : String) :
    List (TraceEvent × DiffCapturedPayload) :=
  events.filterMap (collectDiff relPath)

def DiffCapturedPayload.changesOf (payload : DiffCapturedPayload) (relPath : String) :
    List DiffFileChange :=
  payload.fileChanges.filter (·.path = relPath)

structure CapturedDiffs where
  patchToAttr : Map String Attribution
  latestWorking : Option (Attribution × DiffCapturedPayload)

section Capture
variable (rfc3339 : DateTime → String)

def attributionOf (event : TraceEvent) : Attribution where
  sessionId := event.sessionId.map TraceId.text
  actorType := event.actor.actorType.debugName.toLower
  actorId := event.actor.actorId
  missionId := event.missionId.map TraceId.text
  occurredAt := rfc3339 event.occurredAt
  eventId := event.eventId.text

def recordPatchId (attr : Attribution) (patchToAttr : Map String Attribution)
    (change : DiffFileChange) : Map String Attribution :=
  match change.patchId with
  | some patchId => patchToAttr.insert patchId attr
  | none => patchToAttr

def captureDiff (relPath : String) (captured : CapturedDiffs)
    (diff : TraceEvent × DiffCapturedPayload) : CapturedDiffs where
  patchToAttr :=
    (diff.2.changesOf relPath).foldl (recordPatchId (attributionOf rfc3339 diff.1))
      captured.patchToAttr
  latestWorking :=
    if diff.2.diffTarget = .working then some (attributionOf rfc3339 diff.1, diff.2)
    else captured.latestWorking

def capturedDiffs (events : List TraceEvent) (relPath : String) : CapturedDiffs :=
  (collectDiffEvents events relPath).foldl (captureDiff rfc3339 relPath) ⟨∅, none⟩

end Capture

/-! ## Committed lines -/

def lineNumbers (lineCount : UInt64) : List UInt64 :=
  (List.range lineCount.toNat).map fun index => UInt64.ofNat (index + 1)

def blankLine (lineNo : UInt64) : BlameLine where
  lineNo := lineNo
  sessionId := none
  actorType := none
  actorId := none
  missionId := none
  commit := none
  occurredAt := none
  sourceEventId := none
  confidence := .unattributed

abbrev CommitPatchIds := Map String (Option String)

/-- The patch id of a commit is asked of git once, and kept. -/
def patchIdOf (git : FileHistory) (commitPatchIds : CommitPatchIds) (commit : String) :
    Option String × CommitPatchIds :=
  match commitPatchIds[commit]? with
  | some patchId => (patchId, commitPatchIds)
  | none => (git.filePatchId commit, commitPatchIds.insert commit (git.filePatchId commit))

def blameLine (git : FileHistory) (patchToAttr : Map String Attribution)
    (commitPatchIds : CommitPatchIds) (lineNo : UInt64) : BlameLine × CommitPatchIds :=
  match git.blameCommits[lineNo]? with
  | none => (blankLine lineNo, commitPatchIds)
  | some commit =>
      if isZeroSha commit then (blankLine lineNo, commitPatchIds)
      else
        let line := { blankLine lineNo with commit := some commit }
        let (patchId, commitPatchIds) := patchIdOf git commitPatchIds commit
        match patchId.bind (patchToAttr[·]?) with
        | some attr => (line.applyAttr attr .commit, commitPatchIds)
        | none => (line, commitPatchIds)

def blameLines (git : FileHistory) (patchToAttr : Map String Attribution) :
    CommitPatchIds → List UInt64 → List BlameLine
  | _, [] => []
  | commitPatchIds, lineNo :: rest =>
      let (line, commitPatchIds) := blameLine git patchToAttr commitPatchIds lineNo
      line :: blameLines git patchToAttr commitPatchIds rest

/-! ## Uncommitted lines -/

/-- A line that git maps to no commit counts as uncommitted. -/
def FileHistory.uncommitted (git : FileHistory) (lineNo : UInt64) : Bool :=
  (git.blameCommits[lineNo]?.map isZeroSha).getD true

def addU64 (mode : OverflowMode) (left right : UInt64) : Except BlamePanic UInt64 :=
  match mode with
  | .checked =>
      if left.toNat + right.toNat < UInt64.size then .ok (left + right) else .error .addOverflow
  | .wrapping => .ok (left + right)

def overlayHunk (mode : OverflowMode) (git : FileHistory) (attr : Attribution)
    (lines : List BlameLine) (hunk : DiffHunk) : Except BlamePanic (List BlameLine) :=
  if hunk.newLines = 0 then return lines
  else do
    let start := hunk.newStart
    let last := (← addU64 mode hunk.newStart hunk.newLines) - 1
    return lines.map fun line =>
      if git.uncommitted line.lineNo ∧ start ≤ line.lineNo ∧ line.lineNo ≤ last then
        line.applyAttr attr .working
      else line

def overlayWorking (mode : OverflowMode) (git : FileHistory) (relPath : String) :
    Option (Attribution × DiffCapturedPayload) → List BlameLine →
      Except BlamePanic (List BlameLine)
  | none, lines => return lines
  | some (attr, payload), lines =>
      (payload.changesOf relPath).foldlM
        (fun lines change => change.hunks.foldlM (overlayHunk mode git attr) lines) lines

def blameFile (mode : OverflowMode) (rfc3339 : DateTime → String) (events : List TraceEvent)
    (lineCount : UInt64) (git : FileHistory) (relPath : String) :
    Except BlamePanic (List BlameLine) :=
  let captured := capturedDiffs rfc3339 events relPath
  overlayWorking mode git relPath captured.latestWorking
    (blameLines git captured.patchToAttr ∅ (lineNumbers lineCount))

end BrickTrace
