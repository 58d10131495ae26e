import Mathlib.Data.Int.ConditionallyCompleteOrder
import Mathlib.Data.Prod.Lex
import Mathlib.Order.WithBot
import BrickTrace.Lib.NumberedOutput
import BrickTrace.Lib.StableSort
import BrickTrace.Core.ShellEdits
import BrickTrace.Cli.TranscriptGrowth
import BrickTrace.Sync.PulledRows

/-!
# The sessions of ORGII

ORGII keeps its sessions and their events in two tables.  Sessions are listed with the files
that their events touch, which one query over the events of all listed sessions collects, and
only from a watermark on when there is one.  The transcript of a session is the prompt of the
user and its events in the order of their times.
-/

set_option autoImplicit false

namespace BrickTrace.Orgii

open OrderedMap
open Composer (textAt normalizeTitle)

/-! ## The tables -/

structure SessionRow where
  sessionId : String
  name : Option String
  model : Option String
  projectPath : Option String
  codeRepoPath : Option String
  workspacePath : Option String
  branch : Option String
  userInput : Option String
  createdAt : Option String
  updatedAt : Option String

structure EventRow where
  sessionId : String
  eventType : Option String
  functionName : Option String
  argsJson : Option String
  resultJson : Option String
  content : Option String
  createdAt : Option String
  historySequence : Option Int

structure SessionsDb where
  agentSessions : List SessionRow
  events : List EventRow

/-! ## Listing -/

section Listing
variable (parseJson : String → Option Json)

def editFunctions : List String :=
  ["edit_file", "write_file", "apply_patch", "edit_file_by_replace", "run_shell",
    "run_command_line"]

/-- The files that `accumulate_edit` inserts. -/
def accumulateEdit (functionName argsJson : String) : List String :=
  let args := (parseJson argsJson).getD .null
  match functionName with
  | "edit_file" | "write_file" | "edit_file_by_replace" =>
      let path := (args.get "file_path").or ((args.get "path").or (args.get "target_file"))
      ((path.bind Json.decodeString).filter (· ≠ "")).toList
  | "apply_patch" =>
      let patch := (args.get "patch").or (args.get "input")
      shellEditTargets ((patch.bind Json.decodeString).getD "")
  | "run_shell" | "run_command_line" =>
      let command := (args.get "command").or (args.get "cmd")
      ((command.bind Json.decodeString).map shellEditTargets).getD []
  | _ => []

def EventRow.edited (row : EventRow) : List String :=
  accumulateEdit parseJson (row.functionName.getD "") (row.argsJson.getD "")

def isEditRow (row : EventRow) : Bool := row.functionName.any fun name => editFunctions.contains name

/-- The files that the events of the sessions touch, by session, from one query for all. -/
def batchEditImpact (db : SessionsDb) (sessionIds : List String) : Map String (List String) :=
  if sessionIds.isEmpty then ∅
  else
    (db.events.filter fun row => isEditRow row && sessionIds.contains row.sessionId).foldl
      (fun impacts row => upsert impacts row.sessionId [] (· ++ row.edited parseJson)) ∅

def sessionFromRow (row : SessionRow) (dbPath appId : String) (impact : List String) :
    NativeSourceSession :=
  let repoPath := row.codeRepoPath.or (row.projectPath.or row.workspacePath)
  let touchedFiles := sortedTexts impact
  { externalSessionId := row.sessionId
    sourceAppId := appId
    title := ((row.name.filter (· ≠ "")).or row.userInput).map normalizeTitle
    path := dbPath
    sizeBytes := 0
    modifiedAt := row.updatedAt.bind parseRfc3339
    parserVersion := "orgii-sqlite-v3"
    sessionCreatedAt := row.createdAt.bind parseRfc3339
    sessionUpdatedAt := row.updatedAt.bind parseRfc3339
    model := row.model
    inputTokens := none
    outputTokens := none
    repoPath
    branch := row.branch
    filesChanged :=
      if touchedFiles = [] then none else some (UInt64.ofNat touchedFiles.length)
    linesAdded := none
    linesRemoved := none
    touchedFiles
    listable := true
    metadataJson := none }

/-- The order of the rows by a text column, in which null comes first. -/
def updatedKey (row : SessionRow) : WithBot String := row.updatedAt

/-- The rows from a watermark on, the newest first. -/
def selectSessions (db : SessionsDb) (since : Option String) : List SessionRow :=
  StableSort.largestFirst updatedKey (db.agentSessions.filter fun row =>
    since.all fun mark => row.updatedAt.any (mark ≤ ·))

/-- The sessions of the rows; each row takes the files of its session out of the map. -/
def sessionsFromRows (dbPath appId : String) :
    Map String (List String) → List SessionRow → List NativeSourceSession
  | _, [] => []
  | impacts, row :: rest =>
      sessionFromRow row dbPath appId (impacts[row.sessionId]?.getD []) ::
        sessionsFromRows dbPath appId (impacts.erase row.sessionId) rest

def listSessions (dbPath appId : String) (db : SessionsDb) (limit : Option Nat)
    (since : Option String) : List NativeSourceSession :=
  let selected := selectSessions db since
  let rows := limit.elim selected selected.take
  sessionsFromRows dbPath appId (batchEditImpact parseJson db (rows.map SessionRow.sessionId)) rows

/-! ## One query for all sessions -/

/-- The files that the events of one session touch. -/
def sessionImpact (db : SessionsDb) (sessionId : String) : List String :=
  (db.events.filter fun row => isEditRow row && row.sessionId == sessionId).flatMap
    (EventRow.edited parseJson)

/-- A session as its own row and its own events make it. -/
def plainSession (dbPath appId : String) (db : SessionsDb) (row : SessionRow) :
    NativeSourceSession :=
  sessionFromRow row dbPath appId (sessionImpact parseJson db row.sessionId)

theorem batchEditImpact_of_mem (db : SessionsDb) {sessionIds : List String} {sessionId : String}
    (member : sessionId ∈ sessionIds) :
    (batchEditImpact parseJson db sessionIds)[sessionId]?.getD [] =
      sessionImpact parseJson db sessionId := by
  have some : sessionIds.isEmpty = false :=
    List.isEmpty_eq_false_iff.mpr (List.ne_nil_of_mem member)
  unfold batchEditImpact
  rw [some, if_neg Bool.false_ne_true, getD_foldl_upsert, List.filter_filter]
  have chosen : ∀ row ∈ db.events,
      (decide (row.sessionId = sessionId) &&
        (isEditRow row && sessionIds.contains row.sessionId)) =
        (isEditRow row && row.sessionId == sessionId) := by
    intro row _
    by_cases same : row.sessionId = sessionId
    · simp [same, member]
    · simp [same]
  rw [List.filter_congr chosen]
  simp [sessionImpact]

theorem sessionsFromRows_eq (dbPath appId : String) {impacts : Map String (List String)}
    {rows : List SessionRow} {impact : String → List String}
    (distinct : (rows.map SessionRow.sessionId).Nodup)
    (held : ∀ row ∈ rows, impacts[row.sessionId]?.getD [] = impact row.sessionId) :
    sessionsFromRows dbPath appId impacts rows =
      rows.map fun row => sessionFromRow row dbPath appId (impact row.sessionId) := by
  induction rows generalizing impacts with
  | nil => rfl
  | cons row rest ih =>
      obtain ⟨apart, restDistinct⟩ := List.nodup_cons.mp distinct
      obtain ⟨here, others⟩ := List.forall_mem_cons.mp held
      rw [sessionsFromRows, here, List.map_cons, ih restDistinct]
      intro other member
      have differs : row.sessionId ≠ other.sessionId := fun same =>
        apart (List.mem_map.mpr ⟨other, member, same.symm⟩)
      rw [Std.ExtTreeMap.getElem?_erase, if_neg (by simpa using differs)]
      exact others other member

/-! ## The watermark -/

/-- The time of a session, before all times when it has none. -/
def sessionTime (session : NativeSourceSession) : WithBot Int :=
  session.sessionUpdatedAt.map DateTime.nanoseconds

/-- The database prints the times of its sessions as the library does. -/
def PrintsTimes (db : SessionsDb) : Prop :=
  ∀ row ∈ db.agentSessions, ∃ time : DateTime, time.HasFourDigitYear ∧
    row.updatedAt = some (toRfc3339 time)

theorem toRfc3339_le_iff {first second : DateTime} (firstYear : first.HasFourDigitYear)
    (secondYear : second.HasFourDigitYear) :
    toRfc3339 first ≤ toRfc3339 second ↔ first.nanoseconds ≤ second.nanoseconds := by
  rw [← not_lt, toRfc3339_lt_iff secondYear firstYear, not_lt]

section Watermark
variable {dbPath appId : String} {db : SessionsDb}

theorem sessionUpdatedAt_of_printed {row : SessionRow} {time : DateTime}
    (year : time.HasFourDigitYear) (printed : row.updatedAt = some (toRfc3339 time)) :
    (plainSession parseJson dbPath appId db row).sessionUpdatedAt = some time := by
  unfold plainSession sessionFromRow
  dsimp only
  rw [printed, Option.bind_some, parseRfc3339_toRfc3339 year]

/-- The texts of two rows compare as the times of their sessions. -/
theorem larger_iff (prints : PrintsTimes db) {first second : SessionRow}
    (isFirst : first ∈ db.agentSessions) (isSecond : second ∈ db.agentSessions) :
    StableSort.larger updatedKey first second =
      StableSort.larger sessionTime (plainSession parseJson dbPath appId db first)
        (plainSession parseJson dbPath appId db second) := by
  obtain ⟨time, year, printed⟩ := prints first isFirst
  obtain ⟨time', year', printed'⟩ := prints second isSecond
  unfold StableSort.larger updatedKey sessionTime
  rw [sessionUpdatedAt_of_printed parseJson year printed,
    sessionUpdatedAt_of_printed parseJson year' printed', printed, printed']
  exact decide_eq_decide.mpr (WithBot.coe_le_coe.trans
    ((toRfc3339_le_iff year' year).trans WithBot.coe_le_coe.symm))

/-- The sessions that the watermark leaves, as their times say. -/
def FromMark (mark : Option DateTime) (session : NativeSourceSession) : Bool :=
  mark.all fun mark => session.sessionUpdatedAt.any (mark.nanoseconds ≤ ·.nanoseconds)

theorem fromMark_of_printed (prints : PrintsTimes db) {mark : Option DateTime}
    (markYear : ∀ held ∈ mark, held.HasFourDigitYear) {row : SessionRow}
    (member : row ∈ db.agentSessions) :
    ((mark.map toRfc3339).all fun mark => row.updatedAt.any (mark ≤ ·)) =
      FromMark mark (plainSession parseJson dbPath appId db row) := by
  obtain ⟨time, year, printed⟩ := prints row member
  cases mark with
  | none => rfl
  | some held =>
      unfold FromMark
      rw [sessionUpdatedAt_of_printed parseJson year printed, printed]
      simp only [Option.map_some, Option.all_some, Option.any_some,
        toRfc3339_le_iff (markYear held rfl) year]

theorem map_selectSessions (prints : PrintsTimes db) {mark : Option DateTime}
    (markYear : ∀ held ∈ mark, held.HasFourDigitYear) :
    (selectSessions db (mark.map toRfc3339)).map (plainSession parseJson dbPath appId db) =
      StableSort.largestFirst sessionTime
        ((db.agentSessions.map (plainSession parseJson dbPath appId db)).filter
          (FromMark mark)) := by
  unfold selectSessions StableSort.largestFirst
  rw [List.filter_map, List.map_mergeSort, List.filter_congr]
  · intro row member
    exact fromMark_of_printed parseJson prints markYear member
  · intro first isFirst second isSecond
    exact larger_iff parseJson prints (List.mem_of_mem_filter isFirst)
      (List.mem_of_mem_filter isSecond)

/-- The listing is what a scan of each session by itself gives: the sessions from the time of
the watermark on, the newest first, up to the limit.  The query over the events of all listed
sessions gives each its own files, and the comparison of texts is one of times. -/
theorem listSessions_eq (distinct : (db.agentSessions.map SessionRow.sessionId).Nodup)
    (prints : PrintsTimes db) {mark : Option DateTime}
    (markYear : ∀ held ∈ mark, held.HasFourDigitYear) (limit : Option Nat) :
    listSessions parseJson dbPath appId db limit (mark.map toRfc3339) =
      let all := StableSort.largestFirst sessionTime
        ((db.agentSessions.map (plainSession parseJson dbPath appId db)).filter (FromMark mark))
      limit.elim all all.take := by
  dsimp only
  rw [← map_selectSessions parseJson prints markYear]
  have chosen : ((selectSessions db (mark.map toRfc3339)).map SessionRow.sessionId).Nodup := by
    refine (StableSort.largestFirst_perm.map _).nodup_iff.mpr ?_
    exact distinct.sublist (List.filter_sublist.map _)
  have scanned : ∀ rows : List SessionRow, (rows.map SessionRow.sessionId).Nodup →
      sessionsFromRows dbPath appId
          (batchEditImpact parseJson db (rows.map SessionRow.sessionId)) rows =
        rows.map (plainSession parseJson dbPath appId db) := by
    intro rows rowsDistinct
    exact sessionsFromRows_eq dbPath appId rowsDistinct fun row member =>
      batchEditImpact_of_mem parseJson db (List.mem_map_of_mem member)
  unfold listSessions
  dsimp only
  cases limit with
  | none => exact scanned _ chosen
  | some most =>
      dsimp only [Option.elim_some]
      rw [← List.map_take]
      exact scanned _ (chosen.sublist ((List.take_sublist most _).map _))

end Watermark

end Listing

/-! ## Transcripts -/

/-- What a transcript is made of: the prompt of the user, then the events. -/
inductive TranscriptRow where
  | prompt (message createdAt : String)
  | event (row : EventRow)

def promptRow (db : SessionsDb) (sessionId : String) : Option TranscriptRow := do
  let row ← db.agentSessions.find? fun row => row.sessionId == sessionId
  return .prompt (← row.userInput) (row.createdAt.getD "")

def transcriptTypes : List String := ["assistant", "tool_call"]

def inTranscript (sessionId : String) (row : EventRow) : Bool :=
  row.sessionId == sessionId && row.eventType.any fun type => transcriptTypes.contains type

/-- `ORDER BY created_at, history_sequence`, in which null comes first. -/
def orderKey (row : EventRow) : Lex (WithBot String × WithBot Int) :=
  toLex (row.createdAt, row.historySequence)

def notAfter (first second : EventRow) : Bool := orderKey first ≤ orderKey second

def transcriptEvents (db : SessionsDb) (sessionId : String) : List EventRow :=
  (db.events.filter (inTranscript sessionId)).mergeSort notAfter

def transcriptRows (db : SessionsDb) (sessionId : String) : List TranscriptRow :=
  (promptRow db sessionId).toList ++ (transcriptEvents db sessionId).map .event

def stripAssistantPrefix (content : String) : String :=
  trim ((stripStart content "assistant ").getD content)

section Format
variable (parseJson : String → Option Json) (parseTime : String → Option DateTime)
  (rfc3339 : DateTime → String) (now : Nat → DateTime) (sessionId : String)

def toolOutputFromResultJson (resultJson : String) : String :=
  let value := (parseJson resultJson).getD .null
  (["content", "observation", "output"].findSome? fun key => textAt key value).getD ""

def importedToolCall (sequence : Nat) (row : EventRow) : ImportedToolCall where
  callId := sessionId ++ "-" ++ sequence.repr
  rawName := row.functionName.getD ""
  canonicalName := row.functionName.getD ""
  args := (parseJson (row.argsJson.getD "")).getD .null
  createdAt := row.createdAt.getD ""

/-- The chunk of a row, numbered; blank messages have none. -/
def rowChunks (sequence : Nat) : TranscriptRow → List ActivityChunk
  | .prompt message createdAt =>
      if trim message = "" then []
      else [userMessageChunk parseTime rfc3339 sessionId "orgii" (now sequence) sequence createdAt
        (trim message)]
  | .event row =>
      match row.eventType.getD "" with
      | "assistant" =>
          let message := stripAssistantPrefix (row.content.getD "")
          if message = "" then []
          else [assistantMessageChunk parseTime rfc3339 sessionId "orgii" (now sequence) sequence
            (row.createdAt.getD "") message]
      | "tool_call" =>
          [toolCallChunk parseTime rfc3339 sessionId "orgii" (now sequence) sequence
            (importedToolCall parseJson sessionId sequence row)
            (toolOutputFromResultJson parseJson (row.resultJson.getD ""))]
      | _ => []

def formatChunks (db : SessionsDb) : List ActivityChunk :=
  NumberedOutput.emitted (rowChunks parseJson parseTime rfc3339 now sessionId) 0
    (transcriptRows db sessionId)

theorem numberedIn_rowChunks (sequence : Nat) (row : TranscriptRow) :
    NumberedOutput.InPlace (NumberedIn "orgii") sequence
      (rowChunks parseJson parseTime rfc3339 now sessionId sequence row) := by
  have one : ∀ {chunk : ActivityChunk}, NumberedIn "orgii" sequence chunk →
      NumberedOutput.InPlace (NumberedIn "orgii") sequence [chunk] := fun numbered =>
    NumberedOutput.inPlace_cons.mpr ⟨numbered, NumberedOutput.inPlace_nil⟩
  cases row with
  | prompt message createdAt =>
      rw [rowChunks]
      split
      · exact NumberedOutput.inPlace_nil
      · exact one (numberedIn_user ..)
  | event row =>
      rw [rowChunks]
      split
      · dsimp only
        split
        · exact NumberedOutput.inPlace_nil
        · exact one (numberedIn_assistant ..)
      · exact one (numberedIn_toolCall ..)
      · exact NumberedOutput.inPlace_nil

theorem content_rowChunks (now' : Nat → DateTime) (sequence : Nat) (row : TranscriptRow) :
    (rowChunks parseJson parseTime rfc3339 now sessionId sequence row).map ActivityChunk.content =
      (rowChunks parseJson parseTime rfc3339 now' sessionId sequence row).map
        ActivityChunk.content := by
  cases row with
  | prompt message createdAt =>
      rw [rowChunks, rowChunks]
      split <;> rfl
  | event row =>
      rw [rowChunks, rowChunks]
      split
      · dsimp only
        split <;> rfl
      · rfl
      · rfl

end Format

theorem notAfter_trans (first second third : EventRow) (one : notAfter first second = true)
    (two : notAfter second third = true) : notAfter first third = true :=
  decide_eq_true ((of_decide_eq_true one).trans (of_decide_eq_true two))

theorem notAfter_total (first second : EventRow) :
    (notAfter first second || notAfter second first) = true := by
  rw [Bool.or_eq_true]
  exact (le_total (orderKey first) (orderKey second)).imp decide_eq_true decide_eq_true

/-- The events of the session that come in are later than those it has. -/
def Later (sessionId : String) (held more : List EventRow) : Prop :=
  ∀ old ∈ held, inTranscript sessionId old = true → ∀ new ∈ more,
    inTranscript sessionId new = true → orderKey old < orderKey new

theorem transcriptEvents_append {db grown : SessionsDb} {sessionId : String}
    {more : List EventRow} (events : grown.events = db.events ++ more)
    (later : Later sessionId db.events more) :
    transcriptEvents grown sessionId = transcriptEvents db sessionId ++
      (more.filter (inTranscript sessionId)).mergeSort notAfter := by
  unfold transcriptEvents
  rw [events, List.filter_append, StableSort.mergeSort_append notAfter_trans notAfter_total]
  intro old isOld new isNew
  obtain ⟨oldHeld, oldIn⟩ := List.mem_filter.mp isOld
  obtain ⟨newHeld, newIn⟩ := List.mem_filter.mp isNew
  exact decide_eq_false (later old oldHeld oldIn new newHeld newIn).not_ge

/-- As events come in, of this session later ones and of others any, the chunks of a session stay
what they are and new ones follow.  Its chunks have ids of their own and can be stored. -/
theorem formatChunks_of_more_events (parseJson : String → Option Json)
    (parseTime : String → Option DateTime) (rfc3339 : DateTime → String)
    (now now' : Nat → DateTime) {sessionId : String} {db grown : SessionsDb}
    {more : List EventRow} (prompt : promptRow grown sessionId = promptRow db sessionId)
    (events : grown.events = db.events ++ more) (later : Later sessionId db.events more) :
    (formatChunks parseJson parseTime rfc3339 now sessionId db).map ActivityChunk.content <+:
        (formatChunks parseJson parseTime rfc3339 now' sessionId grown).map ActivityChunk.content ∧
      ((formatChunks parseJson parseTime rfc3339 now sessionId db).map
        ActivityChunk.chunkId).Nodup ∧
      CanBeStored (formatChunks parseJson parseTime rfc3339 now sessionId db) := by
  have distinct : ((formatChunks parseJson parseTime rfc3339 now sessionId db).map
      ActivityChunk.chunkId).Nodup :=
    NumberedOutput.nodup_marks ActivityChunk.chunkId NumberedIn.number_eq (NumberedOutput.inPlace_emitted
      (numberedIn_rowChunks parseJson parseTime rfc3339 now sessionId) 0 _)
  refine ⟨?_, distinct, canBeStored_of_nodup distinct⟩
  have rows : transcriptRows grown sessionId = transcriptRows db sessionId ++
      ((more.filter (inTranscript sessionId)).mergeSort notAfter).map .event := by
    unfold transcriptRows
    rw [prompt, transcriptEvents_append events later, List.map_append, List.append_assoc]
  unfold formatChunks
  rw [NumberedOutput.map_emitted_congr
    (content_rowChunks parseJson parseTime rfc3339 now sessionId now'), rows]
  exact (NumberedOutput.emitted_prefix 0 _ _).map _

section Witness

def editedRow (sessionId function args createdAt : String) (place : Int) : EventRow where
  sessionId := sessionId
  eventType := some "tool_call"
  functionName := some function
  argsJson := some args
  resultJson := none
  content := none
  createdAt := some createdAt
  historySequence := some place

def sessionRow (sessionId prompt : String) (updated : DateTime) : SessionRow where
  sessionId := sessionId
  name := none
  model := none
  projectPath := none
  codeRepoPath := some "/repo"
  workspacePath := none
  branch := none
  userInput := some prompt
  createdAt := none
  updatedAt := some (toRfc3339 updated)

/-- Two sessions, a minute apart, with an edit each. -/
def twoSessions : SessionsDb where
  agentSessions := [sessionRow "s1" "fix it" ⟨0⟩, sessionRow "s2" "test it" ⟨60000000000⟩]
  events := [editedRow "s1" "write_file" "{}" "1970-01-01T00:00:00+00:00" 1,
    editedRow "s2" "write_file" "{}" "1970-01-01T00:01:00+00:00" 1]

/-- The sessions with a later event of the first one. -/
def twoSessionsGrown : SessionsDb :=
  { twoSessions with
    events := twoSessions.events ++
      [editedRow "s1" "write_file" "{}" "1970-01-01T00:02:00+00:00" 2] }

def readsBraces (text : String) : Option Json := if text = "{}" then some (.object []) else none

theorem twoSessions_listed :
    listSessions readsBraces "sessions.db" "orgii" twoSessions (some 5)
        ((some (⟨60000000000⟩ : DateTime)).map toRfc3339) =
      let all := StableSort.largestFirst sessionTime
        ((twoSessions.agentSessions.map
          (plainSession readsBraces "sessions.db" "orgii" twoSessions)).filter
            (FromMark (some ⟨60000000000⟩)))
      (some 5).elim all all.take := by
  refine listSessions_eq readsBraces (by decide) ?_ (by decide) (some 5)
  rintro row member
  have rows : row = sessionRow "s1" "fix it" ⟨0⟩ ∨ row = sessionRow "s2" "test it" ⟨60000000000⟩ :=
    by simpa [twoSessions] using member
  rcases rows with rfl | rfl
  · exact ⟨⟨0⟩, by decide, rfl⟩
  · exact ⟨⟨60000000000⟩, by decide, rfl⟩

theorem twoSessions_grow :
    (formatChunks readsBraces parseRfc3339 toRfc3339 (fun _ => ⟨0⟩) "s1" twoSessions).map
          ActivityChunk.content <+:
        (formatChunks readsBraces parseRfc3339 toRfc3339 (fun _ => ⟨1⟩) "s1"
          twoSessionsGrown).map ActivityChunk.content ∧
      ((formatChunks readsBraces parseRfc3339 toRfc3339 (fun _ => ⟨0⟩) "s1" twoSessions).map
        ActivityChunk.chunkId).Nodup ∧
      CanBeStored (formatChunks readsBraces parseRfc3339 toRfc3339 (fun _ => ⟨0⟩) "s1"
        twoSessions) :=
  formatChunks_of_more_events readsBraces parseRfc3339 toRfc3339 (fun _ => ⟨0⟩) (fun _ => ⟨1⟩)
    rfl rfl (by unfold Later; decide)

end Witness

end BrickTrace.Orgii
