import BrickTrace.Lib.Json
import BrickTrace.Lib.LossyText
import BrickTrace.Protocol.Text

/-!
# Liveness of a session

Whether a turn of a session is open is told by the last records of its transcript.  Only so many
bytes at the end of the file are read for it.
-/

set_option autoImplicit false

namespace BrickTrace

inductive Liveness where
  | active
  | idle
  | unknown
deriving DecidableEq

def tailBytes : Nat := 16 * 1024

/-- The complete lines among the last bytes of a file.  The first line is taken for a fragment
unless the file is read from its start. -/
def tailLines (file : List UInt8) : List String :=
  let start := file.length - tailBytes
  let buffer := file.drop start
  let lines := textLines (String.ofList (LossyText.decode buffer))
  let lines := if 0 < start then lines.tail else lines
  if buffer.getLast? ≠ some 10 then lines.dropLast else lines

section Records
variable (parseJson : String → Option Json)

/-- `none` is a file that cannot be read. -/
def tailJson (file : Option (List UInt8)) : Option (List Json) :=
  file.map fun file => (tailLines file).filterMap parseJson

/-! ## Codex -/

def codexPayloadType (value : Json) : Option String :=
  (((value.get "payload").bind (·.get "type")).bind Json.decodeString).or
    ((value.get "type").bind Json.decodeString)

/-- The places of the last records that start and complete a turn. -/
structure LastTurns where
  started : Option Nat
  complete : Option Nat

def noteRecord (last : LastTurns) (entry : Json × Nat) : LastTurns :=
  match codexPayloadType entry.1 with
  | some "task_started" => { last with started := some entry.2 }
  | some "task_complete" => { last with complete := some entry.2 }
  | _ => last

def LastTurns.live (last : LastTurns) : Bool :=
  match last.started, last.complete with
  | some started, some complete => complete < started
  | some _, none => true
  | _, _ => false

def lastTurns (values : List Json) : LastTurns := values.zipIdx.foldl noteRecord ⟨none, none⟩

def probeCodex (file : Option (List UInt8)) : Option Liveness :=
  (tailJson parseJson file).map fun values =>
    if (lastTurns values).live then .active else .idle

end Records

/-! ## Open turns -/

/-- Some record starts a turn, and no record after it completes one. -/
def TurnOpen (values : List Json) : Prop :=
  ∃ before value after, values = before ++ value :: after ∧
    codexPayloadType value = some "task_started" ∧
      ∀ other ∈ after, codexPayloadType other ≠ some "task_complete"

def IsTurnMark (value : Json) : Prop :=
  codexPayloadType value = some "task_started" ∨ codexPayloadType value = some "task_complete"

theorem turnOpen_append (first second : List Json) :
    TurnOpen (first ++ second) ↔ TurnOpen second ∨
      TurnOpen first ∧ ∀ value ∈ second, codexPayloadType value ≠ some "task_complete" := by
  constructor
  · rintro ⟨before, value, after, whole, starts, uncompleted⟩
    obtain ⟨more, rfl, rest⟩ | ⟨more, rfl, rest⟩ := List.append_eq_append_iff.mp whole
    · exact Or.inl ⟨more, value, after, rest, starts, uncompleted⟩
    · cases more with
      | nil => exact Or.inl ⟨[], value, after, rest.symm, starts, uncompleted⟩
      | cons item others =>
          rw [List.cons_append] at rest
          obtain ⟨rfl, rfl⟩ := List.cons.inj rest
          refine Or.inr ⟨⟨before, value, others, rfl, starts, ?_⟩, ?_⟩
          · exact fun other member => uncompleted other (List.mem_append_left _ member)
          · exact fun other member => uncompleted other (List.mem_append_right _ member)
  · rintro (⟨before, value, after, rfl, starts, uncompleted⟩ |
      ⟨⟨before, value, after, rfl, starts, uncompleted⟩, quiet⟩)
    · exact ⟨first ++ before, value, after, by rw [List.append_assoc], starts, uncompleted⟩
    · refine ⟨before, value, after ++ second, by simp, starts, ?_⟩
      intro other member
      obtain member | member := List.mem_append.mp member
      · exact uncompleted other member
      · exact quiet other member

theorem not_turnOpen_nil : ¬ TurnOpen [] := by
  rintro ⟨before, value, after, whole, _⟩
  cases before <;> cases whole

theorem turnOpen_singleton (value : Json) :
    TurnOpen [value] ↔ codexPayloadType value = some "task_started" := by
  constructor
  · rintro ⟨before, found, after, whole, starts, _⟩
    cases before with
    | nil =>
        obtain ⟨rfl, _⟩ := List.cons.inj whole
        exact starts
    | cons item others =>
        have := (List.cons.inj whole).2
        cases others <;> cases this
  · exact fun starts => ⟨[], value, [], rfl, starts, fun _ member => nomatch member⟩

/-- The places found are places of the list, and the later one tells whether a turn is open. -/
theorem live_lastTurns (values : List Json) :
    ((∀ place ∈ (lastTurns values).started, place < values.length) ∧
      ∀ place ∈ (lastTurns values).complete, place < values.length) ∧
      ((lastTurns values).live = true ↔ TurnOpen values) := by
  induction values using List.reverseRecOn with
  | nil => exact ⟨⟨nofun, nofun⟩, iff_of_false Bool.false_ne_true not_turnOpen_nil⟩
  | append_singleton values value ih =>
      obtain ⟨⟨startedBelow, completeBelow⟩, open_iff⟩ := ih
      have step : lastTurns (values ++ [value]) = noteRecord (lastTurns values)
          (value, values.length) := by
        unfold lastTurns
        rw [List.zipIdx_append, List.foldl_append, Nat.zero_add]
        rfl
      rw [step, turnOpen_append, turnOpen_singleton, List.length_append, List.length_singleton]
      have later : ∀ {place : Option Nat}, (∀ held ∈ place, held < values.length) →
          ∀ held ∈ place, held < values.length + 1 :=
        fun below held member => Nat.lt_succ_of_lt (below held member)
      have here : ∀ held ∈ some values.length, held < values.length + 1 := by
        rintro held ⟨⟩
        exact Nat.lt_succ_self _
      unfold noteRecord
      split
      · rename_i starts
        refine ⟨⟨here, later completeBelow⟩, iff_of_true ?_ (Or.inl starts)⟩
        unfold LastTurns.live
        cases completed : (lastTurns values).complete with
        | none => rfl
        | some place => exact decide_eq_true (completeBelow place completed)
      · rename_i completes
        refine ⟨⟨later startedBelow, here⟩, iff_of_false ?_ ?_⟩
        · unfold LastTurns.live
          cases started : (lastTurns values).started with
          | none => exact Bool.false_ne_true
          | some place =>
              have below := startedBelow place started
              simp only [decide_eq_true_eq]
              omega
        · simp [completes]
      · rename_i notStarts notCompletes
        refine ⟨⟨later startedBelow, later completeBelow⟩, open_iff.trans ?_⟩
        have quiet : codexPayloadType value ≠ some "task_started" := notStarts
        have running : codexPayloadType value ≠ some "task_complete" := notCompletes
        simp [quiet, running]

/-- A part of the records tells the same as all of them exactly when it shows something of an open
turn. -/
theorem turnOpen_part_iff (earlier values : List Json) :
    (TurnOpen values ↔ TurnOpen (earlier ++ values)) ↔
      (TurnOpen (earlier ++ values) → ∃ value ∈ values, IsTurnMark value) := by
  constructor
  · intro same isOpen
    obtain ⟨before, value, after, rfl, starts, _⟩ := same.mpr isOpen
    exact ⟨value, by simp, Or.inl starts⟩
  · intro shown
    refine ⟨fun isOpen => (turnOpen_append ..).mpr (Or.inl isOpen), fun isOpen => ?_⟩
    obtain ⟨value, member, mark⟩ := shown isOpen
    obtain later | ⟨_, quiet⟩ := (turnOpen_append ..).mp isOpen
    · exact later
    · obtain ⟨before, after, rfl⟩ := List.append_of_mem member
      obtain starts | completes := mark
      · exact ⟨before, value, after, rfl, starts,
          fun other inside => quiet other (by simp [inside])⟩
      · exact absurd completes (quiet value member)

/-! ## The end of a transcript -/

/-- The lines of a whole file. -/
def fileLines (file : List UInt8) : List String :=
  textLines (String.ofList (LossyText.decode file))

/-- The file is a sequence of lines, all of them with their line feed. -/
def CompleteLines (file : List UInt8) : Prop := ∀ last ∈ file.getLast?, last = 10

/-- The lines that start within the last bytes, the first of them excepted: all of a short file,
and of a long one what stands after the first line feed there. -/
def window (file : List UInt8) : List UInt8 :=
  if file.length ≤ tailBytes then file
  else ((file.drop (file.length - tailBytes)).dropWhile (· ≠ 10)).tail

/-- The last bytes of a long file of complete lines end in a line feed. -/
theorem getLast?_buffer {file : List UInt8} (complete : CompleteLines file)
    (long : tailBytes < file.length) :
    (file.drop (file.length - tailBytes)).getLast? = some 10 := by
  rw [List.getLast?_drop, if_neg (by unfold tailBytes at *; omega)]
  cases last : file.getLast? with
  | none =>
      rw [List.getLast?_eq_none_iff.mp last] at long
      exact absurd long (Nat.not_lt_zero _)
  | some byte => rw [complete byte last]

theorem window_of_long {file : List UInt8} (complete : CompleteLines file)
    (long : tailBytes < file.length) :
    ∃ front, 10 ∉ front ∧
      file.drop (file.length - tailBytes) = front ++ 10 :: window file := by
  have last := getLast?_buffer complete long
  obtain ⟨front, rest, split, unmarked⟩ :=
    List.eq_append_cons_of_mem (List.mem_of_getLast? last)
  refine ⟨front, unmarked, ?_⟩
  have passed : ∀ byte ∈ front, decide (byte ≠ 10) = true := fun byte member =>
    decide_eq_true fun same => unmarked (same ▸ member)
  rw [window, if_neg (Nat.not_le_of_lt long), split, List.dropWhile_append_of_pos passed]
  rfl

theorem decode_line (front rest : List UInt8) :
    ∃ text, ('\n' ∈ text → 10 ∈ front) ∧
      LossyText.decode (front ++ 10 :: rest) = text ++ '\n' :: LossyText.decode rest :=
  LossyText.decodeAfter_line front (Nat.zero_le _) rest

/-- What is read of a file of complete lines is the lines of its window. -/
theorem tailLines_eq {file : List UInt8} (complete : CompleteLines file) :
    tailLines file = fileLines (window file) := by
  unfold tailLines
  by_cases long : tailBytes < file.length
  · obtain ⟨front, unmarked, split⟩ := window_of_long complete long
    obtain ⟨text, marked, decoded⟩ := decode_line front (window file)
    have read : textLines (String.ofList (LossyText.decode (front ++ 10 :: window file))) =
        String.ofList (lineContent text) :: fileLines (window file) := by
      rw [decoded, textLines, String.toList_ofList,
        readLines_append_newline fun member => unmarked (marked member)]
      unfold fileLines textLines
      rw [String.toList_ofList]
      rfl
    have last := getLast?_buffer complete long
    simp only [last, ne_eq, not_true_eq_false, if_false]
    rw [if_pos (Nat.sub_pos_of_lt long), split, read]
    rfl
  · have short := Nat.le_of_not_lt long
    have start : file.length - tailBytes = 0 := Nat.sub_eq_zero_of_le short
    simp only [start, List.drop_zero, Nat.lt_irrefl, if_false]
    rw [window, if_pos short]
    cases last : file.getLast? with
    | none =>
        rw [List.getLast?_eq_none_iff.mp last]
        rfl
    | some byte =>
        rw [complete byte last]
        rfl

theorem fileLines_eq_append {file : List UInt8} (complete : CompleteLines file) :
    ∃ earlier, fileLines file = earlier ++ fileLines (window file) := by
  by_cases long : tailBytes < file.length
  · obtain ⟨front, _, split⟩ := window_of_long complete long
    have whole : file = (file.take (file.length - tailBytes) ++ front) ++ 10 :: window file := by
      rw [List.append_assoc, ← split, List.take_append_drop]
    obtain ⟨text, _, decoded⟩ :=
      decode_line (file.take (file.length - tailBytes) ++ front) (window file)
    rw [← whole] at decoded
    refine ⟨readLines [] (text ++ ['\n']), ?_⟩
    unfold fileLines textLines
    rw [String.toList_ofList, String.toList_ofList, decoded, readLines_append_of_newline]
  · refine ⟨[], ?_⟩
    rw [window, if_pos (Nat.le_of_not_lt long), List.nil_append]

section Probe
variable (parseJson : String → Option Json)

/-- The records of a whole transcript. -/
def transcriptRecords (file : List UInt8) : List Json := (fileLines file).filterMap parseJson

theorem probeCodex_eq {file : List UInt8} (complete : CompleteLines file) :
    probeCodex parseJson (some file) =
      some (if (lastTurns (transcriptRecords parseJson (window file))).live then .active
        else .idle) := by
  unfold probeCodex tailJson
  rw [Option.map_some, Option.map_some, tailLines_eq complete]
  rfl

theorem probeCodex_eq_active_iff {file : List UInt8} (complete : CompleteLines file) :
    probeCodex parseJson (some file) = some .active ↔
      TurnOpen (transcriptRecords parseJson (window file)) := by
  rw [probeCodex_eq parseJson complete, Option.some_inj,
    ← (live_lastTurns (transcriptRecords parseJson (window file))).2]
  cases (lastTurns (transcriptRecords parseJson (window file))).live <;> decide

/-- The probe tells whether a turn of the whole transcript is open exactly when, if one is, a
record that starts or completes a turn lies in the window. -/
theorem probe_agrees_iff {file : List UInt8} (complete : CompleteLines file) :
    (probeCodex parseJson (some file) = some .active ↔
        TurnOpen (transcriptRecords parseJson file)) ↔
      (TurnOpen (transcriptRecords parseJson file) →
        ∃ value ∈ transcriptRecords parseJson (window file), IsTurnMark value) := by
  obtain ⟨earlier, whole⟩ := fileLines_eq_append complete
  rw [probeCodex_eq_active_iff parseJson complete]
  have records : transcriptRecords parseJson file =
      earlier.filterMap parseJson ++ transcriptRecords parseJson (window file) := by
    unfold transcriptRecords
    rw [whole, List.filterMap_append]
  rw [records]
  exact turnOpen_part_iff _ _

end Probe

/-! ## A turn that writes much -/

theorem fileLines_bytes (text : String) : fileLines (NulFields.bytes text) = textLines text := by
  have decoded := LossyText.decode_bytes_append text []
  rw [List.append_nil] at decoded
  unfold fileLines
  rw [decoded]
  change textLines (String.ofList (text.toList ++ [])) = textLines text
  rw [List.append_nil, String.ofList_toList]

def startedLine : String := "\x7b\"payload\":\x7b\"type\":\"task_started\"\x7d\x7d"

def longText : String := String.ofList (List.replicate 16384 'a')

theorem toList_longText : longText.toList = List.replicate 16384 'a' := String.toList_ofList

def messageLine : String :=
  "\x7b\"payload\":\x7b\"type\":\"message\",\"text\":\"" ++ longText ++ "\"\x7d\x7d"

def startedRecord : Json := .object [("payload", .object [("type", .string "task_started")])]

def messageRecord : Json :=
  .object [("payload", .object [("type", .string "message"), ("text", .string longText)])]

/-- What the two lines hold. -/
def turnJson (line : String) : Option Json :=
  if line = startedLine then some startedRecord
  else if line = messageLine then some messageRecord
  else none

def shortTurn : List UInt8 := NulFields.bytes (startedLine ++ "\n")

def longTurn : List UInt8 := NulFields.bytes (startedLine ++ "\n" ++ (messageLine ++ "\n"))

theorem records_shortTurn : transcriptRecords turnJson shortTurn = [startedRecord] := by
  unfold transcriptRecords shortTurn
  rw [fileLines_bytes]
  rfl

theorem completeLines_bytes (text : String) : CompleteLines (NulFields.bytes (text ++ "\n")) := by
  intro last found
  rw [NulFields.bytes_append] at found
  change (NulFields.bytes text ++ [10]).getLast? = some last at found
  rw [List.getLast?_concat] at found
  exact (Option.some.inj found).symm

theorem probe_agrees_on_shortTurn :
    probeCodex turnJson (some shortTurn) = some .active ↔
      TurnOpen (transcriptRecords turnJson shortTurn) := by
  refine (probe_agrees_iff turnJson (completeLines_bytes startedLine)).mpr fun _ => ?_
  have whole : window shortTurn = shortTurn := by
    rw [window, if_pos (by decide +kernel)]
  change ∃ value ∈ transcriptRecords turnJson (window shortTurn), IsTurnMark value
  rw [whole, records_shortTurn]
  exact ⟨startedRecord, List.mem_singleton_self _, Or.inl rfl⟩

theorem length_le_length_bytes (text : String) :
    text.toList.length ≤ (NulFields.bytes text).length := by
  unfold NulFields.bytes
  induction text.toList with
  | nil => exact Nat.le_refl _
  | cons char rest ih =>
      rw [List.flatMap_cons, List.length_append, List.length_cons, String.length_utf8EncodeChar]
      have := char.utf8Size_pos
      omega

/-- Nothing is left of the window where the last line alone is longer. -/
theorem window_eq_nil {front : List UInt8} {text : String} (free : '\n' ∉ text.toList)
    (long : tailBytes ≤ text.toList.length) :
    window (front ++ NulFields.bytes (text ++ "\n")) = [] := by
  have unmarked : 10 ∉ NulFields.bytes text := LossyText.newline_notMem_bytes free
  have line_long := Nat.le_trans long (length_le_length_bytes text)
  rw [NulFields.bytes_append]
  change window (front ++ (NulFields.bytes text ++ [10])) = []
  generalize NulFields.bytes text = line at unmarked line_long
  have length_eq : (front ++ (line ++ [10])).length = front.length + line.length + 1 := by
    rw [List.length_append, List.length_append, List.length_singleton, Nat.add_assoc]
  have start : front.length + line.length + 1 - tailBytes =
      front.length + (line.length + 1 - tailBytes) := by omega
  have positive : 0 < tailBytes := by decide
  have buffer : (front ++ (line ++ [10])).drop (front.length + line.length + 1 - tailBytes) =
      line.drop (line.length + 1 - tailBytes) ++ [10] := by
    rw [start, List.drop_length_add_append, List.drop_append_of_le_length (by omega)]
  rw [window, if_neg (by omega), length_eq, buffer, List.dropWhile_append_of_pos]
  · rfl
  · intro byte member
    exact decide_eq_true fun same => unmarked (same ▸ List.mem_of_mem_drop member)

theorem newline_notMem_messageLine : '\n' ∉ messageLine.toList := by
  unfold messageLine
  rw [String.toList_append, String.toList_append, toList_longText, List.mem_append,
    List.mem_append, not_or, not_or]
  refine ⟨⟨by decide, ?_⟩, by decide⟩
  rw [List.mem_replicate]
  rintro ⟨_, same⟩
  exact absurd same (by decide)

theorem tailBytes_le_messageLine : tailBytes ≤ messageLine.toList.length := by
  unfold messageLine
  rw [String.toList_append, String.toList_append, toList_longText, List.length_append,
    List.length_append, List.length_replicate]
  unfold tailBytes
  omega

/-- A text that ends neither in a carriage return nor has a line feed is a line of a file. -/
def IsLine (line : String) : Prop := '\n' ∉ line.toList ∧ line.toList.getLast? ≠ some '\r'

theorem fileLines_two {first second : String} (firstLine : IsLine first)
    (secondLine : IsLine second) :
    fileLines (NulFields.bytes (first ++ "\n" ++ (second ++ "\n"))) = [first, second] := by
  have content : ∀ {line : String}, IsLine line →
      String.ofList (lineContent line.toList) = line := by
    rintro line ⟨_, ending⟩
    rw [lineContent, if_neg ending, String.ofList_toList]
  have joined : first ++ "\n" ++ (second ++ "\n") =
      String.join ([first, second].map fun line => line ++ "\n") := by
    simp [String.join]
  rw [fileLines_bytes, joined, textLines_join, List.map_cons, List.map_cons, List.map_nil,
    content firstLine, content secondLine]
  intro line member
  obtain rfl | rfl : line = first ∨ line = second := by simpa using member
  · exact firstLine.1
  · exact secondLine.1

theorem isLine_messageLine : IsLine messageLine := by
  refine ⟨newline_notMem_messageLine, ?_⟩
  unfold messageLine
  rw [String.toList_append, List.getLast?_append]
  decide

theorem messageLine_ne_startedLine : messageLine ≠ startedLine := by
  intro same
  have long := tailBytes_le_messageLine
  rw [same] at long
  exact absurd long (by decide)

/-- A turn is idle to the probe as soon as it has written so much after its start. -/
theorem long_turn_idle :
    CompleteLines longTurn ∧ TurnOpen (transcriptRecords turnJson longTurn) ∧
      probeCodex turnJson (some longTurn) = some .idle := by
  have complete : CompleteLines longTurn := by
    unfold longTurn
    rw [← String.append_assoc]
    exact completeLines_bytes _
  refine ⟨complete, ?_, ?_⟩
  · have lines : fileLines longTurn = [startedLine, messageLine] :=
      fileLines_two ⟨by decide, by decide⟩ isLine_messageLine
    unfold transcriptRecords
    rw [lines]
    refine ⟨[], startedRecord, [messageRecord], ?_, rfl, ?_⟩
    · simp [turnJson, messageLine_ne_startedLine]
    · intro record member
      rw [List.mem_singleton.mp member]
      decide
  · have nothing : window longTurn = [] := by
      unfold longTurn
      rw [NulFields.bytes_append]
      exact window_eq_nil newline_notMem_messageLine tailBytes_le_messageLine
    rw [probeCodex_eq turnJson complete, nothing]
    rfl

end BrickTrace
