import BrickTrace.Lib.Fallible
import BrickTrace.Lib.LossyText
import BrickTrace.Lib.Rfc3339Years
import BrickTrace.Cli.ComposerSessions

/-!
# The times that a source holds

A source writes a time as a count of milliseconds or seconds, as a text, or not at all.  A
listing turns what it finds into a system time; storing the session and formatting its chunks
turn system times into dates.  A system time holds seconds of 64 bits with a sign, and a date
only the years that the calendar covers.
-/

set_option autoImplicit false

namespace BrickTrace

open Composer (items textAt valueToU64)

namespace SourceTimes

/-! ## System times and dates -/

inductive TimePanic where
  | addDuration
  | dateRange

/-- A length of time, in whole seconds and nanoseconds. -/
structure Duration where
  seconds : UInt64
  nanoseconds : Nat

def Duration.fromSecs (seconds : UInt64) : Duration := ⟨seconds, 0⟩

def Duration.fromMillis (millis : UInt64) : Duration :=
  ⟨millis / 1000, (millis % 1000).toNat * 1000000⟩

/-- `UNIX_EPOCH + duration`; the seconds of a system time are an `i64`. -/
def unixEpochPlus (duration : Duration) : Except TimePanic DateTime :=
  if duration.seconds.toNat < 2 ^ 63 then
    .ok ⟨duration.seconds.toNat * 1000000000 + duration.nanoseconds⟩
  else .error .addDuration

/-- The first second of the year -262143. -/
def firstDateSecond : Int := -8334601228800

/-- The last second of the year 262142. -/
def lastDateSecond : Int := 8210266876799

example : lastDateSecond =
    86400 * (Rfc3339.daysBeforeYear 262143 - Rfc3339.daysBeforeYear 1970 : Nat) - 1 := by decide

/-- A date can be given for the time. -/
def InDateRange (time : DateTime) : Prop :=
  firstDateSecond ≤ time.nanoseconds / 1000000000 ∧
    time.nanoseconds / 1000000000 ≤ lastDateSecond

instance (time : DateTime) : Decidable (InDateRange time) := inferInstanceAs (Decidable (_ ∧ _))

/-- The conversion to `DateTime<Utc>`. -/
def systemTimeToUtc (time : DateTime) : Except TimePanic DateTime :=
  if InDateRange time then .ok time else .error .dateRange

variable (rfc3339 rfc3339Millis : DateTime → String)

def systemTimeToRfc3339 (time : DateTime) : Except TimePanic String :=
  (systemTimeToUtc time).map rfc3339

/-! ## Cursor and Windsurf -/

def valueToSystemTimeMs (value : Json) : Except TimePanic (Option DateTime) :=
  (valueToU64 value).mapM fun millis => unixEpochPlus (.fromMillis millis)

def timeValueToRfc3339 (value : Json) : Except TimePanic (Option String) :=
  match value with
  | .string text => .ok (some text)
  | value => (valueToU64 value).mapM fun millis => do
      systemTimeToRfc3339 rfc3339 (← unixEpochPlus (.fromMillis millis))

/-- The time of a bubble; none is an empty text. -/
def createdAt (bubble : Json) : Except TimePanic String := do
  match (bubble.get "createdAt").or (bubble.get "timestamp") with
  | none => return ""
  | some value => return (← timeValueToRfc3339 rfc3339 value).getD ""

/-! ## OpenCode -/

/-- A value of a SQLite row; a real is given by its bits. -/
inductive SqlValue where
  | null
  | integer (value : Int64)
  | real (bits : UInt64)
  | text (bytes : List UInt8)
  | blob (bytes : List UInt8)

/-- `value as i64`: toward zero and saturating, and zero where it is not a number. -/
def realToI64 (bits : UInt64) : Int64 :=
  let exponent := bits.toNat / 2 ^ 52 % 2048
  let fraction := bits.toNat % 2 ^ 52
  let significand := if exponent = 0 then fraction else 2 ^ 52 + fraction
  let magnitude : Nat :=
    if 1075 ≤ exponent then significand * 2 ^ (exponent - 1075)
    else significand / 2 ^ (1075 - exponent)
  if exponent = 2047 ∧ fraction ≠ 0 then 0
  else if 2 ^ 63 ≤ bits.toNat then Int64.ofInt (max (-2 ^ 63) (-magnitude))
  else Int64.ofInt (min (2 ^ 63 - 1) magnitude)

/-- `text.parse::<i64>()`. -/
def parseI64 (text : String) : Option Int64 :=
  match text.toList with
  | '-' :: digits =>
      if digits ≠ [] ∧ digits.all Char.isDigit ∧ Nat.ofDigitChars 10 digits 0 ≤ 2 ^ 63 then
        some (Int64.ofInt (-Nat.ofDigitChars 10 digits 0))
      else none
  | _ => (Numerals.parseUnsigned (2 ^ 63) text).map fun value => Int64.ofInt value

/-- Small numbers are seconds, all others milliseconds. -/
def systemTimeFromNumber (value : Int64) : Except TimePanic (Option DateTime) :=
  if value < 0 then .ok none
  else
    let unsigned := value.toUInt64
    some <$> unixEpochPlus
      (if 10000000000 < unsigned then .fromMillis unsigned else .fromSecs unsigned)

/-- The instant of a timestamp, to the nanosecond. -/
def parseFromRfc3339 (text : String) : Option DateTime :=
  Composer.sinceToSystemTime (some text)

def systemTimeFromText (text : String) : Except TimePanic (Option DateTime) :=
  match parseFromRfc3339 text with
  | some time => .ok (some time)
  | none =>
      match parseI64 text with
      | some value => systemTimeFromNumber value
      | none => .ok none

def lossyText (bytes : List UInt8) : String := String.ofList (LossyText.decode bytes)

def systemTimeCell : SqlValue → Except TimePanic (Option DateTime)
  | .null => .ok none
  | .integer value => systemTimeFromNumber value
  | .real bits => systemTimeFromNumber (realToI64 bits)
  | .text bytes => systemTimeFromText (lossyText bytes)
  | .blob _ => .ok none

def rfc3339Cell (cell : SqlValue) : Except TimePanic (Option String) := do
  match ← systemTimeCell cell with
  | some time => some <$> systemTimeToRfc3339 rfc3339 time
  | none =>
      match cell with
      | .text bytes => return some (lossyText bytes)
      | _ => return none

/-! ## cursor-agent -/

/-- The milliseconds of an agent's database. -/
def createdAtMs (storeMeta : Json) : Option UInt64 := (storeMeta.get "createdAt").bind Json.decodeU64

/-- Messages have no times of their own; each chunk is a second after the one before. -/
def syntheticTimestamp (baseMs : UInt64) (sequence : Nat) : Except TimePanic String := do
  let millis := min (baseMs.toNat + sequence * 1000) (UInt64.size - 1)
  systemTimeToRfc3339 rfc3339Millis (← unixEpochPlus (.fromMillis (UInt64.ofNat millis)))

def userText (message : Json) : Option String := do
  match ← message.get "content" with
  | .string text => return text
  | content =>
      let joined := "\n".intercalate ((← items content).filterMap (textAt "text"))
      if joined = "" then none else return joined

/-- The parts of a message that become a chunk each. -/
def assistantPartShown (part : Json) : Bool :=
  match textAt "type" part with
  | some "text" | some "reasoning" => (textAt "text" part).any fun text => trim text ≠ ""
  | some "tool-call" => (textAt "toolName" part).isSome
  | _ => false

def assistantChunks (message : Json) : Nat :=
  match message.get "content" with
  | some (.string text) => if trim text = "" then 0 else 1
  | some (.array parts) => (parts.filter assistantPartShown).length
  | _ => 0

def toolResultChunks (message : Json) : Nat :=
  match message.get "content" with
  | some (.array parts) => (parts.filter fun part => textAt "type" part = some "tool-result").length
  | _ => 0

/-- How many chunks a message of a role becomes. -/
def messageChunks (role : String) (message : Json) : Nat :=
  match role with
  | "user" => if (userText message).isSome then 1 else 0
  | "assistant" => assistantChunks message
  | "tool" => toolResultChunks message
  | _ => 0

/-- The times of the chunks of a message, after some chunks; without a role it is skipped. -/
def formatMessage (baseMs : UInt64) (formatted : Nat × List String) (message : Json) :
    Except TimePanic (Nat × List String) :=
  match textAt "role" message with
  | none => return formatted
  | some role => do
      let createdAt ← syntheticTimestamp rfc3339Millis baseMs formatted.1
      let shown := messageChunks role message
      return (formatted.1 + shown, formatted.2 ++ List.replicate shown createdAt)

/-! ## A session of a source -/

/-- What the database of a source holds of one session. -/
inductive SourceRecord where
  /-- The composer, and the bubbles that are found, in order. -/
  | composer (header : Json) (bubbles : List Json)
  /-- The two times of a session row, and the times of the rows of its parts. -/
  | openCode (timeCreated timeUpdated : SqlValue) (parts : List SqlValue)
  /-- The metadata, and the messages that read as JSON, in order. -/
  | cursorAgent (storeMeta : Json) (messages : List Json)

structure SessionTimes where
  modifiedAt : Option DateTime
  sessionCreatedAt : Option DateTime
  sessionUpdatedAt : Option DateTime

/-- The times that a listing gives a session; the file of the database was changed at a time of
its own. -/
def SourceRecord.list (record : SourceRecord) (modified : Option DateTime) :
    Except TimePanic SessionTimes := do
  match record with
  | .composer header _ =>
      let created ← (header.get "createdAt").elim (.ok none) valueToSystemTimeMs
      let updated ← (header.get "lastUpdatedAt").elim (.ok none) valueToSystemTimeMs
      return ⟨modified, created, updated.or created⟩
  | .openCode timeCreated timeUpdated _ =>
      let created ← systemTimeCell timeCreated
      let updated ← systemTimeCell timeUpdated
      return ⟨modified, created, updated.or created⟩
  | .cursorAgent storeMeta _ =>
      let created ← (createdAtMs storeMeta).mapM fun millis => unixEpochPlus (.fromMillis millis)
      return ⟨modified, created, modified⟩

structure StoredTimes where
  sourceMtime : Option DateTime
  sessionCreatedAt : Option DateTime
  sessionUpdatedAt : Option DateTime
  lastSeenAt : DateTime

/-- The times that `source_session_upsert` stores of a session. -/
def SessionTimes.upsert (times : SessionTimes) (now : DateTime) : Except TimePanic StoredTimes := do
  let mtime ← times.modifiedAt.mapM systemTimeToUtc
  let created ← times.sessionCreatedAt.mapM systemTimeToUtc
  let updated ← times.sessionUpdatedAt.mapM systemTimeToUtc
  let lastSeen ← times.sessionUpdatedAt.mapM systemTimeToUtc
  return ⟨mtime, created, updated, (lastSeen.or mtime).getD now⟩

/-- The times of the chunks of a session; a tool call and a message of a bubble have one alike. -/
def SourceRecord.format (record : SourceRecord) : Except TimePanic (List String) :=
  match record with
  | .composer _ bubbles => bubbles.mapM (createdAt rfc3339)
  | .openCode _ _ parts => parts.mapM fun part => return (← rfc3339Cell rfc3339 part).getD ""
  | .cursorAgent storeMeta messages =>
      (messages.foldlM (formatMessage rfc3339Millis ((createdAtMs storeMeta).getD 0)) (0, [])).map
        Prod.snd

/-! ## Milliseconds that a date can be given for -/

/-- The last millisecond of the year 262142. -/
def lastDateMilli : Nat := 8210266876799999

theorem inDateRange_millis_iff (millis : Nat) :
    InDateRange ⟨millis * 1000000⟩ ↔ millis ≤ lastDateMilli := by
  unfold InDateRange firstDateSecond lastDateSecond lastDateMilli
  dsimp only
  omega

theorem inDateRange_seconds {seconds : Nat} (small : seconds ≤ 10000000000) :
    InDateRange ⟨seconds * 1000000000⟩ := by
  unfold InDateRange firstDateSecond lastDateSecond
  dsimp only
  omega

theorem inDateRange_of_parseFromRfc3339 {text : String} {time : DateTime}
    (parsed : parseFromRfc3339 text = some time) : InDateRange time := by
  unfold parseFromRfc3339 Composer.sinceToSystemTime at parsed
  obtain ⟨seconds, isInstant, rfl⟩ := Option.map_eq_some_iff.mp parsed
  have bounds := Rfc3339.instant_bounds isInstant
  have epoch : 86400 * Rfc3339.daysBeforeYear 1970 = 62167219200 := by decide
  dsimp only
  rw [epoch]
  have least : -62167305600000000000 ≤ ((seconds - (62167219200 : Nat)) * 1000000000).floor := by
    rw [Rat.le_floor_iff]
    push_cast
    linarith [bounds.1]
  have most : ((seconds - (62167219200 : Nat)) * 1000000000).floor < 300000000000000000000 := by
    rw [Rat.floor_lt_iff]
    push_cast
    linarith [bounds.2]
  unfold InDateRange firstDateSecond lastDateSecond
  dsimp only
  omega

theorem systemTimeToUtc_ok_iff (time : DateTime) :
    (∃ date, systemTimeToUtc time = .ok date) ↔ InDateRange time := by
  unfold systemTimeToUtc
  by_cases inRange : InDateRange time <;> simp [inRange]

theorem systemTimeToRfc3339_ok_iff (time : DateTime) :
    (∃ text, systemTimeToRfc3339 rfc3339 time = .ok text) ↔ InDateRange time := by
  rw [← systemTimeToUtc_ok_iff]
  exact Fallible.exists_map_eq_ok_iff

/-- Milliseconds of 64 bits never leave the seconds of a system time. -/
theorem unixEpochPlus_fromMillis (millis : UInt64) :
    unixEpochPlus (.fromMillis millis) = .ok ⟨millis.toNat * 1000000⟩ := by
  have below := millis.toNat_lt
  have whole : (millis / 1000).toNat = millis.toNat / 1000 := UInt64.toNat_div ..
  have part : (millis % 1000).toNat = millis.toNat % 1000 := UInt64.toNat_mod ..
  unfold unixEpochPlus Duration.fromMillis
  rw [if_pos (by dsimp only; omega)]
  refine congrArg (fun nanoseconds => Except.ok (DateTime.mk nanoseconds)) ?_
  dsimp only
  omega

theorem unixEpochPlus_fromSecs {seconds : UInt64} (signed : seconds.toNat < 2 ^ 63) :
    unixEpochPlus (.fromSecs seconds) = .ok ⟨seconds.toNat * 1000000000⟩ := by
  unfold unixEpochPlus Duration.fromSecs
  rw [if_pos signed]
  simp

/-! ## Listing -/

/-- What is read of a value that may be absent. -/
def millisOf (value : Option Json) : Option UInt64 := value.bind valueToU64

theorem listMillis (value : Option Json) :
    value.elim (.ok none) valueToSystemTimeMs =
      .ok ((millisOf value).map fun millis => ⟨millis.toNat * 1000000⟩) := by
  cases value with
  | none => rfl
  | some value =>
      unfold millisOf
      simp only [Option.elim_some, Option.bind_some, valueToSystemTimeMs]
      cases valueToU64 value with
      | none => rfl
      | some millis =>
          simp only [Option.mapM_some, unixEpochPlus_fromMillis]
          rfl

/-- The number of a cell that is read as a time; a timestamp is not read as a number. -/
def cellNumber : SqlValue → Option Int64
  | .integer value => some value
  | .real bits => some (realToI64 bits)
  | .text bytes =>
      if (parseFromRfc3339 (lossyText bytes)).isSome then none else parseI64 (lossyText bytes)
  | _ => none

def NumberFits (value : Int64) : Prop := value.toInt ≤ lastDateMilli

theorem systemTimeFromNumber_spec (value : Int64) :
    ∃ time, systemTimeFromNumber value = .ok time ∧
      ((∀ held ∈ time, InDateRange held) ↔ NumberFits value) := by
  unfold systemTimeFromNumber NumberFits
  by_cases negative : value < 0
  · rw [if_pos negative]
    refine ⟨none, rfl, iff_of_true nofun ?_⟩
    have below : value.toInt < 0 := by simpa [Int64.lt_iff_toInt_lt] using negative
    omega
  · rw [if_neg negative]
    have least : (0 : Int64) ≤ value := Int64.not_lt.mp negative
    have isPositive : 0 ≤ value.toInt := by simpa [Int64.le_iff_toInt_le] using least
    have unsigned : value.toUInt64.toNat = value.toInt.toNat := Int64.toNat_toUInt64_of_le least
    have signed : value.toInt < 2 ^ 63 := value.toInt_lt
    by_cases large : 10000000000 < value.toUInt64
    · simp only [if_pos large, unixEpochPlus_fromMillis]
      refine ⟨_, rfl, ?_⟩
      simp only [Option.mem_def, Option.some.injEq, forall_eq', inDateRange_millis_iff]
      omega
    · simp only [if_neg large]
      rw [unixEpochPlus_fromSecs (by omega)]
      have small : value.toUInt64.toNat ≤ 10000000000 := by
        simpa [UInt64.lt_iff_toNat_lt] using large
      refine ⟨_, rfl, iff_of_true ?_ ?_⟩
      · simp only [Option.mem_def, Option.some.injEq, forall_eq']
        exact inDateRange_seconds small
      · unfold lastDateMilli
        omega

/-- The number of a cell fits when it is read as a time. -/
def CellFits (cell : SqlValue) : Prop := ∀ number ∈ cellNumber cell, NumberFits number

theorem systemTimeCell_spec (cell : SqlValue) :
    ∃ time, systemTimeCell cell = .ok time ∧
      ((∀ held ∈ time, InDateRange held) ↔ CellFits cell) := by
  cases cell with
  | null => exact ⟨none, rfl, iff_of_true nofun nofun⟩
  | blob bytes => exact ⟨none, rfl, iff_of_true nofun nofun⟩
  | integer value => simpa [CellFits, cellNumber, systemTimeCell] using systemTimeFromNumber_spec value
  | real bits => simpa [CellFits, cellNumber, systemTimeCell] using systemTimeFromNumber_spec (realToI64 bits)
  | text bytes =>
      simp only [systemTimeCell, systemTimeFromText, CellFits, cellNumber]
      cases parsed : parseFromRfc3339 (lossyText bytes) with
      | some time =>
          refine ⟨some time, rfl, iff_of_true ?_ nofun⟩
          rintro _ ⟨⟩
          exact inDateRange_of_parseFromRfc3339 parsed
      | none =>
          cases parseI64 (lossyText bytes) with
          | none => exact ⟨none, rfl, iff_of_true nofun nofun⟩
          | some value => simpa using systemTimeFromNumber_spec value

def MillisFit (millis : UInt64) : Prop := millis.toNat ≤ lastDateMilli

/-- The times that a session's record holds, and that are stored with it, fit. -/
def SourceRecord.SessionTimesFit : SourceRecord → Prop
  | .composer header _ =>
      (∀ millis ∈ millisOf (header.get "createdAt"), MillisFit millis) ∧
        ∀ millis ∈ millisOf (header.get "lastUpdatedAt"), MillisFit millis
  | .openCode timeCreated timeUpdated _ => CellFits timeCreated ∧ CellFits timeUpdated
  | .cursorAgent storeMeta _ => ∀ millis ∈ createdAtMs storeMeta, MillisFit millis

theorem forall_mem_millis_iff (millis : Option UInt64) :
    (∀ time ∈ millis.map fun millis => DateTime.mk (millis.toNat * 1000000), InDateRange time) ↔
      ∀ held ∈ millis, MillisFit held := by
  cases millis with
  | none => exact iff_of_true nofun nofun
  | some millis => simpa [MillisFit] using inDateRange_millis_iff millis.toNat

theorem forall_mem_or_iff {P : DateTime → Prop} (first second : Option DateTime) :
    ((∀ time ∈ second, P time) ∧ ∀ time ∈ first.or second, P time) ↔
      (∀ time ∈ second, P time) ∧ ∀ time ∈ first, P time := by
  cases first with
  | none => simp
  | some time => simp

/-- A listing never fails, and it lists what a date can be given for exactly when the record
holds nothing else. -/
theorem list_spec (record : SourceRecord) (modified : Option DateTime) :
    ∃ times, record.list modified = .ok times ∧ times.modifiedAt = modified ∧
      ((∀ time ∈ times.sessionCreatedAt, InDateRange time) ∧
          (∀ time ∈ times.sessionUpdatedAt, InDateRange time) ∧
          (∀ time ∈ times.modifiedAt, InDateRange time) ↔
        record.SessionTimesFit ∧ ∀ time ∈ modified, InDateRange time) := by
  cases record with
  | composer header bubbles =>
      simp only [SourceRecord.list, listMillis, SourceRecord.SessionTimesFit]
      refine ⟨_, rfl, rfl, ?_⟩
      rw [← and_assoc, forall_mem_or_iff, forall_mem_millis_iff, forall_mem_millis_iff]
  | openCode timeCreated timeUpdated parts =>
      obtain ⟨created, isCreated, createdFits⟩ := systemTimeCell_spec timeCreated
      obtain ⟨updated, isUpdated, updatedFits⟩ := systemTimeCell_spec timeUpdated
      simp only [SourceRecord.list, isCreated, isUpdated, SourceRecord.SessionTimesFit]
      refine ⟨_, rfl, rfl, ?_⟩
      rw [← and_assoc, forall_mem_or_iff, createdFits, updatedFits]
  | cursorAgent storeMeta messages =>
      simp only [SourceRecord.list, SourceRecord.SessionTimesFit, ← forall_mem_millis_iff]
      cases createdAtMs storeMeta with
      | none => exact ⟨_, rfl, rfl, by simp⟩
      | some millis =>
          simp only [Option.mapM_some, unixEpochPlus_fromMillis]
          exact ⟨_, rfl, rfl, by simp⟩

/-! ## Storing -/

theorem upsert_ok_iff (times : SessionTimes) (now : DateTime) :
    (∃ stored, times.upsert now = .ok stored) ↔
      (∀ time ∈ times.sessionCreatedAt, InDateRange time) ∧
        (∀ time ∈ times.sessionUpdatedAt, InDateRange time) ∧
        ∀ time ∈ times.modifiedAt, InDateRange time := by
  have converts : ∀ time : Option DateTime, (∃ date, time.mapM systemTimeToUtc = .ok date) ↔
      ∀ held ∈ time, InDateRange held := by
    intro time
    rw [Fallible.exists_option_mapM_eq_ok_iff]
    simp only [systemTimeToUtc_ok_iff]
  simp only [← converts]
  unfold SessionTimes.upsert
  constructor
  · rintro ⟨stored, done⟩
    obtain ⟨mtime, isMtime, done⟩ := Fallible.bind_eq_ok_iff.mp done
    obtain ⟨created, isCreated, done⟩ := Fallible.bind_eq_ok_iff.mp done
    obtain ⟨updated, isUpdated, _⟩ := Fallible.bind_eq_ok_iff.mp done
    exact ⟨⟨created, isCreated⟩, ⟨updated, isUpdated⟩, ⟨mtime, isMtime⟩⟩
  · rintro ⟨⟨created, isCreated⟩, ⟨updated, isUpdated⟩, ⟨mtime, isMtime⟩⟩
    simp only [isMtime, isCreated, isUpdated]
    exact ⟨_, rfl⟩

/-! ## Formatting -/

/-- The milliseconds of a bubble; a text is taken as it is. -/
def bubbleMillis (bubble : Json) : Option UInt64 :=
  ((bubble.get "createdAt").or (bubble.get "timestamp")).bind fun value =>
    if (Json.decodeString value).isSome then none else valueToU64 value

/-- With the bind gone first, nothing has to compare a time with the bounds of a date. -/
theorem ok_bind {A B : Type} (value : A) (next : A → Except TimePanic B) :
    (Except.ok value >>= next) = next value := pure_bind value next

theorem timeValueToRfc3339_ok_iff (value : Json) :
    (∃ text, timeValueToRfc3339 rfc3339 value = .ok text) ↔
      ∀ millis ∈ if (Json.decodeString value).isSome then none else valueToU64 value,
        MillisFit millis := by
  have counted : (∃ text, ((valueToU64 value).mapM fun millis => do
      systemTimeToRfc3339 rfc3339 (← unixEpochPlus (.fromMillis millis))) = .ok text) ↔
      ∀ millis ∈ valueToU64 value, MillisFit millis := by
    rw [Fallible.exists_option_mapM_eq_ok_iff]
    simp only [unixEpochPlus_fromMillis, ok_bind, systemTimeToRfc3339_ok_iff,
      inDateRange_millis_iff, MillisFit]
  unfold timeValueToRfc3339
  cases value with
  | string text => exact iff_of_true ⟨some text, rfl⟩ nofun
  | _ => exact counted

theorem createdAt_ok_iff (bubble : Json) :
    (∃ text, createdAt rfc3339 bubble = .ok text) ↔
      ∀ millis ∈ bubbleMillis bubble, MillisFit millis := by
  unfold createdAt bubbleMillis
  cases (bubble.get "createdAt").or (bubble.get "timestamp") with
  | none => exact iff_of_true ⟨"", rfl⟩ nofun
  | some value =>
      rw [Option.bind_some, ← timeValueToRfc3339_ok_iff rfc3339]
      exact Fallible.exists_map_eq_ok_iff

theorem rfc3339Cell_ok_iff (cell : SqlValue) :
    (∃ text, rfc3339Cell rfc3339 cell = .ok text) ↔ CellFits cell := by
  obtain ⟨time, isTime, fits⟩ := systemTimeCell_spec cell
  rw [← fits]
  unfold rfc3339Cell
  simp only [isTime]
  cases time with
  | none =>
      refine iff_of_true ?_ nofun
      cases cell <;> exact ⟨_, rfl⟩
  | some time =>
      simp only [Option.mem_def, Option.some.injEq, forall_eq', ← systemTimeToRfc3339_ok_iff rfc3339]
      exact Fallible.exists_map_eq_ok_iff

theorem syntheticTimestamp_ok_iff (baseMs : UInt64) (sequence : Nat) :
    (∃ text, syntheticTimestamp rfc3339Millis baseMs sequence = .ok text) ↔
      baseMs.toNat + sequence * 1000 ≤ lastDateMilli := by
  unfold syntheticTimestamp
  simp only [unixEpochPlus_fromMillis, ok_bind]
  have below : min (baseMs.toNat + sequence * 1000) (UInt64.size - 1) < UInt64.size := by
    have positive : 0 < UInt64.size := by decide
    omega
  have saturated : (UInt64.ofNat (min (baseMs.toNat + sequence * 1000) (UInt64.size - 1))).toNat =
      min (baseMs.toNat + sequence * 1000) (UInt64.size - 1) := UInt64.toNat_ofNat_of_lt' below
  refine (systemTimeToRfc3339_ok_iff rfc3339Millis _).trans ?_
  rw [saturated, inDateRange_millis_iff]
  have last : lastDateMilli < UInt64.size - 1 := by decide
  omega

/-- The chunks of a message, which has none without a role. -/
def shownChunks (message : Json) : Nat :=
  (textAt "role" message).elim 0 fun role => messageChunks role message

/-- Each message that has a role has a time that fits, a second later for each chunk before it. -/
def MessagesFit (baseMs : UInt64) (sequence : Nat) (messages : List Json) : Prop :=
  ∀ before message after, messages = before ++ message :: after →
    (textAt "role" message).isSome →
      baseMs.toNat + (sequence + (before.map shownChunks).sum) * 1000 ≤ lastDateMilli

theorem messagesFit_cons {baseMs : UInt64} {sequence : Nat} {message : Json} {rest : List Json} :
    MessagesFit baseMs sequence (message :: rest) ↔
      ((textAt "role" message).isSome → baseMs.toNat + sequence * 1000 ≤ lastDateMilli) ∧
        MessagesFit baseMs (sequence + shownChunks message) rest := by
  constructor
  · intro fits
    refine ⟨fun hasRole => by simpa using fits [] message rest rfl hasRole, ?_⟩
    intro before later after isRest hasRole
    have one := fits (message :: before) later after (by rw [isRest]; rfl) hasRole
    rwa [List.map_cons, List.sum_cons, ← Nat.add_assoc] at one
  · rintro ⟨first, others⟩ before later after whole hasRole
    cases before with
    | nil =>
        cases whole
        simpa using first hasRole
    | cons head before =>
        obtain ⟨rfl, isRest⟩ := List.cons.inj whole
        have one := others before later after isRest hasRole
        rwa [List.map_cons, List.sum_cons, ← Nat.add_assoc]

theorem formatMessage_fst {baseMs : UInt64} {formatted after : Nat × List String} {message : Json}
    (done : formatMessage rfc3339Millis baseMs formatted message = .ok after) :
    after.1 = formatted.1 + shownChunks message := by
  unfold formatMessage at done
  unfold shownChunks
  cases isRole : textAt "role" message with
  | none =>
      rw [isRole] at done
      cases done
      rfl
  | some role =>
      rw [isRole] at done
      obtain ⟨createdAt, _, done⟩ := Fallible.bind_eq_ok_iff.mp done
      cases done
      rfl

theorem formatMessage_ok_iff (baseMs : UInt64) (formatted : Nat × List String) (message : Json) :
    (∃ after, formatMessage rfc3339Millis baseMs formatted message = .ok after) ↔
      ((textAt "role" message).isSome → baseMs.toNat + formatted.1 * 1000 ≤ lastDateMilli) := by
  unfold formatMessage
  cases textAt "role" message with
  | none => exact iff_of_true ⟨formatted, rfl⟩ nofun
  | some role =>
      rw [imp_iff_right Option.isSome_some, ← syntheticTimestamp_ok_iff rfc3339Millis]
      exact Fallible.exists_map_eq_ok_iff

theorem foldlM_formatMessage_ok_iff (baseMs : UInt64) (messages : List Json)
    (formatted : Nat × List String) :
    (∃ done, messages.foldlM (formatMessage rfc3339Millis baseMs) formatted = .ok done) ↔
      MessagesFit baseMs formatted.1 messages := by
  induction messages generalizing formatted with
  | nil =>
      refine iff_of_true ⟨formatted, rfl⟩ ?_
      rintro before _ _ absent
      cases before <;> cases absent
  | cons message rest ih =>
      rw [messagesFit_cons, ← formatMessage_ok_iff rfc3339Millis, List.foldlM_cons]
      constructor
      · rintro ⟨done, all⟩
        obtain ⟨after, first, others⟩ := Fallible.bind_eq_ok_iff.mp all
        rw [← formatMessage_fst rfc3339Millis first]
        exact ⟨⟨after, first⟩, (ih after).mp ⟨done, others⟩⟩
      · rintro ⟨⟨after, first⟩, others⟩
        rw [← formatMessage_fst rfc3339Millis first] at others
        obtain ⟨done, all⟩ := (ih after).mpr others
        exact ⟨done, Fallible.bind_eq_ok_iff.mpr ⟨after, first, all⟩⟩

/-- The times that the chunks of a record are formatted with fit. -/
def SourceRecord.ChunkTimesFit : SourceRecord → Prop
  | .composer _ bubbles => ∀ bubble ∈ bubbles, ∀ millis ∈ bubbleMillis bubble, MillisFit millis
  | .openCode _ _ parts => ∀ part ∈ parts, CellFits part
  | .cursorAgent storeMeta messages => MessagesFit ((createdAtMs storeMeta).getD 0) 0 messages

theorem format_ok_iff (record : SourceRecord) :
    (∃ texts, record.format rfc3339 rfc3339Millis = .ok texts) ↔ record.ChunkTimesFit := by
  cases record with
  | composer header bubbles =>
      simp only [SourceRecord.format, SourceRecord.ChunkTimesFit,
        Fallible.exists_mapM_eq_ok_iff, createdAt_ok_iff]
  | openCode timeCreated timeUpdated parts =>
      simp only [SourceRecord.format, SourceRecord.ChunkTimesFit, Fallible.exists_mapM_eq_ok_iff,
        ← rfc3339Cell_ok_iff rfc3339]
      exact forall₂_congr fun part _ => Fallible.exists_map_eq_ok_iff
  | cursorAgent storeMeta messages =>
      unfold SourceRecord.format SourceRecord.ChunkTimesFit
      rw [Fallible.exists_map_eq_ok_iff, foldlM_formatMessage_ok_iff]

/-! ## A session's times through the refresh -/

/-- Listing a session never panics.  Storing it and formatting its chunks panic exactly when they
come to a time that is after the last millisecond that a date can be given for. -/
theorem times_convert_iff (record : SourceRecord) (modified : Option DateTime) (now : DateTime) :
    (∃ times, record.list modified = .ok times ∧
      ((∃ stored, times.upsert now = .ok stored) ↔
        record.SessionTimesFit ∧ ∀ time ∈ modified, InDateRange time)) ∧
    ((∃ texts, record.format rfc3339 rfc3339Millis = .ok texts) ↔ record.ChunkTimesFit) := by
  obtain ⟨times, listed, _, fits⟩ := list_spec record modified
  exact ⟨⟨times, listed, (upsert_ok_iff times now).trans fits⟩, format_ok_iff _ _ record⟩

/-- In each database one number, or one text with a number, that no date can be given for. -/
theorem far_times_panic :
    (∃ times, (SourceRecord.composer (.object [("createdAt", .string "8210266876800000")])
          []).list none = .ok times ∧ ∀ now, times.upsert now = .error .dateRange) ∧
      (SourceRecord.composer .null [.object [("createdAt", Json.encodeU64 8210266876800000)]]).format
        (fun _ => "") (fun _ => "") = .error .dateRange ∧
      (SourceRecord.openCode .null .null [.integer 9223372036854775807]).format
        (fun _ => "") (fun _ => "") = .error .dateRange ∧
      (SourceRecord.cursorAgent (.object [("createdAt", Json.encodeU64 18446744073709551615)])
        [.object [("role", .string "user")]]).format (fun _ => "") (fun _ => "") =
          .error .dateRange := by
  refine ⟨⟨⟨none, some ⟨8210266876800000000000⟩, some ⟨8210266876800000000000⟩⟩, ?_, ?_⟩, ?_, ?_, ?_⟩
  · rfl
  · intro now
    rfl
  · rfl
  · rfl
  · rfl

end SourceTimes

end BrickTrace
