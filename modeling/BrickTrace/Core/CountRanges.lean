import BrickTrace.Core.BlameWorking

/-!
# Sums of decoded counts

Counts and line numbers are whatever a client or another program wrote.  Three places add them
without a check: the totals of a captured diff, the last line of a hunk, and the tokens that one
record of a transcript used as input.
-/

set_option autoImplicit false

namespace BrickTrace

/-! ## Tokens of a transcript -/

def tokenValue (value : Json) (key : String) : UInt64 :=
  ((value.get key).bind Json.decodeU64).getD 0

/-- `left.saturating_add(right)`. -/
def saturatingAdd (left right : UInt64) : UInt64 :=
  if left.toNat + right.toNat < UInt64.size then left + right else UInt64.ofNat (UInt64.size - 1)

/-- The counts of a transcript so far; a count is kept once it was seen. -/
structure TokenCounts where
  input : UInt64
  output : UInt64
  sawInput : Bool
  sawOutput : Bool

/-- The record of what a message used, where it has one. -/
def messageUsage (value : Json) : Option Json :=
  (value.get "message").bind fun message => message.get "usage"

def addUsage (mode : OverflowMode) (counts : TokenCounts) (usage : Json) :
    Except BlamePanic TokenCounts := do
  let read ← addU64 mode (tokenValue usage "input_tokens")
    (tokenValue usage "cache_read_input_tokens")
  let currentInput ← addU64 mode read (tokenValue usage "cache_creation_input_tokens")
  let currentOutput := tokenValue usage "output_tokens"
  return {
    input := if 0 < currentInput then saturatingAdd counts.input currentInput else counts.input
    output := if 0 < currentOutput then saturatingAdd counts.output currentOutput else counts.output
    sawInput := counts.sawInput || decide (0 < currentInput)
    sawOutput := counts.sawOutput || decide (0 < currentOutput) }

def addRecordTokens (mode : OverflowMode) (counts : TokenCounts) (value : Json) :
    Except BlamePanic TokenCounts :=
  match messageUsage value with
  | some usage => addUsage mode counts usage
  | none => return counts

/-- The input and output tokens of the records of a transcript. -/
def sessionTokens (mode : OverflowMode) (values : List Json) :
    Except BlamePanic (Option UInt64 × Option UInt64) := do
  let counts ← values.foldlM (addRecordTokens mode) ⟨0, 0, false, false⟩
  return (if counts.sawInput then some counts.input else none,
    if counts.sawOutput then some counts.output else none)

/-! ## Checked sums -/

theorem addU64_checked_ok_iff (left right : UInt64) :
    (∃ sum, addU64 .checked left right = .ok sum) ↔ left.toNat + right.toNat < UInt64.size := by
  unfold addU64
  by_cases fits : left.toNat + right.toNat < UInt64.size
  · simp [fits]
  · simp [fits]

theorem addU64_checked_ok {left right sum : UInt64} (added : addU64 .checked left right = .ok sum) :
    sum.toNat = left.toNat + right.toNat := by
  unfold addU64 at added
  simp only at added
  split at added
  · rename_i fits
    cases added
    rw [UInt64.toNat_add]
    exact Nat.mod_eq_of_lt fits
  · cases added

/-- The sum of decoded counts. -/
def total (values : List UInt64) : Nat := (values.map UInt64.toNat).sum

theorem foldlM_checked_ok_iff {E : Type} {failure : E} (values : List UInt64) (start : UInt64) :
    (∃ sum, values.foldlM (fun total value =>
        if total.toNat + value.toNat < UInt64.size then Except.ok (total + value)
        else .error failure) start = .ok sum) ↔ start.toNat + total values < UInt64.size := by
  induction values generalizing start with
  | nil =>
      refine iff_of_true ⟨start, rfl⟩ ?_
      exact start.toNat_lt
  | cons value rest ih =>
      have total_cons : total (value :: rest) = value.toNat + total rest := rfl
      rw [List.foldlM_cons, total_cons, ← Nat.add_assoc]
      by_cases fits : start.toNat + value.toNat < UInt64.size
      · have sum : (start + value).toNat = start.toNat + value.toNat := by
          rw [UInt64.toNat_add]
          exact Nat.mod_eq_of_lt fits
        rw [if_pos fits, ← sum]
        exact ih (start + value)
      · rw [if_neg fits]
        refine iff_of_false ?_ fun below => fits (Nat.lt_of_le_of_lt (Nat.le_add_right ..) below)
        rintro ⟨sum, done⟩
        cases done

theorem sumU64_checked_ok_iff (values : List UInt64) :
    (∃ sum, sumU64 .checked values = .ok sum) ↔ total values < UInt64.size := by
  have whole := @foldlM_checked_ok_iff _ BuildError.overflow values 0
  rw [UInt64.toNat_zero, Nat.zero_add] at whole
  exact whole

/-- A sum that is not returned has overflowed. -/
theorem sumU64_checked_overflow {values : List UInt64} (tooMuch : ¬ total values < UInt64.size) :
    sumU64 .checked values = .error .overflow := by
  have only : ∀ (rest : List UInt64) (start : UInt64) (failure : BuildError),
      rest.foldlM (fun total value =>
        if total.toNat + value.toNat < UInt64.size then Except.ok (total + value)
        else .error BuildError.overflow) start = .error failure → failure = .overflow := by
    intro rest
    induction rest with
    | nil => exact fun _ _ failed => nomatch failed
    | cons value others ih =>
        intro start failure failed
        rw [List.foldlM_cons] at failed
        split at failed
        · exact ih _ _ failed
        · cases failed
          rfl
  cases summed : sumU64 .checked values with
  | ok sum => exact absurd ((sumU64_checked_ok_iff values).mp ⟨sum, summed⟩) tooMuch
  | error failure => rw [only values 0 failure summed]

/-! ## A captured diff -/

/-- What is summed for an event, where it is a captured diff with an artifact. -/
def summedDiff (event : TraceEvent) : Option DiffCapturedPayload :=
  event.artifactId.bind fun _ => DiffCapturedPayload.decode event.payload

/-- The counts of a diff add up to numbers of 64 bits. -/
def TotalsFit (payload : DiffCapturedPayload) : Prop :=
  total (payload.fileChanges.filterMap DiffFileChange.additions) < UInt64.size ∧
    total (payload.fileChanges.filterMap DiffFileChange.deletions) < UInt64.size

theorem applyDiffCaptured_overflows_iff (index : TraceIndex) (event : TraceEvent) :
    index.applyDiffCaptured .checked event = .error .overflow ↔
      ∃ payload ∈ summedDiff event, ¬ TotalsFit payload := by
  unfold TraceIndex.applyDiffCaptured summedDiff readPayload TotalsFit
  cases event.artifactId with
  | none => exact iff_of_false (fun failed => by cases failed) (by simp)
  | some artifactId =>
      cases DiffCapturedPayload.decode event.payload with
      | none => exact iff_of_false (fun failed => by cases failed) (by simp)
      | some payload =>
          simp only [Option.bind_some, Option.mem_def, Option.some.injEq, exists_eq_left',
            Decidable.not_and_iff_not_or_not]
          by_cases additionsFit :
              total (payload.fileChanges.filterMap DiffFileChange.additions) < UInt64.size
          · obtain ⟨additions, added⟩ := (sumU64_checked_ok_iff _).mpr additionsFit
            by_cases deletionsFit :
                total (payload.fileChanges.filterMap DiffFileChange.deletions) < UInt64.size
            · obtain ⟨deletions, deleted⟩ := (sumU64_checked_ok_iff _).mpr deletionsFit
              refine iff_of_false ?_ (by simp [additionsFit, deletionsFit])
              simp only [bind, Except.bind, added, deleted]
              intro failed
              cases failed
            · refine iff_of_true ?_ (Or.inr deletionsFit)
              simp only [bind, Except.bind, added, sumU64_checked_overflow deletionsFit]
          · refine iff_of_true ?_ (Or.inl additionsFit)
            simp only [bind, Except.bind, sumU64_checked_overflow additionsFit]

/-! ## A transcript -/

/-- The input tokens of a record add up to a number of 64 bits. -/
def UsageFits (usage : Json) : Prop :=
  (tokenValue usage "input_tokens").toNat + (tokenValue usage "cache_read_input_tokens").toNat +
    (tokenValue usage "cache_creation_input_tokens").toNat < UInt64.size

theorem addUsage_ok_iff (counts : TokenCounts) (usage : Json) :
    (∃ after, addUsage .checked counts usage = .ok after) ↔ UsageFits usage := by
  unfold addUsage UsageFits
  constructor
  · rintro ⟨after, done⟩
    obtain ⟨read, isRead, done⟩ := Fallible.bind_eq_ok_iff.mp done
    obtain ⟨current, isCurrent, _⟩ := Fallible.bind_eq_ok_iff.mp done
    have fits := (addU64_checked_ok_iff _ _).mp ⟨current, isCurrent⟩
    rwa [addU64_checked_ok isRead] at fits
  · intro fits
    obtain ⟨read, isRead⟩ := (addU64_checked_ok_iff (tokenValue usage "input_tokens")
      (tokenValue usage "cache_read_input_tokens")).mpr
        (Nat.lt_of_le_of_lt (Nat.le_add_right ..) fits)
    rw [← addU64_checked_ok isRead] at fits
    obtain ⟨current, isCurrent⟩ := (addU64_checked_ok_iff read _).mpr fits
    rw [isRead]
    simp only [bind, Except.bind, isCurrent]
    exact ⟨_, rfl⟩

theorem sessionTokens_ok_iff (values : List Json) :
    (∃ counts, sessionTokens .checked values = .ok counts) ↔
      ∀ value ∈ values, ∀ usage ∈ messageUsage value, UsageFits usage := by
  have record : ∀ counts value, (∃ after, addRecordTokens .checked counts value = .ok after) ↔
      ∀ usage ∈ messageUsage value, UsageFits usage := by
    intro counts value
    unfold addRecordTokens
    cases messageUsage value with
    | none => exact iff_of_true ⟨counts, rfl⟩ nofun
    | some usage =>
        rw [addUsage_ok_iff]
        exact ⟨fun fits other isUsage => Option.some.inj isUsage ▸ fits, fun fits => fits usage rfl⟩
  have every := @Fallible.foldlM_ok_iff _ _ _ _ _ record values ⟨0, 0, false, false⟩
  rw [← every]
  unfold sessionTokens
  constructor
  · rintro ⟨counts, done⟩
    obtain ⟨after, folded, _⟩ := Fallible.bind_eq_ok_iff.mp done
    exact ⟨after, folded⟩
  · rintro ⟨after, folded⟩
    exact ⟨_, Fallible.bind_eq_ok_iff.mpr ⟨after, folded, rfl⟩⟩

/-! ## All three sums -/

/-- No sum of decoded counts leaves 64 bits: not when an event is applied to an index, not when a
file is blamed, and not when the tokens of a transcript are counted. -/
theorem sums_stay_in_range_iff (index : TraceIndex) (event : TraceEvent)
    (rfc3339 : DateTime → String) (events : List TraceEvent) (lineCount : UInt64)
    (git : FileHistory) (relPath : String) (values : List Json) :
    (index.applyDiffCaptured .checked event ≠ .error .overflow ↔
      ∀ payload ∈ summedDiff event, TotalsFit payload) ∧
    (blameFile .checked rfc3339 events lineCount git relPath ≠ .error .addOverflow ↔
      HunksFit events relPath) ∧
    (sessionTokens .checked values ≠ .error .addOverflow ↔
      ∀ value ∈ values, ∀ usage ∈ messageUsage value, UsageFits usage) := by
  have returned : ∀ {A : Type} (result : Except BlamePanic A),
      result ≠ .error .addOverflow ↔ ∃ value, result = .ok value := by
    intro A result
    cases result with
    | ok value => simp
    | error panic =>
        cases panic
        simp
  refine ⟨?_, ?_, ?_⟩
  · rw [ne_eq, applyDiffCaptured_overflows_iff]
    simp only [not_exists, not_and, not_not]
  · rw [returned, blameFile_ok_iff]
    simp
  · rw [returned, sessionTokens_ok_iff]

/-! ## Sums that do not fit -/

/-- A captured diff of two changes that add the given numbers of lines. -/
def diffAdding (first second : UInt64) : TraceEvent where
  __ := workingDiffFrom 1
  payload := .object [("diff_target", .string "working"), ("summary_hash", .string "abc123"),
    ("file_changes", .array [
      .object [("path", .string "src/lib.rs"), ("change_kind", .string "modified"),
        ("additions", Json.encodeU64 first)],
      .object [("path", .string "src/main.rs"), ("change_kind", .string "modified"),
        ("additions", Json.encodeU64 second)]])]

/-- A record of a message that used these many tokens as input. -/
def messageReading (input cached : UInt64) : Json :=
  .object [("type", .string "assistant"), ("message", .object [("usage", .object [
    ("input_tokens", Json.encodeU64 input),
    ("cache_read_input_tokens", Json.encodeU64 cached)])])]

/-- Each of the three sums leaves 64 bits for counts that decode. -/
theorem greatest_count_overflows :
    (TraceIndex.empty ⟨0⟩ 1).applyDiffCaptured .checked (diffAdding 18446744073709551615 1) =
      .error .overflow ∧
    blameFile .checked (fun _ => "") [workingDiffFrom 18446744073709551615] 1 untrackedFile
      "src/lib.rs" = .error .addOverflow ∧
    sessionTokens .checked [messageReading 18446744073709551615 1] = .error .addOverflow := by
  exact ⟨by rfl, by rfl, by rfl⟩

end BrickTrace
