import BrickTrace.Lib.Rfc3339
import Mathlib.Data.Nat.Find
import Mathlib.Data.String.Basic
import Mathlib.Order.Monotone.Basic

/-!
# Printed timestamps in order

An instant, counted in nanoseconds from the start of the year 1970, is printed in UTC with
a fraction of three, six or nine digits, or with none when it is a whole second.  Texts of
different lengths still compare as the instants do, as long as the years have four digits:
the sign of the offset comes before the point and before every digit.
-/

set_option autoImplicit false

namespace Rfc3339

/-! ## Lexicographic order -/

section Lex
universe u
variable {A : Type u} [LinearOrder A]

theorem append_lt_append_left (front : List A) {first second : List A} (before : first < second) :
    front ++ first < front ++ second := by
  induction front with
  | nil => exact before
  | cons item rest ih => exact List.Lex.cons ih

/-- Of lists of one length, what follows them does not matter. -/
theorem append_lt_append {first second : List A} (sameLength : first.length = second.length)
    (before : first < second) (left right : List A) : first ++ left < second ++ right := by
  induction before with
  | nil => simp at sameLength
  | cons _ ih => exact List.Lex.cons (ih (Nat.succ.inj sameLength))
  | rel smaller => exact List.Lex.rel smaller

/-- Nothing of that length comes before a list of least items. -/
theorem not_lt_replicate {least : A} {items : List A} (bounded : ∀ item ∈ items, least ≤ item) :
    ¬ items < List.replicate items.length least := by
  induction items with
  | nil => exact List.lt_irrefl []
  | cons item rest ih =>
      intro before
      cases before with
      | cons later => exact ih (fun other member => bounded other (List.mem_cons_of_mem _ member)) later
      | rel smaller => exact absurd smaller (bounded item List.mem_cons_self).not_gt

/-- Lists that are filled up with a least item compare as they do when they end in something
smaller than their items instead. -/
theorem lt_of_filled {mark least : A} {first second : List A} {k l : Nat}
    (markBelow : ∀ item ∈ second, mark < item) (leastBelow : ∀ item ∈ first, least ≤ item)
    (sameLength : first.length + k = second.length + l)
    (before : first ++ List.replicate k least < second ++ List.replicate l least)
    (left right : List A) : first ++ mark :: left < second ++ mark :: right := by
  induction first generalizing second with
  | nil =>
      cases second with
      | nil =>
          have same : k = l := by simpa using sameLength
          rw [same] at before
          exact absurd before (List.lt_irrefl _)
      | cons item rest => exact List.Lex.rel (markBelow item List.mem_cons_self)
  | cons item rest ih =>
      cases second with
      | nil =>
          have bounded : ∀ other ∈ (item :: rest) ++ List.replicate k least, least ≤ other := by
            intro other member
            rcases List.mem_append.mp member with isItem | filled
            · exact leastBelow other isItem
            · exact (List.eq_of_mem_replicate filled).ge
          have length : ((item :: rest) ++ List.replicate k least).length = l := by
            simpa [Nat.add_right_comm] using sameLength
          have notBefore := not_lt_replicate bounded
          rw [length] at notBefore
          exact absurd before notBefore
      | cons other others =>
          cases before with
          | cons later =>
              refine List.Lex.cons (ih (fun item member => markBelow item (List.mem_cons_of_mem _ member))
                (fun item member => leastBelow item (List.mem_cons_of_mem _ member)) ?_ later)
              simpa [Nat.add_right_comm] using sameLength
          | rel smaller => exact List.Lex.rel smaller

end Lex

/-! ## Numerals of a fixed width -/

/-- The last `width` decimal digits of a number, most significant first. -/
def padded : Nat → Nat → List Char
  | 0, _ => []
  | width + 1, value => padded width (value / 10) ++ [Nat.digitChar (value % 10)]

@[simp] theorem length_padded (width value : Nat) : (padded width value).length = width := by
  induction width generalizing value with
  | zero => rfl
  | succ width ih => simp [padded, ih]

theorem digitChar_lt : ∀ right < 10, ∀ left < right, Nat.digitChar left < Nat.digitChar right := by
  decide

theorem zero_le_digitChar : ∀ digit < 10, '0' ≤ Nat.digitChar digit := by decide

theorem zero_le_of_mem_padded {width value : Nat} {char : Char} (member : char ∈ padded width value) :
    '0' ≤ char := by
  induction width generalizing value with
  | zero => cases member
  | succ width ih =>
      rcases List.mem_append.mp member with front | last
      · exact ih front
      · rw [List.mem_singleton.mp last]
        exact zero_le_digitChar _ (Nat.mod_lt _ (by decide))

theorem padded_lt {width left right : Nat} (before : left < right) (fits : right < 10 ^ width) :
    padded width left < padded width right := by
  induction width generalizing left right with
  | zero => simp only [Nat.pow_zero] at fits; omega
  | succ width ih =>
      have frontFits : right / 10 < 10 ^ width :=
        Nat.div_lt_of_lt_mul (by rwa [Nat.pow_succ, Nat.mul_comm] at fits)
      rcases Nat.lt_or_ge (left / 10) (right / 10) with front | notBefore
      · exact append_lt_append (by simp) (ih front frontFits) _ _
      · have same : left / 10 = right / 10 := by omega
        have last := digitChar_lt (right % 10) (Nat.mod_lt _ (by decide)) (left % 10) (by omega)
        unfold padded
        rw [same]
        exact append_lt_append_left _ (List.Lex.rel last)

/-- A numeral filled up with zeros. -/
theorem padded_append_replicate (width value zeros : Nat) :
    padded width value ++ List.replicate zeros '0' = padded (width + zeros) (value * 10 ^ zeros) := by
  induction zeros with
  | zero => simp
  | succ zeros ih =>
      have front : value * 10 ^ (zeros + 1) / 10 = value * 10 ^ zeros := by
        rw [Nat.pow_succ, ← Nat.mul_assoc, Nat.mul_div_cancel _ (by decide)]
      have last : value * 10 ^ (zeros + 1) % 10 = 0 := by
        rw [Nat.pow_succ, ← Nat.mul_assoc, Nat.mul_mod_left]
      rw [List.replicate_succ', ← List.append_assoc, ih, Nat.add_succ, padded, front, last]
      rfl

/-! ## The calendar -/

/-- The year that the day falls in, both counted from the start of the year 0. -/
def yearOfDay (day : Nat) : Nat := Nat.findGreatest (fun year => daysBeforeYear year ≤ day) (day / 365)

def monthOfDay (year dayOfYear : Nat) : Nat :=
  Nat.findGreatest (fun month => daysBeforeMonth year month ≤ dayOfYear) 12

/-- The year, the month and the day of the month. -/
def dateOfDay (day : Nat) : Nat × Nat × Nat :=
  let year := yearOfDay day
  let dayOfYear := day - daysBeforeYear year
  let month := monthOfDay year dayOfYear
  (year, month, dayOfYear - daysBeforeMonth year month + 1)

def daysInCycle : Nat := 146097

structure Civil where
  year : Int
  month : Nat
  day : Nat
  hour : Nat
  minute : Nat
  second : Nat
  nanosecond : Nat

/-- The date and the time of day, by the Gregorian rules before their time also: the years
repeat after 400. -/
def civil (nanoseconds : Int) : Civil :=
  let seconds := nanoseconds / 1000000000
  let days := seconds / 86400 + daysBeforeYear 1970
  let secondOfDay := (seconds % 86400).toNat
  let date := dateOfDay (days % daysInCycle).toNat
  { year := 400 * (days / daysInCycle) + date.1
    month := date.2.1
    day := date.2.2
    hour := secondOfDay / 3600
    minute := secondOfDay / 60 % 60
    second := secondOfDay % 60
    nanosecond := (nanoseconds % 1000000000).toNat }

/-! ## Printing -/

def yearText (year : Int) : List Char :=
  if 0 ≤ year ∧ year ≤ 9999 then padded 4 year.toNat
  else
    (if year < 0 then '-' else '+') ::
      padded (max 4 (Nat.toDigits 10 year.natAbs).length) year.natAbs

def fractionText (nanosecond : Nat) : List Char :=
  if nanosecond = 0 then []
  else if nanosecond % 1000000 = 0 then '.' :: padded 3 (nanosecond / 1000000)
  else if nanosecond % 1000 = 0 then '.' :: padded 6 (nanosecond / 1000)
  else '.' :: padded 9 nanosecond

/-- The date and the time to the second. -/
def Civil.stamp (time : Civil) : List Char :=
  yearText time.year ++ '-' :: padded 2 time.month ++ '-' :: padded 2 time.day ++
    'T' :: padded 2 time.hour ++ ':' :: padded 2 time.minute ++ ':' :: padded 2 time.second

def utcOffset : List Char := ['+', '0', '0', ':', '0', '0']

def Civil.text (time : Civil) : String :=
  String.ofList (time.stamp ++ (fractionText time.nanosecond ++ utcOffset))

/-- The instant in UTC, with as many digits after the point as it needs. -/
def printed (nanoseconds : Int) : String := (civil nanoseconds).text

example : printed 1782122400250000000 = "2026-06-22T10:00:00.250+00:00" := by decide +kernel

/-! ## Fractions in order -/

/-- The digits after the point are those of all nine places without some zeros at their end. -/
theorem fractionText_shape {nanosecond : Nat} (positive : nanosecond ≠ 0) :
    ∃ width value zeros, fractionText nanosecond = '.' :: padded width value ∧
      width + zeros = 9 ∧ padded width value ++ List.replicate zeros '0' = padded 9 nanosecond := by
  unfold fractionText
  rw [if_neg positive]
  split
  · rename_i millis
    have restored : nanosecond / 1000000 * 10 ^ 6 = nanosecond :=
      Nat.div_mul_cancel (Nat.dvd_of_mod_eq_zero millis)
    refine ⟨3, nanosecond / 1000000, 6, rfl, rfl, ?_⟩
    rw [padded_append_replicate, restored]
  · split
    · rename_i micros
      have restored : nanosecond / 1000 * 10 ^ 3 = nanosecond :=
        Nat.div_mul_cancel (Nat.dvd_of_mod_eq_zero micros)
      refine ⟨6, nanosecond / 1000, 3, rfl, rfl, ?_⟩
      rw [padded_append_replicate, restored]
    · exact ⟨9, nanosecond, 0, rfl, rfl, List.append_nil _⟩

theorem fraction_lt {first second : Nat} (before : first < second) (fits : second < 1000000000) :
    fractionText first ++ utcOffset < fractionText second ++ utcOffset := by
  obtain ⟨width, value, zeros, text, length, filled⟩ := fractionText_shape (Nat.ne_zero_of_lt before)
  rw [text]
  by_cases whole : first = 0
  · rw [whole]
    exact List.Lex.rel (by decide)
  · obtain ⟨width', value', zeros', text', length', filled'⟩ := fractionText_shape whole
    rw [text']
    have nineDigits : padded width' value' ++ List.replicate zeros' '0' <
        padded width value ++ List.replicate zeros '0' := by
      rw [filled, filled']
      exact padded_lt before fits
    refine List.Lex.cons (lt_of_filled ?_ ?_ ?_ nineDigits _ _)
    · intro char member
      exact lt_of_lt_of_le (by decide) (zero_le_of_mem_padded member)
    · exact fun char member => zero_le_of_mem_padded member
    · rw [length_padded, length_padded, length, length']

/-! ## Dates in order -/

theorem le_yearOfDay {day year : Nat} (started : daysBeforeYear year ≤ day) : year ≤ yearOfDay day := by
  refine Nat.le_findGreatest ?_ started
  unfold daysBeforeYear at started
  omega

theorem daysBeforeYear_yearOfDay (day : Nat) : daysBeforeYear (yearOfDay day) ≤ day :=
  Nat.findGreatest_spec (P := fun year => daysBeforeYear year ≤ day) (Nat.zero_le _)
    (show daysBeforeYear 0 ≤ day from Nat.zero_le _)

theorem daysBeforeYear_succ_le (year : Nat) : daysBeforeYear (year + 1) ≤ daysBeforeYear year + 366 := by
  unfold daysBeforeYear
  omega

theorem le_daysBeforeYear_succ (year : Nat) : daysBeforeYear year + 365 ≤ daysBeforeYear (year + 1) := by
  unfold daysBeforeYear
  omega

theorem daysBeforeYear_monotone : Monotone daysBeforeYear :=
  monotone_nat_of_le_succ fun year => (Nat.le_add_right _ _).trans (le_daysBeforeYear_succ year)

theorem dayOfYear_lt (day : Nat) : day - daysBeforeYear (yearOfDay day) < 366 := by
  have notLater : ¬ daysBeforeYear (yearOfDay day + 1) ≤ day := fun started =>
    absurd (le_yearOfDay started) (Nat.not_succ_le_self _)
  have step := daysBeforeYear_succ_le (yearOfDay day)
  omega

theorem yearOfDay_lt_400 {day : Nat} (inCycle : day < daysInCycle) : yearOfDay day < 400 := by
  by_contra later
  have started := (daysBeforeYear_monotone (Nat.le_of_not_lt later)).trans (daysBeforeYear_yearOfDay day)
  have cycle : daysBeforeYear 400 = daysInCycle := by decide
  omega

theorem le_monthOfDay {year day month : Nat} (isMonth : month ≤ 12)
    (started : daysBeforeMonth year month ≤ day) : month ≤ monthOfDay year day :=
  Nat.le_findGreatest isMonth started

theorem daysBeforeMonth_monthOfDay (year day : Nat) :
    daysBeforeMonth year (monthOfDay year day) ≤ day :=
  Nat.findGreatest_spec (P := fun month => daysBeforeMonth year month ≤ day) (Nat.zero_le 12)
    (show daysBeforeMonth year 0 ≤ day from Nat.zero_le _)

theorem monthOfDay_le (year day : Nat) : monthOfDay year day ≤ 12 := Nat.findGreatest_le 12

theorem daysBeforeMonth_succ_le (year month : Nat) :
    daysBeforeMonth year (month + 1) ≤ daysBeforeMonth year month + 31 := by
  have bounded : ∀ month, daysInMonth year month ≤ 31 := by
    intro month
    unfold daysInMonth
    split
    · split <;> decide
    · split <;> decide
  cases month with
  | zero => exact Nat.zero_le _
  | succ month =>
      unfold daysBeforeMonth
      rw [Nat.add_sub_cancel, Nat.add_sub_cancel, List.range_succ, List.foldl_append]
      exact Nat.add_le_add_left (bounded _) _

theorem le_daysBeforeMonth_12 (year : Nat) : 334 ≤ daysBeforeMonth year 12 := by
  have february : 28 ≤ daysInMonth year 2 := by
    unfold daysInMonth
    rw [if_pos rfl]
    split <;> decide
  have total : daysBeforeMonth year 12 = 306 + daysInMonth year 2 := by
    simp [daysBeforeMonth, daysInMonth, List.range_succ]
    omega
  omega

theorem dayOfMonth_lt (year : Nat) {day : Nat} (inYear : day < 366) :
    day - daysBeforeMonth year (monthOfDay year day) < 32 := by
  rcases Nat.lt_or_ge (monthOfDay year day) 12 with earlier | december
  · have notLater : ¬ daysBeforeMonth year (monthOfDay year day + 1) ≤ day := fun started =>
      absurd (le_monthOfDay earlier started) (Nat.not_succ_le_self _)
    have step := daysBeforeMonth_succ_le year (monthOfDay year day)
    omega
  · have last : monthOfDay year day = 12 := Nat.le_antisymm (monthOfDay_le year day) december
    have := le_daysBeforeMonth_12 year
    rw [last]
    omega

/-- Later days have later dates. -/
theorem dateOfDay_lt {first second : Nat} (before : first < second) :
    (dateOfDay first).1 < (dateOfDay second).1 ∨
      (dateOfDay first).1 = (dateOfDay second).1 ∧
        ((dateOfDay first).2.1 < (dateOfDay second).2.1 ∨
          (dateOfDay first).2.1 = (dateOfDay second).2.1 ∧
            (dateOfDay first).2.2 < (dateOfDay second).2.2) := by
  have year := le_yearOfDay ((daysBeforeYear_yearOfDay first).trans before.le)
  refine (Nat.lt_or_eq_of_le year).imp id fun sameYear => ⟨sameYear, ?_⟩
  change yearOfDay first = yearOfDay second at sameYear
  have started := daysBeforeYear_yearOfDay first
  have dayOfYear : first - daysBeforeYear (yearOfDay first) <
      second - daysBeforeYear (yearOfDay second) := by
    rw [← sameYear]
    omega
  have month := le_monthOfDay (monthOfDay_le _ _)
    ((daysBeforeMonth_monthOfDay (yearOfDay first) _).trans dayOfYear.le)
  unfold dateOfDay
  dsimp only
  rw [← sameYear] at dayOfYear month ⊢
  refine (Nat.lt_or_eq_of_le month).imp id fun sameMonth => ⟨sameMonth, ?_⟩
  have reached := daysBeforeMonth_monthOfDay (yearOfDay first)
    (first - daysBeforeYear (yearOfDay first))
  rw [← sameMonth]
  omega

theorem dateOfDay_bounded (day : Nat) : (dateOfDay day).2.1 < 100 ∧ (dateOfDay day).2.2 < 100 := by
  have inMonth := dayOfMonth_lt (yearOfDay day) (dayOfYear_lt day)
  have month := monthOfDay_le (yearOfDay day) (day - daysBeforeYear (yearOfDay day))
  unfold dateOfDay
  dsimp only
  constructor <;> omega

/-! ## Times in order -/

/-- What is compared before the fraction. -/
def Civil.numbers (time : Civil) : List Int :=
  [time.year, time.month, time.day] ++ [(time.hour : Int), (time.minute : Int), (time.second : Int)]

/-- Every number but the year has two digits. -/
structure Civil.Bounded (time : Civil) : Prop where
  month : time.month < 100
  day : time.day < 100
  hour : time.hour < 100
  minute : time.minute < 100
  second : time.second < 100
  nanosecond : time.nanosecond < 1000000000

theorem bounded_civil (nanoseconds : Int) : (civil nanoseconds).Bounded := by
  obtain ⟨month, day⟩ := dateOfDay_bounded
    ((nanoseconds / 1000000000 / 86400 + daysBeforeYear 1970) % daysInCycle).toNat
  refine ⟨month, day, ?_, ?_, ?_, ?_⟩
  · change (nanoseconds / 1000000000 % 86400).toNat / 3600 < 100
    omega
  · change (nanoseconds / 1000000000 % 86400).toNat / 60 % 60 < 100
    omega
  · change (nanoseconds / 1000000000 % 86400).toNat % 60 < 100
    omega
  · change (nanoseconds % 1000000000).toNat < 1000000000
    omega

theorem clock_lt {first second : Nat} (before : first < second) :
    [((first / 3600 : Nat) : Int), ((first / 60 % 60 : Nat) : Int), ((first % 60 : Nat) : Int)] <
      [((second / 3600 : Nat) : Int), ((second / 60 % 60 : Nat) : Int), ((second % 60 : Nat) : Int)] := by
  simp only [List.cons_lt_cons_iff, List.lt_irrefl, and_false, or_false]
  omega

theorem date_lt {first second : Int} (before : first < second) :
    [400 * (first / daysInCycle) + ((dateOfDay (first % daysInCycle).toNat).1 : Int),
      ((dateOfDay (first % daysInCycle).toNat).2.1 : Int),
      ((dateOfDay (first % daysInCycle).toNat).2.2 : Int)] <
    [400 * (second / daysInCycle) + ((dateOfDay (second % daysInCycle).toNat).1 : Int),
      ((dateOfDay (second % daysInCycle).toNat).2.1 : Int),
      ((dateOfDay (second % daysInCycle).toNat).2.2 : Int)] := by
  have cycleLength : (daysInCycle : Int) = 146097 := rfl
  rw [cycleLength]
  have firstYear : (dateOfDay (first % 146097).toNat).1 < 400 :=
    yearOfDay_lt_400 (by unfold daysInCycle; omega)
  simp only [List.cons_lt_cons_iff, List.lt_irrefl, and_false, or_false]
  rcases lt_or_ge (first / 146097) (second / 146097) with earlierCycle | notEarlier
  · omega
  · have sameCycle : first / 146097 = second / 146097 := by omega
    have inCycle : (first % 146097).toNat < (second % 146097).toNat := by omega
    have dates := dateOfDay_lt inCycle
    omega

/-- An earlier instant has smaller numbers, or the same ones and a smaller fraction. -/
theorem civil_lt {first second : Int} (before : first < second) :
    (civil first).numbers < (civil second).numbers ∨
      (civil first).numbers = (civil second).numbers ∧
        (civil first).nanosecond < (civil second).nanosecond := by
  rcases lt_or_ge (first / 1000000000) (second / 1000000000) with earlier | notEarlier
  · left
    rcases lt_or_ge (first / 1000000000 / 86400) (second / 1000000000 / 86400) with earlierDay | _
    · have later : first / 1000000000 / 86400 + (daysBeforeYear 1970 : Int) <
          second / 1000000000 / 86400 + (daysBeforeYear 1970 : Int) := by omega
      exact append_lt_append (by rfl) (date_lt later) _ _
    · have sameDay : first / 1000000000 / 86400 = second / 1000000000 / 86400 := by omega
      have clock : (first / 1000000000 % 86400).toNat < (second / 1000000000 % 86400).toNat := by omega
      unfold Civil.numbers civil
      dsimp only
      rw [sameDay]
      exact append_lt_append_left _ (clock_lt clock)
  · right
    have sameSecond : first / 1000000000 = second / 1000000000 := by omega
    have fraction : (first % 1000000000).toNat < (second % 1000000000).toNat := by omega
    unfold Civil.numbers civil
    dsimp only
    rw [sameSecond]
    exact ⟨rfl, fraction⟩

/-! ## Texts in order -/

theorem padded_append_lt {width first second : Nat} {left right : List Char}
    (fits : second < 10 ^ width) (before : first < second ∨ first = second ∧ left < right) :
    padded width first ++ left < padded width second ++ right := by
  rcases before with smaller | ⟨rfl, rest⟩
  · exact append_lt_append (by simp) (padded_lt smaller fits) _ _
  · exact append_lt_append_left _ rest

theorem stamp_lt {first second : Civil} (before : first.numbers < second.numbers)
    (bounded : second.Bounded) (firstYear : 0 ≤ first.year ∧ first.year ≤ 9999)
    (secondYear : 0 ≤ second.year ∧ second.year ≤ 9999) : first.stamp < second.stamp := by
  unfold Civil.numbers at before
  simp only [List.cons_append, List.nil_append, List.cons_lt_cons_iff, List.lt_irrefl, and_false,
    or_false, Int.ofNat_lt, Int.ofNat_inj] at before
  have year : first.year.toNat < second.year.toNat ∨
      first.year.toNat = second.year.toNat ∧ first.year = second.year := by omega
  have fourDigits : second.year.toNat < 10 ^ 4 := by omega
  unfold Civil.stamp yearText
  rw [if_pos firstYear, if_pos secondYear]
  simp only [List.append_assoc, List.cons_append]
  refine padded_append_lt fourDigits (year.imp id fun same => ⟨same.1, List.Lex.cons ?_⟩)
  replace before := (before.resolve_left (by omega)).2
  refine padded_append_lt bounded.month (before.imp id fun same => ⟨same.1, List.Lex.cons ?_⟩)
  replace before := (before.resolve_left (by omega)).2
  refine padded_append_lt bounded.day (before.imp id fun same => ⟨same.1, List.Lex.cons ?_⟩)
  replace before := (before.resolve_left (by omega)).2
  refine padded_append_lt bounded.hour (before.imp id fun same => ⟨same.1, List.Lex.cons ?_⟩)
  replace before := (before.resolve_left (by omega)).2
  refine padded_append_lt bounded.minute (before.imp id fun same => ⟨same.1, List.Lex.cons ?_⟩)
  replace before := (before.resolve_left (by omega)).2
  exact padded_lt before bounded.second

theorem length_stamp {time : Civil} (year : 0 ≤ time.year ∧ time.year ≤ 9999) :
    time.stamp.length = 19 := by
  unfold Civil.stamp yearText
  rw [if_pos year]
  simp

theorem stamp_eq {first second : Civil} (same : first.numbers = second.numbers) :
    first.stamp = second.stamp := by
  unfold Civil.numbers at same
  simp only [List.cons_append, List.nil_append, List.cons.injEq, Int.ofNat_inj] at same
  obtain ⟨year, month, day, hour, minute, second, _⟩ := same
  unfold Civil.stamp
  rw [year, month, day, hour, minute, second]

/-- The instant lies in a year that has four digits. -/
def FourDigitYear (nanoseconds : Int) : Prop :=
  0 ≤ (civil nanoseconds).year ∧ (civil nanoseconds).year ≤ 9999

theorem printed_lt {first second : Int} (firstYear : FourDigitYear first)
    (secondYear : FourDigitYear second) (before : first < second) : printed first < printed second := by
  have bounded := bounded_civil second
  unfold printed Civil.text
  rw [String.lt_iff_toList_lt, String.toList_ofList, String.toList_ofList]
  rcases civil_lt before with numbers | ⟨numbers, fraction⟩
  · exact append_lt_append ((length_stamp firstYear).trans (length_stamp secondYear).symm)
      (stamp_lt numbers bounded firstYear secondYear) _ _
  · rw [stamp_eq numbers]
    exact append_lt_append_left _ (fraction_lt fraction bounded.nanosecond)

/-- Printed instants compare as the instants do. -/
theorem printed_lt_iff {first second : Int} (firstYear : FourDigitYear first)
    (secondYear : FourDigitYear second) : printed first < printed second ↔ first < second := by
  constructor
  · intro text
    rcases lt_trichotomy first second with before | rfl | after
    · exact before
    · exact absurd text (lt_irrefl _)
    · exact absurd (printed_lt secondYear firstYear after) text.not_gt
  · exact printed_lt firstYear secondYear

theorem printed_inj {first second : Int} (firstYear : FourDigitYear first)
    (secondYear : FourDigitYear second) (same : printed first = printed second) : first = second := by
  rcases lt_trichotomy first second with before | equal | after
  · exact absurd same (printed_lt firstYear secondYear before).ne
  · exact equal
  · exact absurd same (printed_lt secondYear firstYear after).ne'

end Rfc3339
