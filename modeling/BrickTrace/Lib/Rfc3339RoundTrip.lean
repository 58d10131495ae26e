import BrickTrace.Lib.Rfc3339Order
import Mathlib.Algebra.Order.Field.Rat
import Mathlib.Tactic.NormNum
import Mathlib.Tactic.Ring

/-!
# A printed instant is read back

An instant in a year of four digits is printed as a timestamp that denotes this
instant: the date is a day of the calendar, and the digits after the point are worth
as much as all nine of them.
-/

set_option autoImplicit false

namespace Rfc3339

/-! ## Numerals -/

theorem digitsValue_append_singleton (front : List Char) (digit : Char) :
    digitsValue (front ++ [digit]) = 10 * digitsValue front + (digit.toNat - 48) := by
  unfold digitsValue
  rw [List.foldl_append]
  rfl

theorem digitChar_spec : ∀ digit < 10,
    (Nat.digitChar digit).isDigit = true ∧ (Nat.digitChar digit).toNat - 48 = digit := by
  decide

theorem isDigit_of_mem_padded {width value : Nat} {char : Char}
    (member : char ∈ padded width value) : char.isDigit = true := by
  induction width generalizing value with
  | zero => cases member
  | succ width ih =>
      rcases List.mem_append.mp member with front | last
      · exact ih front
      · rw [List.mem_singleton.mp last]
        exact (digitChar_spec _ (Nat.mod_lt _ (by decide))).1

theorem digitsValue_padded {width value : Nat} (fits : value < 10 ^ width) :
    digitsValue (padded width value) = value := by
  induction width generalizing value with
  | zero =>
      rw [Nat.pow_zero] at fits
      exact (Nat.lt_one_iff.mp fits).symm
  | succ width ih =>
      have frontFits : value / 10 < 10 ^ width :=
        Nat.div_lt_of_lt_mul (by rwa [Nat.pow_succ, Nat.mul_comm] at fits)
      unfold padded
      rw [digitsValue_append_singleton, ih frontFits,
        (digitChar_spec _ (Nat.mod_lt _ (by decide))).2]
      omega

theorem digitsValue_append_zeros (digits : List Char) (zeros : Nat) :
    digitsValue (digits ++ List.replicate zeros '0') = digitsValue digits * 10 ^ zeros := by
  induction zeros with
  | zero => simp
  | succ zeros ih =>
      have zero : '0'.toNat - 48 = 0 := by decide
      rw [List.replicate_succ', ← List.append_assoc, digitsValue_append_singleton, ih, zero,
        Nat.pow_succ]
      ring

theorem number_padded {width value : Nat} (fits : value < 10 ^ width) (rest : List Char) :
    number width (padded width value ++ rest) = some (value, rest) := by
  have taken : (padded width value ++ rest).take width = padded width value :=
    List.take_left' (length_padded width value)
  have dropped : (padded width value ++ rest).drop width = rest :=
    List.drop_left' (length_padded width value)
  have digits : (padded width value).all Char.isDigit = true :=
    List.all_eq_true.mpr fun _ => isDigit_of_mem_padded
  unfold number
  dsimp only
  rw [taken, dropped, if_pos ⟨length_padded width value, digits⟩, digitsValue_padded fits]

theorem literal_cons {allowed : List Char} {char : Char} (member : char ∈ allowed)
    (rest : List Char) : literal allowed (char :: rest) = some rest :=
  if_pos member

/-! ## Fractions -/

theorem takeWhile_padded_utcOffset (width value : Nat) :
    (padded width value ++ utcOffset).takeWhile Char.isDigit = padded width value := by
  rw [List.takeWhile_append_of_pos fun _ => isDigit_of_mem_padded]
  exact List.append_nil _

theorem dropWhile_padded_utcOffset (width value : Nat) :
    (padded width value ++ utcOffset).dropWhile Char.isDigit = utcOffset := by
  rw [List.dropWhile_append_of_pos fun _ => isDigit_of_mem_padded]
  rfl

theorem fraction_point (rest : List Char) :
    fraction ('.' :: rest) =
      if rest.takeWhile Char.isDigit = [] then none
      else some (mkRat (digitsValue (rest.takeWhile Char.isDigit))
        (Nat.pow 10 (rest.takeWhile Char.isDigit).length), rest.dropWhile Char.isDigit) := rfl

theorem fraction_fractionText {nanosecond : Nat} (fits : nanosecond < 1000000000) :
    fraction (fractionText nanosecond ++ utcOffset) =
      some ((nanosecond : Rat) / 1000000000, utcOffset) := by
  by_cases whole : nanosecond = 0
  · have none : ((0 : Nat) : Rat) / 1000000000 = 0 := by norm_num
    rw [whole, none]
    rfl
  · obtain ⟨width, value, zeros, text, length, filled⟩ := fractionText_shape whole
    have digits : digitsValue (padded width value) * 10 ^ zeros = nanosecond := by
      rw [← digitsValue_append_zeros, filled]
      exact digitsValue_padded fits
    have notEmpty : padded width value ≠ [] := by
      intro empty
      rw [empty] at digits
      exact whole (digits.symm.trans (Nat.zero_mul _))
    have worth : mkRat (digitsValue (padded width value)) (Nat.pow 10 (padded width value).length) =
        (nanosecond : Rat) / 1000000000 := by
      have places : (1000000000 : Rat) = 10 ^ width * 10 ^ zeros := by
        rw [← pow_add, length]
        norm_num
      rw [Rat.mkRat_eq_div, length_padded, ← digits, places]
      have zeros_ne : (10 ^ zeros : Rat) ≠ 0 := by positivity
      push_cast
      rw [mul_div_mul_right _ _ zeros_ne]
      norm_num
    rw [text, List.cons_append, fraction_point, takeWhile_padded_utcOffset, dropWhile_padded_utcOffset, if_neg notEmpty, worth]

/-! ## Days of the calendar -/

theorem isLeapYear_add_cycles (cycles year : Nat) :
    isLeapYear (400 * cycles + year) = isLeapYear year := by
  unfold isLeapYear
  rw [decide_eq_decide]
  omega

theorem daysInMonth_add_cycles (cycles year month : Nat) :
    daysInMonth (400 * cycles + year) month = daysInMonth year month := by
  unfold daysInMonth
  rw [isLeapYear_add_cycles]

theorem daysBeforeMonth_add_cycles (cycles year month : Nat) :
    daysBeforeMonth (400 * cycles + year) month = daysBeforeMonth year month := by
  unfold daysBeforeMonth
  simp only [daysInMonth_add_cycles]

theorem daysBeforeYear_add_cycles (cycles year : Nat) :
    daysBeforeYear (400 * cycles + year) = daysInCycle * cycles + daysBeforeYear year := by
  unfold daysBeforeYear daysInCycle
  omega

theorem daysBeforeMonth_succ (year month : Nat) (started : 1 ≤ month) :
    daysBeforeMonth year (month + 1) = daysBeforeMonth year month + daysInMonth year month := by
  obtain ⟨earlier, rfl⟩ := Nat.exists_eq_add_of_le' started
  unfold daysBeforeMonth
  rw [Nat.add_sub_cancel, Nat.add_sub_cancel, List.range_succ, List.foldl_append]
  rfl

theorem daysBeforeYear_succ (year : Nat) :
    daysBeforeYear (year + 1) = daysBeforeYear year + if isLeapYear year then 366 else 365 := by
  unfold daysBeforeYear isLeapYear
  split
  · rename_i leap
    have leap := of_decide_eq_true leap
    omega
  · rename_i common
    have common := of_decide_eq_false (Bool.eq_false_iff.mpr common)
    omega

/-- A year is over with its last month. -/
theorem daysBeforeMonth_13 (year : Nat) :
    daysBeforeYear (year + 1) = daysBeforeYear year + daysBeforeMonth year 13 := by
  rw [daysBeforeYear_succ]
  cases leap : isLeapYear year <;> simp [daysBeforeMonth, daysInMonth, List.range_succ, leap]

/-- The date of a day is one of the calendar, and it is that day's. -/
structure IsDateOf (day : Nat) (date : Nat × Nat × Nat) : Prop where
  firstMonth : 1 ≤ date.2.1
  lastMonth : date.2.1 ≤ 12
  firstDay : 1 ≤ date.2.2
  lastDay : date.2.2 ≤ daysInMonth date.1 date.2.1
  day_eq : daysBeforeYear date.1 + daysBeforeMonth date.1 date.2.1 + (date.2.2 - 1) = day

theorem isDateOf_dateOfDay (day : Nat) : IsDateOf day (dateOfDay day) := by
  have inYear := daysBeforeYear_yearOfDay day
  have inMonth := daysBeforeMonth_monthOfDay (yearOfDay day) (day - daysBeforeYear (yearOfDay day))
  have january : 1 ≤ monthOfDay (yearOfDay day) (day - daysBeforeYear (yearOfDay day)) :=
    le_monthOfDay (by decide) (Nat.zero_le _)
  have yearNotOver : ¬ daysBeforeYear (yearOfDay day + 1) ≤ day := fun past =>
    absurd (le_yearOfDay past) (Nat.not_succ_le_self _)
  rw [daysBeforeMonth_13] at yearNotOver
  have monthNotOver : day - daysBeforeYear (yearOfDay day) <
      daysBeforeMonth (yearOfDay day)
        (monthOfDay (yearOfDay day) (day - daysBeforeYear (yearOfDay day)) + 1) := by
    rcases Nat.lt_or_ge (monthOfDay (yearOfDay day) (day - daysBeforeYear (yearOfDay day))) 12 with
      earlier | december
    · exact Nat.lt_of_not_le fun past =>
        absurd (le_monthOfDay earlier past) (Nat.not_succ_le_self _)
    · rw [Nat.le_antisymm (monthOfDay_le _ _) december]
      change _ < daysBeforeMonth (yearOfDay day) 13
      omega
  rw [daysBeforeMonth_succ _ _ january] at monthNotOver
  refine ⟨january, monthOfDay_le _ _, Nat.le_add_left _ _, ?_, ?_⟩
  · unfold dateOfDay
    dsimp only
    omega
  · unfold dateOfDay
    dsimp only
    omega

/-- The years repeat after 400, and so do their dates. -/
theorem IsDateOf.add_cycles {day : Nat} {date : Nat × Nat × Nat} (isDate : IsDateOf day date)
    (cycles : Nat) : IsDateOf (daysInCycle * cycles + day) (400 * cycles + date.1, date.2) := by
  refine ⟨isDate.firstMonth, isDate.lastMonth, isDate.firstDay, ?_, ?_⟩
  · rw [daysInMonth_add_cycles]
    exact isDate.lastDay
  · have same := isDate.day_eq
    dsimp only
    rw [daysBeforeYear_add_cycles, daysBeforeMonth_add_cycles]
    omega

/-! ## Instants -/

/-- The day of an instant, from the start of the year 0. -/
def dayOf (nanoseconds : Int) : Int := nanoseconds / 1000000000 / 86400 + daysBeforeYear 1970

theorem year_civil (nanoseconds : Int) :
    (civil nanoseconds).year =
      400 * (dayOf nanoseconds / daysInCycle) +
        (dateOfDay (dayOf nanoseconds % daysInCycle).toNat).1 := rfl

/-- The years before the year 0 are negative. -/
theorem dayOf_nonneg {nanoseconds : Int} (year : 0 ≤ (civil nanoseconds).year) :
    0 ≤ dayOf nanoseconds := by
  have inCycle : (dateOfDay (dayOf nanoseconds % daysInCycle).toNat).1 < 400 :=
    yearOfDay_lt_400 (by unfold daysInCycle; omega)
  rw [year_civil] at year
  unfold daysInCycle at *
  omega

theorem isDateOf_civil {nanoseconds : Int} (year : 0 ≤ (civil nanoseconds).year) :
    IsDateOf (dayOf nanoseconds).toNat ((civil nanoseconds).year.toNat,
      (civil nanoseconds).month, (civil nanoseconds).day) := by
  have started := dayOf_nonneg year
  have isDate := (isDateOf_dateOfDay (dayOf nanoseconds % daysInCycle).toNat).add_cycles
    (dayOf nanoseconds / daysInCycle).toNat
  have day : daysInCycle * (dayOf nanoseconds / daysInCycle).toNat +
      (dayOf nanoseconds % daysInCycle).toNat = (dayOf nanoseconds).toNat := by
    unfold daysInCycle
    omega
  have years : 400 * (dayOf nanoseconds / daysInCycle).toNat +
      (dateOfDay (dayOf nanoseconds % daysInCycle).toNat).1 =
        (civil nanoseconds).year.toNat := by
    rw [year_civil]
    unfold daysInCycle at *
    omega
  rw [day, years] at isDate
  exact isDate

/-- The clock of a civil time shows the second of its day. -/
theorem clock_civil (nanoseconds : Int) :
    (civil nanoseconds).hour ≤ 23 ∧ (civil nanoseconds).minute ≤ 59 ∧
      (civil nanoseconds).second ≤ 59 ∧
      3600 * (civil nanoseconds).hour + 60 * (civil nanoseconds).minute +
          (civil nanoseconds).second = (nanoseconds / 1000000000 % 86400).toNat := by
  have bounded : (nanoseconds / 1000000000 % 86400).toNat < 86400 := by omega
  unfold civil
  dsimp only
  refine ⟨?_, ?_, ?_, ?_⟩ <;> omega

/-- The seconds of a time of day on a day of the calendar. -/
theorem instantOfChars_stamp {time : Civil} {day : Nat} (bounded : time.Bounded)
    (year : 0 ≤ time.year ∧ time.year ≤ 9999)
    (isDate : IsDateOf day (time.year.toNat, time.month, time.day)) (hour : time.hour ≤ 23)
    (minute : time.minute ≤ 59) (second : time.second ≤ 59) :
    instantOfChars (time.stamp ++ (fractionText time.nanosecond ++ utcOffset)) =
      some (((86400 * day + 3600 * time.hour + 60 * time.minute + time.second : Nat) : Rat) +
        (time.nanosecond : Rat) / 1000000000) := by
  have yearFits : time.year.toNat < 10 ^ 4 := by omega
  have twoDigits : ∀ {value : Nat} (rest : List Char), value < 100 →
      number 2 (padded 2 value ++ rest) = some (value, rest) :=
    fun rest fits => @number_padded 2 _ fits rest
  have east : offset utcOffset = some 0 := by decide
  have inDay : daysBeforeYear time.year.toNat + daysBeforeMonth time.year.toNat time.month +
      (time.day - 1) = day := isDate.day_eq
  have inCalendar : 1 ≤ time.month ∧ time.month ≤ 12 ∧ 1 ≤ time.day ∧
      time.day ≤ daysInMonth time.year.toNat time.month ∧ time.hour ≤ 23 ∧ time.minute ≤ 59 ∧
      time.second ≤ 60 :=
    ⟨isDate.firstMonth, isDate.lastMonth, isDate.firstDay, isDate.lastDay, hour, minute,
      second.trans (by decide)⟩
  unfold instantOfChars Civil.stamp yearText
  rw [if_pos year]
  simp only [List.append_assoc, List.cons_append, number_padded yearFits,
    twoDigits _ bounded.month, twoDigits _ bounded.day, twoDigits _ bounded.hour,
    twoDigits _ bounded.minute, twoDigits _ bounded.second, Option.bind_eq_bind,
    Option.bind_some, literal_cons (List.mem_singleton_self _),
    literal_cons (show 'T' ∈ ['T', 't'] from List.mem_cons_self),
    fraction_fractionText bounded.nanosecond, east, if_pos inCalendar, inDay]
  push_cast
  simp

/-- The instant of a printed time, in seconds from the start of the year 0. -/
theorem instant_printed {nanoseconds : Int} (year : FourDigitYear nanoseconds) :
    instant (printed nanoseconds) =
      some ((nanoseconds : Rat) / 1000000000 + (86400 * daysBeforeYear 1970 : Nat)) := by
  have bounded := bounded_civil nanoseconds
  obtain ⟨hour, minute, second, clock⟩ := clock_civil nanoseconds
  have started := dayOf_nonneg year.1
  have seconds : ((86400 * (dayOf nanoseconds).toNat + 3600 * (civil nanoseconds).hour +
      60 * (civil nanoseconds).minute + (civil nanoseconds).second : Nat) : Int) =
        nanoseconds / 1000000000 + (86400 * daysBeforeYear 1970 : Nat) := by
    unfold dayOf at started ⊢
    omega
  have part : ((civil nanoseconds).nanosecond : Int) = nanoseconds % 1000000000 :=
    Int.toNat_of_nonneg (Int.emod_nonneg _ (by decide))
  have whole : (nanoseconds : Rat) =
      1000000000 * (nanoseconds / 1000000000 : Int) + (nanoseconds % 1000000000 : Int) := by
    exact_mod_cast (Int.mul_ediv_add_emod nanoseconds 1000000000).symm
  unfold instant printed Civil.text
  rw [String.toList_ofList, instantOfChars_stamp bounded year (isDateOf_civil year.1) hour minute
    second]
  have secondsRat := congrArg (Int.cast (R := Rat)) seconds
  have partRat := congrArg (Int.cast (R := Rat)) part
  rw [Int.cast_natCast] at secondsRat partRat
  rw [secondsRat, partRat, whole, Int.cast_add, Int.cast_natCast, add_div,
    mul_div_cancel_left₀ _ (by norm_num), add_right_comm]

end Rfc3339
