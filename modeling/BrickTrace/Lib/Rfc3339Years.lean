import BrickTrace.Lib.Rfc3339
import Mathlib.Data.List.Induction
import Mathlib.Algebra.Order.Field.Rat
import Mathlib.Tactic.Linarith
import Mathlib.Tactic.NormNum

/-!
# The years of a timestamp

The year of a timestamp has four digits, so the instant lies within ten thousand years of the
start of the year 0, but for the day that the offset can take it beyond them.
-/

set_option autoImplicit false

namespace Rfc3339

/-! ## Numbers of a bounded width -/

theorem digitsValue_lt {digits : List Char} (all : digits.all Char.isDigit = true) :
    digitsValue digits < 10 ^ digits.length := by
  unfold digitsValue
  induction digits using List.reverseRecOn with
  | nil => decide
  | append_singleton front digit ih =>
      rw [List.all_append, Bool.and_eq_true] at all
      have isDigit : digit.toNat ≤ 57 := by
        have digits := all.2
        simp only [List.all_cons, List.all_nil, Bool.and_true, Char.isDigit, Bool.and_eq_true,
          decide_eq_true_eq] at digits
        exact digits.2
      rw [List.foldl_append, List.length_append, List.length_singleton, Nat.pow_succ]
      have before := ih all.1
      simp only [List.foldl_cons, List.foldl_nil]
      omega

theorem number_lt {width value : Nat} {text rest : List Char}
    (read : number width text = some (value, rest)) : value < 10 ^ width := by
  unfold number at read
  dsimp only at read
  split at read
  · rename_i isNumber
    have below := digitsValue_lt isNumber.2
    rw [isNumber.1] at below
    cases read
    exact below
  · cases read

/-! ## The parts of a timestamp -/

theorem fraction_bounds {part : Rat} {text rest : List Char}
    (read : fraction text = some (part, rest)) : 0 ≤ part ∧ part ≤ 1 := by
  unfold fraction at read
  split at read
  · rename_i digits
    dsimp only at read
    split at read
    · cases read
    · cases read
      have below := digitsValue_lt (List.all_takeWhile (p := Char.isDigit) (l := digits))
      refine ⟨Rat.mkRat_nonneg (Int.natCast_nonneg _) _, ?_⟩
      rw [Rat.mkRat_eq_div]
      refine div_le_one_of_le₀ ?_ (by positivity)
      exact_mod_cast Nat.le_of_lt below
  · cases read
    decide

theorem offset_bounds {text : List Char} {east : Int} (read : offset text = some east) :
    -86400 < east ∧ east < 86400 := by
  unfold offset at read
  split at read
  · cases read
    decide
  · cases read
    decide
  · rename_i sign rest _ _
    obtain ⟨_, _, read⟩ := Option.bind_eq_some_iff.mp read
    obtain ⟨⟨hours, _⟩, _, read⟩ := Option.bind_eq_some_iff.mp read
    obtain ⟨_, _, read⟩ := Option.bind_eq_some_iff.mp read
    obtain ⟨⟨minutes, _⟩, _, read⟩ := Option.bind_eq_some_iff.mp read
    dsimp only at read
    split at read
    · rename_i bounded
      have value := Option.some.inj read
      split at value <;> omega
    · cases read
  · cases read

theorem daysBeforeMonth_le {year month : Nat} (isMonth : month ≤ 12) :
    daysBeforeMonth year month ≤ 400 := by
  have month_le : ∀ other, daysInMonth year other ≤ 31 := by
    intro other
    unfold daysInMonth
    split
    · split <;> decide
    · split <;> decide
  have fold_le : ∀ (months : List Nat) (start : Nat),
      months.foldl (fun days earlier => days + daysInMonth year (earlier + 1)) start ≤
        start + 31 * months.length := by
    intro months
    induction months with
    | nil => exact fun start => Nat.le_refl _
    | cons first rest ih =>
        intro start
        have later := ih (start + daysInMonth year (first + 1))
        have one := month_le (first + 1)
        simp only [List.foldl_cons, List.length_cons]
        omega
  have whole := fold_le (List.range (month - 1)) 0
  rw [List.length_range] at whole
  unfold daysBeforeMonth
  omega

/-- A timestamp lies in a year of four digits, by the clock of its place. -/
theorem instant_bounds {text : String} {seconds : Rat} (read : instant text = some seconds) :
    -86400 ≤ seconds ∧ seconds ≤ 86400 * 3653000 := by
  unfold instant instantOfChars at read
  obtain ⟨⟨year, _⟩, yearRead, read⟩ := Option.bind_eq_some_iff.mp read
  obtain ⟨_, _, read⟩ := Option.bind_eq_some_iff.mp read
  obtain ⟨⟨month, _⟩, _, read⟩ := Option.bind_eq_some_iff.mp read
  obtain ⟨_, _, read⟩ := Option.bind_eq_some_iff.mp read
  obtain ⟨⟨day, _⟩, _, read⟩ := Option.bind_eq_some_iff.mp read
  obtain ⟨_, _, read⟩ := Option.bind_eq_some_iff.mp read
  obtain ⟨⟨hour, _⟩, _, read⟩ := Option.bind_eq_some_iff.mp read
  obtain ⟨_, _, read⟩ := Option.bind_eq_some_iff.mp read
  obtain ⟨⟨minute, _⟩, _, read⟩ := Option.bind_eq_some_iff.mp read
  obtain ⟨_, _, read⟩ := Option.bind_eq_some_iff.mp read
  obtain ⟨⟨second, _⟩, _, read⟩ := Option.bind_eq_some_iff.mp read
  obtain ⟨⟨part, _⟩, partRead, read⟩ := Option.bind_eq_some_iff.mp read
  obtain ⟨east, eastRead, read⟩ := Option.bind_eq_some_iff.mp read
  dsimp only at read
  split at read
  · rename_i valid
    have yearBelow := number_lt yearRead
    have months := @daysBeforeMonth_le year month valid.2.1
    have partBounds := fraction_bounds partRead
    have eastBounds := offset_bounds eastRead
    have dayBelow : day ≤ 31 := by
      have inMonth := valid.2.2.2.1
      unfold daysInMonth at inMonth
      split at inMonth <;> split at inMonth <;> omega
    have value := Option.some.inj read
    have years : daysBeforeYear year ≤ 3652060 := by
      unfold daysBeforeYear
      omega
    generalize isDays : daysBeforeYear year + daysBeforeMonth year month + (day - 1) = days at value
    generalize isSeconds : 86400 * days + 3600 * hour + 60 * minute + second = clock at value
    have least : ((-86400 : Int) : Rat) ≤ ((clock : Int) - east : Int) :=
      Int.cast_le.mpr (by omega)
    have most : (((clock : Int) - east : Int) : Rat) ≤ (86400 * 3652999 : Int) :=
      Int.cast_le.mpr (by omega)
    rw [← value]
    constructor
    · push_cast at least ⊢
      linarith [partBounds.1]
    · push_cast at most ⊢
      linarith [partBounds.2]
  · cases read

end Rfc3339
