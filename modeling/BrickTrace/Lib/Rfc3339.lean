import Mathlib.Data.Rat.Defs

/-!
# RFC 3339 timestamps

The instant that a timestamp denotes, in seconds of UTC from the start of the year 0.
A timestamp has a date, a time of day with any number of fractional digits, and an
offset that is written `Z` or in hours and minutes.  A leap second counts as the
second after it.
-/

set_option autoImplicit false

namespace Rfc3339

/-- The value of a run of digits, as far as they are digits. -/
def digitsValue (digits : List Char) : Nat :=
  digits.foldl (fun value digit => 10 * value + (digit.toNat - 48)) 0

/-- A number of exactly `width` digits, and what follows it. -/
def number (width : Nat) (text : List Char) : Option (Nat × List Char) :=
  let digits := text.take width
  if digits.length = width ∧ digits.all Char.isDigit then
    some (digitsValue digits, text.drop width)
  else none

def literal (allowed : List Char) : List Char → Option (List Char)
  | [] => none
  | char :: rest => if char ∈ allowed then some rest else none

def fraction : List Char → Option (Rat × List Char)
  | '.' :: rest =>
      let digits := rest.takeWhile Char.isDigit
      if digits = [] then none
      else some (mkRat (digitsValue digits) (Nat.pow 10 digits.length), rest.dropWhile Char.isDigit)
  | rest => some (0, rest)

/-- The offset of the local time from UTC, in seconds, as the end of a timestamp. -/
def offset : List Char → Option Int
  | ['Z'] => some 0
  | ['z'] => some 0
  | sign :: rest => do
      let _ ← literal ['+', '-'] [sign]
      let (hours, rest) ← number 2 rest
      let rest ← literal [':'] rest
      let (minutes, rest) ← number 2 rest
      if hours ≤ 23 ∧ minutes ≤ 59 ∧ rest = [] then
        let seconds : Int := 3600 * hours + 60 * minutes
        return if sign = '-' then -seconds else seconds
      else none
  | [] => none

def isLeapYear (year : Nat) : Bool := (4 ∣ year ∧ ¬ 100 ∣ year) ∨ 400 ∣ year

def daysInMonth (year month : Nat) : Nat :=
  if month = 2 then if isLeapYear year then 29 else 28
  else if month ∈ [4, 6, 9, 11] then 30 else 31

def daysBeforeYear (year : Nat) : Nat :=
  365 * year + (year + 3) / 4 - (year + 99) / 100 + (year + 399) / 400

def daysBeforeMonth (year month : Nat) : Nat :=
  (List.range (month - 1)).foldl (fun days earlier => days + daysInMonth year (earlier + 1)) 0

def instantOfChars (text : List Char) : Option Rat := do
  let (year, rest) ← number 4 text
  let rest ← literal ['-'] rest
  let (month, rest) ← number 2 rest
  let rest ← literal ['-'] rest
  let (day, rest) ← number 2 rest
  let rest ← literal ['T', 't'] rest
  let (hour, rest) ← number 2 rest
  let rest ← literal [':'] rest
  let (minute, rest) ← number 2 rest
  let rest ← literal [':'] rest
  let (second, rest) ← number 2 rest
  let (part, rest) ← fraction rest
  let east ← offset rest
  if 1 ≤ month ∧ month ≤ 12 ∧ 1 ≤ day ∧ day ≤ daysInMonth year month ∧ hour ≤ 23 ∧
      minute ≤ 59 ∧ second ≤ 60 then
    let days := daysBeforeYear year + daysBeforeMonth year month + (day - 1)
    let seconds : Nat := 86400 * days + 3600 * hour + 60 * minute + second
    return ((seconds : Int) - east : Int) + part
  else none

/-- The instant a timestamp denotes, when the text is one. -/
def instant (text : String) : Option Rat := instantOfChars text.toList

example : instant "2026-06-22T10:00:00+02:00" = instant "2026-06-22T07:59:60Z" := by
  decide +kernel

end Rfc3339
