/-!
Instants of UTC with nanoseconds, and the calendar they are read and written in. A leap second is
the 59th second with a fraction of one second or more, so instants are compared lexicographically.
-/

namespace BridgeOperator

/-- `seconds` counts from 1970-01-01T00:00:00Z; `nanos` is below two thousand million. -/
structure Instant where
  seconds : Int
  nanos : Nat
  deriving DecidableEq, Repr, Inhabited

namespace Instant

def before (a b : Instant) : Bool :=
  a.seconds < b.seconds || (a.seconds = b.seconds && a.nanos < b.nanos)

def notAfter (a b : Instant) : Bool := !b.before a

/-- Days from 1970-01-01 to the given day of the proleptic Gregorian calendar. -/
def daysFromCivil (year : Int) (month day : Nat) : Int :=
  let y := if month ≤ 2 then year - 1 else year
  let era := y.fdiv 400
  let yearOfEra := y - era * 400
  let shifted : Int := if month > 2 then (month : Int) - 3 else (month : Int) + 9
  let dayOfYear := (153 * shifted + 2) / 5 + (day : Int) - 1
  let dayOfEra := yearOfEra * 365 + yearOfEra / 4 - yearOfEra / 100 + dayOfYear
  era * 146097 + dayOfEra - 719468

/-- The inverse of `daysFromCivil`. -/
def civilFromDays (days : Int) : Int × Nat × Nat :=
  let z := days + 719468
  let era := z.fdiv 146097
  let dayOfEra := z - era * 146097
  let yearOfEra := (dayOfEra - dayOfEra / 1460 + dayOfEra / 36524 - dayOfEra / 146096) / 365
  let dayOfYear := dayOfEra - (365 * yearOfEra + yearOfEra / 4 - yearOfEra / 100)
  let shifted := (5 * dayOfYear + 2) / 153
  let day := dayOfYear - (153 * shifted + 2) / 5 + 1
  let month := if shifted < 10 then shifted + 3 else shifted - 9
  let year := yearOfEra + era * 400 + (if month ≤ 2 then 1 else 0)
  (year, month.toNat, day.toNat)

def isLeapYear (year : Int) : Bool :=
  year % 4 = 0 && (year % 100 ≠ 0 || year % 400 = 0)

def daysInMonth (year : Int) (month : Nat) : Nat :=
  if month = 2 then (if isLeapYear year then 29 else 28)
  else if month = 4 ∨ month = 6 ∨ month = 9 ∨ month = 11 then 30
  else 31

/-- The years instants are read and computed in. -/
def minYear : Int := -262143
def maxYear : Int := 262142

/-- The instant of a date and time of day; `none` if there is no such day or time. The 60th second
of any minute is read as a leap second. -/
def ofCivil? (year : Int) (month day hour minute second nanos : Nat) : Option Instant :=
  if minYear ≤ year ∧ year ≤ maxYear ∧ 1 ≤ month ∧ month ≤ 12
      ∧ 1 ≤ day ∧ day ≤ daysInMonth year month ∧ hour < 24 ∧ minute < 60 ∧ second ≤ 60 then
    let whole : Int := (hour * 3600 + minute * 60 + min second 59 : Nat)
    some ⟨daysFromCivil year month day * 86400 + whole,
      if second = 60 then nanos + 1000000000 else nanos⟩
  else none

/-- The last instant that can be computed with. -/
def last : Instant := ⟨daysFromCivil maxYear 12 31 * 86400 + 86399, 999999999⟩

def first : Instant := ⟨daysFromCivil minYear 1 1 * 86400, 0⟩

/-- Move by whole seconds and leave the fraction alone, as a change of offset does. -/
def shiftSeconds (t : Instant) (s : Int) : Instant := ⟨t.seconds + s, t.nanos⟩

/-- Add a span of `s` seconds and `n < 10 ^ 9` nanoseconds. A sum that leaves a leap second
continues with the second after it; one out of range has no value. -/
def add? (t : Instant) (s n : Nat) : Option Instant :=
  let sum : Instant :=
    if 1000000000 ≤ t.nanos then
      if 0 < s ∨ 2000000000 ≤ t.nanos + n then
        let total := t.nanos - 1000000000 + n
        ⟨t.seconds + s + (total / 1000000000 : Nat), total % 1000000000⟩
      else ⟨t.seconds, t.nanos + n⟩
    else
      let total := t.nanos + n
      ⟨t.seconds + s + (total / 1000000000 : Nat), total % 1000000000⟩
  if sum.notAfter last then some sum else none

/-- The span from `a` to `b` in nanoseconds. Between two times of day a leap second counts. -/
def nanosBetween (a b : Instant) : Int :=
  let timeA := a.seconds.fmod 86400
  let timeB := b.seconds.fmod 86400
  let leap : Int :=
    if timeA < timeB ∧ 1000000000 ≤ a.nanos then 1
    else if timeB < timeA ∧ 1000000000 ≤ b.nanos then -1
    else 0
  (b.seconds - a.seconds + leap) * 1000000000 + ((b.nanos : Int) - (a.nanos : Int))

end Instant
end BridgeOperator
