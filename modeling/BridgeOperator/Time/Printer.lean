import BridgeOperator.Time.Instant

/-!
Instants as RFC 3339 text.
-/

namespace BridgeOperator.Instant

def padLeft (width : Nat) (n : Nat) : String :=
  let ds := toString n
  String.ofList (List.replicate (width - ds.length) '0') ++ ds

/-- Years of four digits stand for themselves, all others carry a sign. -/
def yearText (year : Int) : String :=
  if 0 ≤ year ∧ year ≤ 9999 then padLeft 4 year.toNat
  else (if year < 0 then "-" else "+") ++ padLeft 4 year.natAbs

/-- How many digits of the fraction are written. -/
inductive Precision where
  | seconds
  | micros
  /-- The fewest of 0, 3, 6 and 9 digits that lose nothing. -/
  | auto

def fractionText (nanos : Nat) : Precision → String
  | .seconds => ""
  | .micros => "." ++ padLeft 6 (nanos / 1000)
  | .auto =>
    if nanos = 0 then ""
    else if nanos % 1000000 = 0 then "." ++ padLeft 3 (nanos / 1000000)
    else if nanos % 1000 = 0 then "." ++ padLeft 6 (nanos / 1000)
    else "." ++ padLeft 9 nanos

/-- Date and time without a suffix for the offset. -/
def civilText (t : Instant) (precision : Precision) : String :=
  let (year, month, day) := civilFromDays (t.seconds.fdiv 86400)
  let time := (t.seconds.fmod 86400).toNat
  let leap := decide (1000000000 ≤ t.nanos)
  yearText year ++ "-" ++ padLeft 2 month ++ "-" ++ padLeft 2 day ++ "T"
    ++ padLeft 2 (time / 3600) ++ ":" ++ padLeft 2 (time / 60 % 60) ++ ":"
    ++ padLeft 2 (time % 60 + (if leap then 1 else 0))
    ++ fractionText (if leap then t.nanos - 1000000000 else t.nanos) precision

/-- The form used in status fields. -/
def render (t : Instant) : String := t.civilText .auto ++ "Z"

/-- The form used inside messages. -/
def renderOffset (t : Instant) : String := t.civilText .auto ++ "+00:00"

end BridgeOperator.Instant
