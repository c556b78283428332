import BridgeOperator.Duration
import BridgeOperator.Program

/-!
Waiting for a condition: check it, wait an interval, check again, for as long as the time lasts.
-/

namespace BridgeOperator

/-- How a wait ends. -/
inductive Waited where
  | ended (r : Except Error Unit)
  /-- The time that has passed and an interval are too long a span together, and the program
  panics. -/
  | overflowed

/-- What there is for the rest of the program: after a panic there is no rest. -/
def Waited.result : Waited → Except Error (Except Error Unit)
  | .ended r => .ok r
  | .overflowed => .error (.panic "overflow when adding durations")

variable {C : Type} [Calls C]

/-- Go on after an interval if there is the time for it, with the time that has passed then. -/
def pollAgain (sleep : Nat → Prog C Unit) (interval : Nat) (expired : Error) (timeout : Nat)
    (goOn : Nat → Prog C Waited) (elapsed : Nat) : Prog C Waited :=
  match Duration.add? elapsed interval with
  | none => pure .overflowed
  | some resumed =>
    if resumed ≤ timeout then do
      sleep interval
      goOn resumed
    else pure (.ended (.error expired))

/-- Check until the condition holds. A check gets the time that is left, and an error that may go
away counts as "not yet". There is another check after an interval only if it can start in time;
`fuel` bounds their number. -/
def pollFor (check : Nat → Prog C (Timed (Except Error Bool))) (sleep : Nat → Prog C Unit)
    (interval : Nat) (expired : Error) (timeout : Nat) : Nat → Nat → Prog C Waited
  | 0, _ => pure (.ended (.error expired))
  | fuel + 1, elapsed => do
    let again := pollAgain sleep interval expired timeout
      (pollFor check sleep interval expired timeout fuel)
    match ← check (timeout - elapsed) with
    | .late => pure (.ended (.error expired))
    | .finished _ (.ok true) => pure (.ended (.ok ()))
    | .finished took (.ok false) => again (elapsed + took)
    | .finished took (.error e) =>
      if e.isRetryable then again (elapsed + took) else pure (.ended (.error e))

/-- How many checks there can be. With an interval the time runs out first; without one the checks
may take no time at all, and only their number ends them. -/
def checkBound (timeout interval : Nat) : Nat :=
  if interval = 0 then timeout + 10000 else timeout / interval + 1

/-- Poll within a timeout. -/
def pollUntil (check : Nat → Prog C (Timed (Except Error Bool))) (sleep : Nat → Prog C Unit)
    (timeout interval : Nat) (message : String) : Prog C Waited :=
  pollFor check sleep interval (.timeout message) timeout (checkBound timeout interval) 0

/-- One check within a limit; not answering in time is an error. -/
def withDeadline (check : Nat → Prog C (Timed (Except Error Bool))) (limit : Nat)
    (message : String) : Prog C (Except Error Bool) := do
  match ← check limit with
  | .late => pure (.error (.timeout message))
  | .finished _ r => pure r

end BridgeOperator
