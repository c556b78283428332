import BridgeOperator.Duration
import BridgeOperator.Error

/-!
What a reconciliation asks for when it is done.
-/

namespace BridgeOperator

inductive Action where
  /-- Not before the object changes. -/
  | awaitChange
  /-- Again after a while. -/
  | requeue (after : Nat)
  deriving DecidableEq, Repr

/-- Again after a failed step. -/
def Action.retry : Action := .requeue (Duration.seconds 5)

/-- What is asked for after a reconciliation that failed. -/
def errorPolicy (_ : Error) : Action := .retry

end BridgeOperator
