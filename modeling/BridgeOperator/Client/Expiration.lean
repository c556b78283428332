import BridgeOperator.Client.Basic

/-!
When a client expires. Every decision compares the stored sunset with the clock, so a restart
lands on the same decision.
-/

namespace BridgeOperator.Client

inductive Decision where
  | keep
  /-- The sunset is reached; the client waits until `deadline`. -/
  | moveToWaiting (deadline : Instant)
  | delete
  deriving DecidableEq, Repr

/-- A sunset that cannot be read counts as unset, so that a bad timestamp revokes nothing. -/
def sunset? (c : Client) : Option Instant := c.spec.sunset.bind Instant.parseSunset?

/-- Sunset plus grace, or the last instant there is. -/
def deletionDeadline (sunset : Instant) (grace : Nat) : Instant :=
  (sunset.add? (grace / 1000000000) (grace % 1000000000)).getD Instant.last

def stateOrActive (c : Client) : ClientState := c.state.getD .active

/-- What to do with a client now. WAITING never goes back to ACTIVE. -/
def evaluate (c : Client) (now : Instant) (grace : Nat) : Decision :=
  match c.sunset? with
  | none => .keep
  | some sunset =>
    let deadline := deletionDeadline sunset grace
    match c.stateOrActive with
    | .active => if sunset.notAfter now then .moveToWaiting deadline else .keep
    | .waiting | .expired => if deadline.notAfter now then .delete else .keep

/-- The next instant at which `evaluate` may change its answer. -/
def nextCheck (c : Client) (grace : Nat) : Option Instant :=
  c.sunset?.map fun sunset =>
    match c.stateOrActive with
    | .active => sunset
    | .waiting | .expired => deletionDeadline sunset grace

end BridgeOperator.Client
