import BridgeOperator.Client.Call
import BridgeOperator.Client.Expiration
import BridgeOperator.Client.Secret
import BridgeOperator.Config
import BridgeOperator.Reason

/-!
One pass over a client that is not being deleted: the connection secret is brought in line with the
provider config, then the sunset is looked at.
-/

namespace BridgeOperator

namespace Client

/-- The action under which everything about a client is reported. -/
def noticeAction : String := "GefyraClient-State"

def tell (c : Client) (reason note : String) : ClientWork Unit :=
  .publish ⟨c.reference, .normal, reason, noticeAction, note⟩

end Client

/-- A pass over one stored client. -/
structure ClientPass where
  config : OperatorConfig
  client : Client
  namespaceName : String

namespace ClientPass

variable (p : ClientPass)

def record (s : ClientStatus) : ClientWork Unit :=
  .patchStatus p.namespaceName p.client.name s

/-- The secret the status names, or else the one that would be made. -/
def secretName (s : ClientStatus) : String :=
  s.secretName.getD (connectionSecretName p.client.name)

/-- Make the secret for a config. The status then says so. -/
def createSecret (s : ClientStatus) (config : SortedMap String) : ClientWork ClientStatus := do
  let name := connectionSecretName p.client.name
  ClientWork.createSecret p.namespaceName
    (connectionSecret p.client.name p.namespaceName config p.client.owner)
  p.client.tell Reason.secretCreated s!"Connection secret {name} created"
  return { s with secretName := some name, secretSource := some (configFingerprint config) }

/-- Without a config there is no secret. -/
def dropSecret (s : ClientStatus) : ClientWork ClientStatus := do
  match s.secretName with
  | none => return s
  | some name =>
    let _ ← ClientWork.deleteSecret p.namespaceName name
    return { s with secretName := none, secretSource := none }

/-- Create, replace or drop the secret. It is never patched: for a changed config the old one is
deleted and a new one made. -/
def syncSecret (s : ClientStatus) : ClientWork ClientStatus := do
  match p.client.spec.providerConfig.filter (!·.isEmpty) with
  | none => p.dropSecret s
  | some config =>
    let existing ← ClientWork.getSecret p.namespaceName (p.secretName s)
    if existing.isSome then
      if s.secretSource = some (configFingerprint config) then return s
      let _ ← ClientWork.deleteSecret p.namespaceName (p.secretName s)
    p.createSecret s config

/-- The sunset is reached. -/
def moveToWaiting (s : ClientStatus) (deadline : Instant) : ClientWork Unit := do
  let time := deadline.renderOffset
  let now ← ClientWork.now
  p.record (s.transition .waiting (some s!"sunset reached, deletion at {time}") now)
  p.client.tell Reason.sunsetReached s!"Sunset reached, client will be deleted at {time}"

/-- The grace period is over: record it, then delete the secret and the client. -/
def delete (s : ClientStatus) : ClientWork Unit := do
  if s.state ≠ .expired then
    let now ← ClientWork.now
    p.record (s.transition .expired (some "grace window elapsed") now)
    p.client.tell Reason.expired "Grace window elapsed, deleting client"
  let _ ← ClientWork.deleteSecret p.namespaceName (p.secretName s)
  let _ ← ClientWork.deleteClient p.namespaceName p.client.name

/-- Carry out what the sunset calls for. -/
def supervise (s : ClientStatus) (now : Instant) : ClientWork Client.Decision := do
  let decision := p.client.evaluate now p.config.clientGrace
  match decision with
  | .keep => pure ()
  | .moveToWaiting deadline => p.moveToWaiting s deadline
  | .delete => p.delete s
  return decision

/-- No later than a boundary or after an interval, and no sooner than after a second. -/
def requeueUntil (boundary : Option Instant) (now : Instant) (interval : Nat) : Action :=
  match boundary with
  | some t => .requeue (max (min (now.nanosBetween t).toNat interval) (Duration.seconds 1))
  | none => .requeue interval

/-- A pass from the given status. The secret is looked after only while the client is active. -/
def run (s : ClientStatus) : ClientWork Action := do
  let s ← if s.state = .active then p.syncSecret s else pure s
  if p.client.status ≠ some s then p.record s
  let now ← ClientWork.now
  match ← p.supervise s now with
  | .delete => return .awaitChange
  | .moveToWaiting deadline => return requeueUntil (some deadline) now p.config.clientInterval
  | .keep =>
    return requeueUntil (p.client.nextCheck p.config.clientGrace) now p.config.clientInterval

end ClientPass
end BridgeOperator
