import BridgeOperator.Client.Pass

/-!
What is done when a client is seen: a pass over a live one, and for a deleted one the deletion of
its bridges. The latter always lets the deletion finish.
-/

namespace BridgeOperator.Client

/-- Claim the client, so that it is not gone before its bridges are. -/
def ensureFinalizer (c : Client) (namespaceName : String) : ClientWork Unit := do
  if !c.metadata.hasFinalizer finalizer then ClientWork.addFinalizer namespaceName c.name

/-- A pass over a live client, starting from a status that may depend on the clock. -/
def passFrom (c : Client) (config : OperatorConfig) (status : ClientWork ClientStatus) :
    ClientWork Action := do
  match c.metadata.namespaceName with
  | none => throw (.validation c.name (.noNamespace kind))
  | some namespaceName =>
    c.ensureFinalizer namespaceName
    ClientPass.run ⟨config, c, namespaceName⟩ (← status)

/-- A client that is seen for the first time becomes ACTIVE. -/
def create (c : Client) (config : OperatorConfig) : ClientWork Action :=
  c.passFrom config do
    return ClientStatus.initial.transition .active (some "client active") (← ClientWork.now)

/-- A client that has been seen before. -/
def resume (c : Client) (config : OperatorConfig) : ClientWork Action :=
  c.passFrom config (pure (c.status.getD .initial))

/-- A deleted client takes its bridges along; a failure to delete them does not keep it. -/
def remove (c : Client) : ClientWork Action := do
  match c.metadata.namespaceName with
  | none => return .awaitChange
  | some namespaceName =>
    if !c.metadata.hasFinalizer finalizer then return .awaitChange
    let _ ← (ClientWork.deleteBridgesOf namespaceName c.name).outcome
    match ← (ClientWork.removeFinalizer namespaceName c.name).outcome with
    | .ok () => return .awaitChange
    | .error _ => return .retry

def reconcile (c : Client) (config : OperatorConfig) : ClientWork Action :=
  if c.metadata.deletionTimestamp.isSome then c.remove
  else if c.status.isNone then c.create config
  else c.resume config

end BridgeOperator.Client
