import BridgeOperator.Bridge.Call
import BridgeOperator.Poll
import BridgeOperator.Reason

/-!
One pass over a bridge that is not being deleted: from REQUESTED over INSTALLING and INSTALLED to
ACTIVE as far as it goes, with ERROR for what only a changed spec can mend. Every step reads the
recorded state first, so a pass may be repeated at any time.
-/

namespace BridgeOperator

/-- What passes share: the settings and the providers there are. -/
structure BridgeContext where
  config : OperatorConfig
  registry : Registry

namespace Bridge

/-- A notice about the bridge. -/
def notice (b : Bridge) (type : Kube.EventType) (reason note : String) : Kube.Notice :=
  ⟨b.reference, type, reason, noticeAction, note⟩

def tell (b : Bridge) (reason note : String) : BridgeWork Unit :=
  .publish (b.notice .normal reason note)

def warn (b : Bridge) (reason note : String) : BridgeWork Unit :=
  .publish (b.notice .warning reason note)

/-- The provider the spec names, bound to the bridge. -/
def provider (b : Bridge) (ctx : BridgeContext) : Except Error BoundProvider := do
  let binding ← Binding.ofBridge ctx.config b
  ctx.registry.build b.spec.provider binding

/-- Take down what the recorded spec installed. -/
def tearDown (b : Bridge) (ctx : BridgeContext) : BridgeWork Unit := do
  let p ← b.applied.provider ctx
  BridgeWork.uninstall p

end Bridge

/-- A pass over one stored bridge. -/
structure BridgePass where
  context : BridgeContext
  bridge : Bridge
  namespaceName : String

namespace BridgePass

variable (p : BridgePass)

/-- How a step ended: the pass goes on from a status, or it is over. -/
inductive Step where
  | next (s : BridgeStatus)
  | done (a : Action)

def record (s : BridgeStatus) : BridgeWork Unit :=
  .patchStatus p.namespaceName p.bridge.name s

/-- Store a change of state. -/
def enter (s : BridgeStatus) (state : BridgeState) (message : Option String) :
    BridgeWork BridgeStatus := do
  let now ← BridgeWork.now
  let s := (s.transition state message now).withReady state (message.getD "") now
  p.record s
  return s

/-- Store a message, unless it is already there. -/
def note (s : BridgeStatus) (message : String) : BridgeWork Unit := do
  if s.message ≠ some message then p.record { s with message := some message }

/-- The status says which spec and generation it was computed from. -/
def withSpec (s : BridgeStatus) : BridgeStatus :=
  { s with
    lastAppliedSpec := some p.bridge.spec.canonical
    observedGeneration := p.bridge.metadata.generation }

/-- Take down what the former spec installed and treat the new one as a fresh request. -/
def restart (s : BridgeStatus) : BridgeWork BridgeStatus := do
  if s.everInstalled then
    match ← (p.bridge.tearDown p.context).outcome with
    | .ok () => pure ()
    | .error e =>
      p.bridge.warn Reason.uninstallFailed s!"Previous installation not removed: {e.message}"
  p.enter s .requested (some "spec changed")

/-- An error that only a changed spec can mend. -/
def fail (s : BridgeStatus) (reason : String) (e : Error) : BridgeWork Step := do
  let _ ← p.enter s .error (some e.message)
  p.bridge.warn reason e.message
  return .done .awaitChange

def reject (s : BridgeStatus) (e : Error) : BridgeWork Step :=
  p.fail (p.withSpec s) Reason.validationFailed e

def validated (s : BridgeStatus) (kind : ProviderKind) : BridgeWork Step := do
  p.bridge.tell Reason.validated s!"Request for {p.bridge.spec.target} validated"
  let s ← p.enter (p.withSpec s) .installing none
  p.bridge.tell Reason.installing s!"Installing {kind.name} provider"
  return .next s

/-- REQUESTED: validate the request against all bridges. -/
def requested (s : BridgeStatus) : BridgeWork Step := do
  match p.bridge.provider p.context with
  | .error e => if e.isRetryable then throw e else p.reject s e
  | .ok provider =>
    let peers ← BridgeWork.listBridges
    match ← (BridgeWork.validate provider p.bridge peers).outcome with
    | .ok () => p.validated s provider.provider.kind
    | .error e => if e.isRetryable then throw e else p.reject s e

/-- Wait until the provider reports ready. -/
def awaitReady (provider : BoundProvider) : BridgeWork (Except Error Unit) :=
  Attempt.ofProg do
    let waited ← pollUntil (BridgeWork.checkReady provider) BridgeWork.sleep
      p.context.config.readinessTimeout p.context.config.readinessPoll
      s!"{provider.provider.kind.name} provider did not report ready"
    return waited.result

/-- INSTALLING: install, then wait for readiness. What may succeed later is tried again later. -/
def installing (s : BridgeStatus) : BridgeWork Step := do
  match p.bridge.provider p.context with
  | .error e => if e.isRetryable then throw e else p.fail s Reason.installFailed e
  | .ok provider =>
    match ← (BridgeWork.install provider).outcome with
    | .error e =>
      if e.isRetryable then
        p.note s s!"install pending: {e.message}"
        return .done (.retry)
      else p.fail s Reason.installFailed e
    | .ok () =>
      match ← p.awaitReady provider with
      | .ok () =>
        let s ← p.enter s .installed none
        p.bridge.tell Reason.installed s!"{provider.provider.kind.name} provider ready"
        return .next s
      | .error e =>
        if e.isRetryable then
          p.note s "waiting for provider readiness"
          return .done (.requeue p.context.config.bridgeInterval)
        else p.fail s Reason.installFailed e

/-- INSTALLED: traffic is bridged from now on. -/
def installed (s : BridgeStatus) : BridgeWork Action := do
  let _ ← p.enter s .active none
  p.bridge.tell Reason.activated
    s!"Traffic for container {p.bridge.spec.targetContainer} of {p.bridge.spec.target} is bridged"
  return .requeue p.context.config.bridgeInterval

def fromInstalling (s : BridgeStatus) : BridgeWork Action := do
  match ← p.installing s with
  | .done a => return a
  | .next s => p.installed s

/-- ACTIVE: check that the installation is still in place, and install again if it is not. -/
def active (s : BridgeStatus) : BridgeWork Action := do
  let provider ← p.bridge.provider p.context
  let check := withDeadline (BridgeWork.checkReady provider) p.context.config.readinessTimeout
    s!"{provider.provider.kind.name} provider drift check did not answer"
  match ← (Attempt.ofProg check).outcome with
  | .ok false =>
    p.bridge.warn Reason.driftDetected "Installation drifted, reinstalling"
    let s ← p.enter s .installing (some "reinstalling after drift")
    p.fromInstalling s
  | _ => return .requeue p.context.config.bridgeInterval

/-- A changed spec restarts a bridge, except where nothing has been decided about the old one. -/
def starting : BridgeWork BridgeStatus :=
  let s := p.bridge.statusOrInitial
  if p.bridge.specChanged && s.state ≠ .requested && s.state ≠ .removed then p.restart s
  else pure s

/-- Drive the bridge as far as it can go, and say when to look again. -/
def run : BridgeWork Action := do
  let s ← p.starting
  match s.state with
  | .requested =>
    match ← p.requested s with
    | .done a => return a
    | .next s => p.fromInstalling s
  | .installing => p.fromInstalling s
  | .installed => p.installed s
  | .active => p.active s
  | .error | .removed => return .awaitChange

end BridgePass
end BridgeOperator
