import BridgeOperator.HttpStatus
import BridgeOperator.Text.Quoted
import BridgeOperator.Workload.Reference

/-!
Everything that can go wrong, as causes. The wording, the kind and whether a retry may help are
each decided in one place.
-/

namespace BridgeOperator

/-- A failure reported by the Kubernetes API. -/
structure ApiStatus where
  status : String
  message : String
  reason : String
  code : Nat
  deriving DecidableEq, Repr

/-- Why a call of the Kubernetes API failed. -/
inductive KubeFault where
  | api (status : ApiStatus)
  | noAnswer
  | unreadable
  /-- An object without a name has no address. -/
  | unnamedObject
  /-- A command was to run, and the server kept to plain HTTP. -/
  | notUpgraded (status : Nat)
  | noUpgradeHeader
  deriving DecidableEq, Repr

def KubeFault.message : KubeFault → String
  | .api s =>
    s!"ApiError: {s.message}: {s.reason} (ErrorResponse \x7b status: "
      ++ Text.quoted s.status ++ ", message: " ++ Text.quoted s.message ++ ", reason: "
      ++ Text.quoted s.reason ++ s!", code: {s.code} \x7d)"
  | .noAnswer => "ServiceError: no answer"
  | .unreadable => "Error deserializing response"
  | .unnamedObject =>
    "Failed to build request: failed to validate request: A non-empty name is required"
  | .notUpgraded status =>
    s!"failed to upgrade to a WebSocket connection: "
      ++ s!"failed to switch protocol: {httpStatusText status}"
  | .noUpgradeHeader =>
    "failed to upgrade to a WebSocket connection: upgrade header was not set to websocket"

/-- Why a request cannot be served as written. -/
inductive Invalid where
  | reported (message : String) (field : Option String)
  | reference (fault : ReferenceFault)
  | target (fault : ReferenceFault)
  | noNamespace (kind : String)
  | unknownProvider (name : String) (known : List String)
  | containerOwned (container target namespaceName owner state : String)
  | workloadOwned (target namespaceName provider owner state container : String)
  | noMappings
  | zeroPort (containerPort localPort : UInt16)
  | mappedTwice (port : UInt16)
  | targetNotFound (target : WorkloadRef) (namespaceName : String)
  | podTarget
  | containerNotInPod (container pod : String)
  | containerNotInWorkload (container : String) (target : WorkloadRef)
  | foreignImage (container pod image expected : String)
  | undeclaredPort (container : String) (port : UInt16)
  deriving DecidableEq, Repr

namespace Invalid

def message : Invalid → String
  | reported m _ => m
  | reference fault => fault.message
  | target fault => s!"validation error for unknown: {fault.message}"
  | noNamespace kind => s!"{kind} has no namespace"
  | unknownProvider name known =>
    s!"unknown provider '{name}', expected one of: " ++ String.intercalate ", " known
  | containerOwned container wanted ns owner state =>
    s!"container {container} of {wanted} in namespace {ns} is already bridged by {owner} ({state})"
  | workloadOwned wanted ns provider owner state container =>
    s!"{wanted} in namespace {ns} is already bridged through {provider} by {owner} "
      ++ s!"({state}, container {container})"
  | noMappings => "at least one port mapping is required"
  | zeroPort c l => s!"invalid mapping {c}:{l}, ports must be nonzero"
  | mappedTwice port => s!"container port {port} is mapped twice"
  | targetNotFound t ns => s!"target {t.render} not found in namespace {ns}"
  | podTarget => "the duplicate provider needs a deployment or statefulset target"
  | containerNotInPod container pod => s!"container {container} not found in pod {pod}"
  | containerNotInWorkload container t => s!"container {container} not found in {t.render}"
  | foreignImage container pod image expected =>
    s!"container {container} in pod {pod} runs {image}, not {expected}"
  | undeclaredPort container port => s!"container {container} does not declare port {port}"

/-- The path of the field that has to change. -/
def field : Invalid → Option String
  | reported _ f => f
  | reference _ | noNamespace _ => none
  | target _ | workloadOwned .. | targetNotFound .. | podTarget => some "spec.target"
  | unknownProvider .. => some "spec.provider"
  | containerOwned .. | containerNotInPod .. | containerNotInWorkload .. | foreignImage .. =>
    some "spec.targetContainer"
  | noMappings | zeroPort .. | mappedTwice _ | undeclaredPort .. =>
    some "spec.providerParameter.portMappings"

end Invalid

/-- Why a provider could not do its work. -/
inductive ProviderFault where
  | reported (message : String) (retryable : Bool)
  | podWithoutAddress (pod : String)
  | noRunningPods (target : WorkloadRef)
  | noPods (target : WorkloadRef)
  | podNotReady (pod : String)
  | containerVanished (container : String) (target : WorkloadRef)
  | workloadWithoutSpec (kind : WorkloadKind)
  | targetMissing (target : WorkloadRef) (namespaceName : String)
  deriving DecidableEq, Repr

namespace ProviderFault

def message : ProviderFault → String
  | reported m _ => m
  | podWithoutAddress pod => s!"pod {pod} has no IP yet"
  | noRunningPods t => s!"{t.render} has no running pods yet"
  | noPods t => s!"no pods found for {t.render}"
  | podNotReady pod => s!"pod {pod} is not ready"
  | containerVanished container t => s!"container {container} vanished from {t.render}"
  | workloadWithoutSpec kind => s!"{kind.name} has no spec"
  | targetMissing t ns => s!"target {t.render} not found in namespace {ns}"

/-- What waits for pods may be tried again; a target that is gone may not. -/
def isRetryable : ProviderFault → Bool
  | reported _ r => r
  | podWithoutAddress _ | noRunningPods _ | noPods _ | podNotReady _ => true
  | containerVanished .. | workloadWithoutSpec _ | targetMissing .. => false

end ProviderFault

inductive ExecFault where
  | reported (message : String)
  | sidecarPanicked (log : String)
  deriving DecidableEq, Repr

def ExecFault.message : ExecFault → String
  | .reported m => m
  | .sidecarPanicked log => s!"carrier2 failed to start, see {log}"

inductive Error where
  | kube (fault : KubeFault)
  | validation (resource : String) (why : Invalid)
  | provider (resource provider : String) (why : ProviderFault)
  | exec (pod : String) (why : ExecFault)
  | serialization (message : String)
  | internal (context message : String)
  /-- The operator stops working. No call fails like this, and nothing is done about it. -/
  | panic (message : String)
  deriving DecidableEq, Repr

namespace Error

def message : Error → String
  | kube fault => s!"kubernetes error: {fault.message}"
  | validation resource why => s!"validation error for {resource}: {why.message}"
  | provider resource name why => s!"provider error [{name}] for {resource}: {why.message}"
  | exec pod why => s!"exec error in pod {pod}: {why.message}"
  | serialization m => s!"serialization error: {m}"
  | internal context m => s!"internal error [{context}]: {m}"
  | panic m => m

def kind : Error → String
  | kube (.api s) =>
    if s.code = 403 then "forbidden" else if s.code = 404 then "not_found" else "kube"
  | kube _ => "kube"
  | validation .. => "validation"
  | provider .. => "provider"
  | exec .. => "exec"
  | serialization _ => "serialization"
  | internal .. => "internal"
  | panic _ => "panic"

/-- Validation and serialization errors need a changed request; of the API's answers a 4xx other
than a conflict is final. -/
def isRetryable : Error → Bool
  | kube (.api s) => !(400 ≤ s.code && s.code < 500 && s.code ≠ 409)
  | kube _ => true
  | validation .. => false
  | provider _ _ why => why.isRetryable
  | exec .. => true
  | serialization _ => false
  | internal .. => true
  | panic _ => false

def isNotFound : Error → Bool
  | kube (.api s) => s.code = 404
  | _ => false

/-- The bridge or client the error is tied to. -/
def resource : Error → Option String
  | validation r _ => some r
  | provider r _ _ => some r
  | _ => none

def field : Error → Option String
  | validation _ why => why.field
  | _ => none

/-- The error of a wait that ran out of time. -/
def timeout (message : String) : Error := .internal "poll_until" message

end Error
end BridgeOperator
