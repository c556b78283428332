import BridgeOperator.Bridge.Basic
import BridgeOperator.Config
import BridgeOperator.Kube.Event
import BridgeOperator.Kube.Service
import BridgeOperator.Provider.Kind
import BridgeOperator.Reason

/-!
What a provider works on: one bridge's spec with its target resolved.
-/

namespace BridgeOperator

namespace Bridge

/-- The action under which everything about a bridge is reported. -/
def noticeAction : String := "GefyraBridge-State"

end Bridge

structure Binding where
  config : OperatorConfig
  bridge : String
  /-- What the provider's notices are about. -/
  reference : Kube.ObjectReference
  spec : BridgeSpec
  target : WorkloadRef
  deriving DecidableEq

namespace Binding

/-- The binding of a bridge, if its target can be parsed. -/
def ofBridge (config : OperatorConfig) (b : Bridge) : Except Error Binding := do
  let target ← b.workload
  .ok { config, bridge := b.name, reference := b.reference, spec := b.spec, target }

def namespaceName (b : Binding) : String := b.spec.targetNamespace

def container (b : Binding) : String := b.spec.targetContainer

def parameters (b : Binding) : ProviderParameter := b.spec.providerParameter

/-- Where traffic of a mapping goes: to the given destination, or to the tunnel's service for the
local port. -/
def endpoint (b : Binding) (m : PortMapping) : String :=
  let port := m.localPort.toNat
  match b.parameters.destination with
  | some host => s!"{host}:{port}"
  | none =>
    let service := Kube.serviceFqdn s!"gefyra-stowaway-proxy-{port}" b.config.namespaceName
    s!"{service}:{port}"

def invalid (b : Binding) (why : Invalid) : Error := .validation b.bridge why

def fault (b : Binding) (kind : ProviderKind) (why : ProviderFault) : Error :=
  .provider b.bridge kind.name why

/-- A note on the progress of an install. -/
def progress (b : Binding) (note : String) : Kube.Notice :=
  ⟨b.reference, .normal, Reason.progress, Bridge.noticeAction, note⟩

end Binding
end BridgeOperator
