import BridgeOperator.Kube.Workload
import BridgeOperator.Program
import BridgeOperator.Provider.Binding

/-!
Providers: what they may ask of the cluster, what they do for a bridge, and how they are found by
name.
-/

namespace BridgeOperator

open Kube (Pod Controller Workload Service Notice)

/-- A container of a running pod. -/
structure ContainerId where
  namespaceName : String
  pod : String
  container : String
  deriving DecidableEq, Repr

/-- A step of a provider that is not part of this library. -/
inductive ExternalStep where
  | validate (peers : Nat)
  | install
  | ready
  | uninstall
  deriving DecidableEq, Repr

/-- What providers ask of the cluster. -/
inductive TargetCall where
  | getPod (namespaceName name : String)
  | listPods (namespaceName selector : String)
  | getWorkload (c : Controller) (namespaceName name : String)
  | applyWorkload (c : Controller) (namespaceName : String) (w : Workload)
  | deleteWorkload (c : Controller) (namespaceName name : String)
  | getService (namespaceName name : String)
  | applyService (namespaceName : String) (s : Service)
  | deleteService (namespaceName name : String)
  | readConfig (sidecar : ContainerId)
  | applyConfig (sidecar : ContainerId) (document logLevel : String)
  | processAlive (sidecar : ContainerId)
  | publish (n : Notice)
  | external (step : ExternalStep)

/-- A look-up answers `none` when there is no such object, and a deletion whether there was one. -/
def TargetCall.Result : TargetCall → Type
  | getPod .. => Except Error (Option Pod)
  | listPods .. => Except Error (List Pod)
  | getWorkload .. => Except Error (Option Workload)
  | applyWorkload .. => Except Error Unit
  | deleteWorkload .. => Except Error Bool
  | getService .. => Except Error (Option Service)
  | applyService .. => Except Error Unit
  | deleteService .. => Except Error Bool
  | readConfig _ => Except Error (Option String)
  | applyConfig .. => Except Error Unit
  | processAlive _ => Except Error Bool
  | publish _ => Unit
  | external _ => Except Error Bool

instance : Calls TargetCall := ⟨TargetCall.Result⟩

/-- The work of a provider. -/
abbrev Work (α : Type) : Type := Attempt TargetCall α

namespace Work

def getPod (namespaceName name : String) : Work (Option Pod) :=
  .ofProg (.perform (TargetCall.getPod namespaceName name))

def listPods (namespaceName selector : String) : Work (List Pod) :=
  .ofProg (.perform (TargetCall.listPods namespaceName selector))

def getWorkload (c : Controller) (namespaceName name : String) : Work (Option Workload) :=
  .ofProg (.perform (TargetCall.getWorkload c namespaceName name))

def applyWorkload (c : Controller) (namespaceName : String) (w : Workload) : Work Unit :=
  .ofProg (.perform (TargetCall.applyWorkload c namespaceName w))

def deleteWorkload (c : Controller) (namespaceName name : String) : Work Bool :=
  .ofProg (.perform (TargetCall.deleteWorkload c namespaceName name))

def getService (namespaceName name : String) : Work (Option Service) :=
  .ofProg (.perform (TargetCall.getService namespaceName name))

def applyService (namespaceName : String) (s : Service) : Work Unit :=
  .ofProg (.perform (TargetCall.applyService namespaceName s))

def deleteService (namespaceName name : String) : Work Bool :=
  .ofProg (.perform (TargetCall.deleteService namespaceName name))

def readConfig (sidecar : ContainerId) : Work (Option String) :=
  .ofProg (.perform (TargetCall.readConfig sidecar))

def applyConfig (sidecar : ContainerId) (document logLevel : String) : Work Unit :=
  .ofProg (.perform (TargetCall.applyConfig sidecar document logLevel))

def processAlive (sidecar : ContainerId) : Work Bool :=
  .ofProg (.perform (TargetCall.processAlive sidecar))

def publish (n : Notice) : Work Unit := .always (.perform (TargetCall.publish n))

def external (step : ExternalStep) : Work Bool := .ofProg (.perform (TargetCall.external step))

end Work

/-- One strategy for mounting bridges. Nothing is remembered between passes but what can be read
back from the cluster. -/
structure Provider where
  kind : ProviderKind
  /-- Can the request be mounted, beside the other bridges? -/
  validate : Binding → Bridge → List Bridge → Work Unit
  /-- Mount the bridge; mounting it again changes nothing. -/
  install : Binding → Work Unit
  ready : Binding → Work Bool
  /-- Remove the bridge; succeeds when nothing was mounted. -/
  uninstall : Binding → Work Unit

/-- A provider that works for one bridge. -/
structure BoundProvider where
  provider : Provider
  binding : Binding

/-- Providers by the name under which specs ask for them. -/
abbrev Registry : Type := SortedMap Provider

/-- The provider of a name, bound to a bridge. -/
def Registry.build (r : Registry) (name : String) (b : Binding) : Except Error BoundProvider :=
  match r.get? name with
  | some provider => .ok { provider, binding := b }
  | none => .error (b.invalid (.unknownProvider name r.keys))

/-- A provider outside this library, whose steps the cluster answers for. -/
def Provider.external (kind : ProviderKind) : Provider where
  kind
  validate _ _ peers := do
    let _ ← Work.external (.validate peers.length)
  install _ := do
    let _ ← Work.external .install
  ready _ := Work.external .ready
  uninstall _ := do
    let _ ← Work.external .uninstall

end BridgeOperator
