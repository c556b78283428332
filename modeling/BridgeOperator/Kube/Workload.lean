import BridgeOperator.Kube.Pod
import BridgeOperator.Kube.Selector

/-!
Deployments and stateful sets: replicated pods made from a template.
-/

namespace BridgeOperator.Kube

inductive Controller where
  | deployment
  | statefulSet
  deriving DecidableEq, Repr

structure WorkloadSpec where
  replicas : Option Int32
  selector : LabelSelector
  template : PodTemplate
  other : Fields

structure WorkloadStatus where
  observedGeneration : Option Int64
  replicas : Option Int32
  updatedReplicas : Option Int32
  readyReplicas : Option Int32
  other : Fields

structure Workload where
  metadata : Metadata
  spec : Option WorkloadSpec
  status : Option WorkloadStatus

instance : Inhabited Workload := ⟨⟨.empty, none, none⟩⟩

namespace Controller

def kind : Controller → String
  | .deployment => "Deployment"
  | .statefulSet => "StatefulSet"

/-- Fields of the spec that are written even when they were not given. -/
def specZeros : Controller → Fields
  | .deployment => []
  | .statefulSet => [("serviceName", .str "")]

/-- A stateful set always reports its replicas. -/
def statusReplicas : Controller → Option Int32 → Option Int32
  | .deployment, n => n
  | .statefulSet, n => some (n.getD 0)

end Controller

namespace WorkloadSpec

def ofJson? (c : Controller) (j : Json) : Option WorkloadSpec := do
  let f ← j.obj?
  some {
    replicas := ← field? f "replicas" Readable.int32?
    selector := ← fieldOr f "selector" .empty LabelSelector.ofJson?
    template := ← fieldOr f "template" default PodTemplate.ofJson?
    other := orZero c.specZeros (others ["replicas", "selector", "template"] f) }

def toJson (s : WorkloadSpec) : Json :=
  withOthers [
    ("replicas", s.replicas.map ofInt32),
    ("selector", some s.selector.toJson),
    ("template", some s.template.toJson)] s.other

end WorkloadSpec

namespace WorkloadStatus

def ofJson? (c : Controller) (j : Json) : Option WorkloadStatus := do
  let f ← j.obj?
  some {
    observedGeneration := ← field? f "observedGeneration" Readable.int64?
    replicas := c.statusReplicas (← field? f "replicas" Readable.int32?)
    updatedReplicas := ← field? f "updatedReplicas" Readable.int32?
    readyReplicas := ← field? f "readyReplicas" Readable.int32?
    other := others ["observedGeneration", "replicas", "updatedReplicas", "readyReplicas"] f }

def toJson (s : WorkloadStatus) : Json :=
  withOthers [
    ("observedGeneration", s.observedGeneration.map ofInt64),
    ("replicas", s.replicas.map ofInt32),
    ("updatedReplicas", s.updatedReplicas.map ofInt32),
    ("readyReplicas", s.readyReplicas.map ofInt32)] s.other

end WorkloadStatus

namespace Workload

def ofJson? (c : Controller) (j : Json) : Option Workload := do
  let f ← typed? "apps/v1" c.kind j
  some {
    metadata := ← Metadata.ofFields? f
    spec := ← field? f "spec" (WorkloadSpec.ofJson? c)
    status := ← field? f "status" (WorkloadStatus.ofJson? c) }

def toJson (c : Controller) (w : Workload) : Json := typedObj "apps/v1" c.kind [
  ("metadata", some w.metadata.toJson),
  ("spec", w.spec.map WorkloadSpec.toJson),
  ("status", w.status.map WorkloadStatus.toJson)]

end Workload
end BridgeOperator.Kube
