import BridgeOperator.Provider.Clone
import BridgeOperator.Provider.Ownership
import BridgeOperator.Provider.Ports
import BridgeOperator.Provider.TargetPods

/-!
Interception by a copy of the workload: the target itself is left as it is.
-/

namespace BridgeOperator

open Kube (Controller Workload)

namespace Duplicate

def validate (b : Binding) (request : Bridge) (peers : List Bridge) : Work Unit := do
  request.ensureExclusive peers
  request.ensureWorkloadExclusive peers .duplicate
  PortMapping.check b.bridge b.parameters.portMappings false
  match b.target.kind.controller? with
  | none => throw (b.invalid .podTarget)
  | some c =>
    let base ← Work.getWorkload c b.namespaceName b.target.name
    match base.bind (·.spec) with
    | none => throw (b.invalid (.targetNotFound b.target b.namespaceName))
    | some spec =>
      if (spec.template.container? b.container).isNone then
        throw (b.invalid (.containerNotInWorkload b.container b.target))

def install (b : Binding) : Work Unit := do
  let missing := b.fault .duplicate (.targetMissing b.target b.namespaceName)
  match b.target.kind.controller? with
  | none => throw missing
  | some c =>
    match ← Work.getWorkload c b.namespaceName b.target.name with
    | none => throw missing
    | some base =>
      let (copy, mappings) ← b.clone c base
      Work.applyWorkload c b.namespaceName copy
      let service := b.cloneService copy mappings
      Work.applyService b.namespaceName service
      let name := Clone.workloadName b.target.name
      let addresses := String.intercalate ", " service.upstreams
      Work.publish (b.progress s!"Duplicate {name} reachable at {addresses}")

/-- The controller has seen the current generation and all replicas are updated and ready. -/
def rolledOut (w : Workload) : Bool :=
  let observed := match w.metadata.generation, w.status.bind (·.observedGeneration) with
    | some g, some o => g ≤ o
    | none, _ => true
    | some _, none => false
  let desired := (w.spec.bind (·.replicas)).getD 1
  observed && (w.status.bind (·.updatedReplicas)).getD 0 = desired
    && (w.status.bind (·.readyReplicas)).getD 0 = desired

def ready (b : Binding) : Work Bool := do
  match b.target.kind.controller? with
  | none => return false
  | some c =>
    match ← Work.getWorkload c b.namespaceName (Clone.workloadName b.target.name) with
    | none => return false
    | some w =>
      if !rolledOut w then return false
      return (← Work.getService b.namespaceName
        (Clone.serviceName b.target.name b.container)).isSome

def uninstall (b : Binding) : Work Unit := do
  match b.target.kind.controller? with
  | none => pure ()
  | some c =>
    let _ ← Work.deleteWorkload c b.namespaceName (Clone.workloadName b.target.name)
  let _ ← Work.deleteService b.namespaceName (Clone.serviceName b.target.name b.container)

end Duplicate

def Provider.duplicate : Provider where
  kind := .duplicate
  validate := Duplicate.validate
  install := Duplicate.install
  ready := Duplicate.ready
  uninstall := Duplicate.uninstall

end BridgeOperator
