import BridgeOperator.Carrier.Script
import BridgeOperator.Kube.Service
import BridgeOperator.Kube.Workload
import BridgeOperator.Labels
import BridgeOperator.Provider.Binding

/-!
The copy of a workload that forwards its traffic: a Carrier2 proxy takes the place of the target
container, and a service selects the copy's pods by a label only they have.
-/

namespace BridgeOperator

open Kube (Container Controller LabelSelector Metadata PodTemplate Service Workload WorkloadSpec)

/-- The kind by which references name what the controller makes. -/
def Kube.Controller.workloadKind : Controller → WorkloadKind
  | .deployment => .deployment
  | .statefulSet => .statefulSet

namespace Clone

/-- Ends the names of copies and the values of their labels. -/
def mark : String := "-gefyra"

def workloadName (workload : String) : String := workload ++ mark

def serviceName (workload container : String) : String := s!"{workload}-{container}{mark}-svc"

/-- Annotations that describe the one object they are on. -/
def strippedAnnotations : List String :=
  ["kubectl.kubernetes.io/last-applied-configuration", "deployment.kubernetes.io/revision"]

def markLabels (labels : SortedMap String) : SortedMap String := labels.mapValues (· ++ mark)

/-- The service in front of a copy's pods, with a port for each of the given ones. -/
def service (workload container namespaceName duplicationId : String) (labels : SortedMap String)
    (ports : List UInt16) : Service where
  metadata :=
    { Metadata.empty with
      name := some (serviceName workload container)
      namespaceName := some namespaceName
      labels := some (labels.insert Label.managedBy Label.operator) }
  spec := some {
    selector := some (SortedMap.ofList [(Label.duplicationId, duplicationId)])
    ports := some (ports.map fun port =>
      { name := some s!"port-{port.toNat}"
        port := Int32.ofNat port.toNat
        targetPort := some (.number (Int32.ofNat port.toNat))
        other := [] })
    other := [] }
  status := none

/-- Change the first element that satisfies `p`. -/
def updateFirst {α : Type} (p : α → Bool) (f : α → α) : List α → List α
  | [] => []
  | a :: rest => if p a then f a :: rest else a :: updateFirst p f rest

end Clone

namespace Binding

/-- The mappings of the spec, or every declared port of the container mapped to itself. -/
def effectiveMappings (b : Binding) (c : Container) : List PortMapping :=
  if b.parameters.portMappings.isEmpty then
    let ports := ((c.declaredPorts.map (·.toNat)).mergeSort.eraseDups).map UInt16.ofNat
    ports.map fun port => ⟨port, port⟩
  else b.parameters.portMappings

/-- The configuration of a copy: each mapped port forwards to its endpoint. -/
def cloneConfig (b : Binding) (mappings : List PortMapping) : Carrier.Config :=
  { Carrier.Config.default with
    proxies := mappings.map fun m =>
      { port := some m.containerPort
        tls := b.parameters.tls
        upstreams := some [b.endpoint m]
        bridges := ∅ } }

def cloneMetadata (b : Binding) (base : Metadata) : Metadata :=
  let labels := Clone.markLabels (base.labels.getD ∅)
  let annotations := (base.annotations.getD ∅).filter fun k _ =>
    !Clone.strippedAnnotations.contains k
  { Metadata.empty with
    name := some (Clone.workloadName b.target.name)
    namespaceName := some b.namespaceName
    labels := some ((labels.insert Label.managedBy Label.operator).insert Label.bridge b.bridge)
    annotations := if annotations.isEmpty then none else some annotations }

/-- A container that runs Carrier2 with the configuration for the mappings, and is not probed. -/
def cloneContainer (b : Binding) (mappings : List PortMapping) (c : Container) : Container :=
  let script :=
    Carrier.entrypointScript (b.cloneConfig mappings).toYaml b.config.carrierLogLevel
  { c with
    image := some b.config.carrierImageRef
    command := some (Carrier.shell script)
    args := none
    livenessProbe := none
    readinessProbe := none
    startupProbe := none }

/-- The template of the copy and the mappings it serves. -/
def cloneTemplate (b : Binding) (t : PodTemplate) :
    Except Error (PodTemplate × List PortMapping) :=
  match t.container? b.container with
  | none => .error (b.fault .duplicate (.containerVanished b.container b.target))
  | some container =>
    let mappings := b.effectiveMappings container
    let metadata := t.metadata.getD .empty
    let labels := (Clone.markLabels (metadata.labels.getD ∅)).insert Label.duplicationId b.bridge
    let spec := t.spec.map fun s =>
      let isTarget (c : Container) : Bool := c.name = b.container
      { s with containers := Clone.updateFirst isTarget (b.cloneContainer mappings) s.containers }
    .ok ({ metadata := some { metadata with labels := some labels }, spec }, mappings)

def cloneSelector (s : LabelSelector) : LabelSelector :=
  { s with matchLabels := s.matchLabels.map Clone.markLabels }

/-- The copy of a workload and the mappings it serves. -/
def clone (b : Binding) (c : Controller) (base : Workload) :
    Except Error (Workload × List PortMapping) :=
  match base.spec with
  | none => .error (b.fault .duplicate (.workloadWithoutSpec c.workloadKind))
  | some spec => do
    let (template, mappings) ← b.cloneTemplate spec.template
    .ok ({
      metadata := b.cloneMetadata base.metadata
      spec := some { spec with selector := cloneSelector spec.selector, template }
      status := none }, mappings)

/-- The service in front of a copy. -/
def cloneService (b : Binding) (copy : Workload) (mappings : List PortMapping) : Service :=
  Clone.service b.target.name b.container b.namespaceName b.bridge
    (copy.metadata.labels.getD ∅) (mappings.map (·.containerPort))

end Binding
end BridgeOperator
