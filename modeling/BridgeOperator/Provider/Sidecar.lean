import BridgeOperator.Carrier.Config
import BridgeOperator.Provider.Ownership
import BridgeOperator.Provider.Ports
import BridgeOperator.Provider.TargetPods

/-!
Interception by a Carrier2 proxy that already runs in the target container: its configuration is
written anew in every pod, and connections that are open survive the reload.
-/

namespace BridgeOperator

open Kube (Pod Container Probe)

/-- The numbers of the container's HTTP probe ports, ascending and each once. -/
def httpProbePorts (c : Container) : List UInt16 :=
  let probes := [c.livenessProbe, c.readinessProbe, c.startupProbe]
  let ports := probes.filterMap fun p? => do
    match (← (← p?).httpGet).port with
    | .number n => if 0 ≤ n.toInt ∧ n.toInt < 65536 then some n.toInt.toNat else none
    | .named _ => none
  (ports.mergeSort.eraseDups).map UInt16.ofNat

namespace Binding

def sidecar (b : Binding) (pod : Pod) : ContainerId := ⟨b.namespaceName, pod.name, b.container⟩

/-- The pods of the target; `none` if it does not exist. -/
def targetPods (b : Binding) : Work (Option (List Pod)) := podsForWorkload b.namespaceName b.target

def pods (b : Binding) : Work (List Pod) := do
  return (← b.targetPods).getD []

/-- The proxy for one mapping in a pod with the given address. -/
def proxy (b : Binding) (address : String) (m : PortMapping) : Carrier.Proxy where
  port := some m.containerPort
  tls := b.parameters.tls
  upstreams := some [s!"{address}:{m.containerPort.toNat}"]
  bridges := SortedMap.ofList [(b.bridge, ⟨b.endpoint m, b.parameters.rules⟩)]

/-- The configuration the bridge needs in a pod. -/
def renderConfig (b : Binding) (pod : Pod) : Except Error Carrier.Config :=
  match pod.status.bind (·.podIP) with
  | none => .error (b.fault .carrier2 (.podWithoutAddress pod.name))
  | some address =>
    match pod.container? b.container with
    | none => .error (b.invalid (.containerNotInPod b.container pod.name))
    | some container =>
      let ports := httpProbePorts container
      .ok { Carrier.Config.default with
        probes := if ports.isEmpty then none else some ports
        proxies := b.parameters.portMappings.map (b.proxy address) }

/-- The configuration a pod has now. One that cannot be read counts as none. -/
def currentConfig (b : Binding) (pod : Pod) : Work (Option Carrier.Config) := do
  return (← Work.readConfig (b.sidecar pod)).bind Carrier.Config.ofYaml?

def pushConfig (b : Binding) (pod : Pod) (c : Carrier.Config) : Work Unit :=
  Work.applyConfig (b.sidecar pod) c.toYaml b.config.carrierLogLevel

end Binding

namespace Sidecar

/-- The container of a pod is one the bridge can be mounted in. -/
def checkPod (b : Binding) (pod : Pod) : Except Error Unit :=
  match pod.container? b.container with
  | none => .error (b.invalid (.containerNotInPod b.container pod.name))
  | some container =>
    let image := container.image.getD ""
    if !b.config.carrierImage.toList.isPrefixOf image.toList then
      .error (b.invalid (.foreignImage b.container pod.name image b.config.carrierImage))
    else
      let declared := container.declaredPorts
      match b.parameters.portMappings.find? (fun m => !declared.contains m.containerPort) with
      | some m =>
        if declared.isEmpty then .ok ()
        else .error (b.invalid (.undeclaredPort b.container m.containerPort))
      | none => .ok ()

def checkPods (b : Binding) : List Pod → Except Error Unit
  | [] => .ok ()
  | pod :: rest => do
    checkPod b pod
    checkPods b rest

def validate (b : Binding) (request : Bridge) (peers : List Bridge) : Work Unit := do
  request.ensureExclusive peers
  PortMapping.check b.bridge b.parameters.portMappings true
  match ← b.targetPods with
  | none => throw (b.invalid (.targetNotFound b.target b.namespaceName))
  | some [] => throw (b.fault .carrier2 (.noRunningPods b.target))
  | some pods => checkPods b pods

/-- Configure the pods from position `index` on, of `total` pods. -/
def installEach (b : Binding) (total : Nat) : Nat → List Pod → Work Unit
  | _, [] => return
  | index, pod :: rest => do
    if !pod.isReady b.container then throw (b.fault .carrier2 (.podNotReady pod.name))
    let desired ← b.renderConfig pod
    let current ← b.currentConfig pod
    if current ≠ some desired then
      Work.publish (b.progress s!"Configuring carrier2 in pod {pod.name} ({index + 1} of {total})")
      b.pushConfig pod desired
    installEach b total (index + 1) rest

def install (b : Binding) : Work Unit := do
  let pods ← b.pods
  if pods.isEmpty then throw (b.fault .carrier2 (.noPods b.target))
  installEach b pods.length 0 pods

/-- A pod is ready when it runs, has its configuration, and the process is alive. -/
def readyEach (b : Binding) : List Pod → Work Bool
  | [] => return true
  | pod :: rest => do
    if !pod.isReady b.container then return false
    let desired ← b.renderConfig pod
    let current ← b.currentConfig pod
    if current ≠ some desired then return false
    if !(← Work.processAlive (b.sidecar pod)) then return false
    readyEach b rest

def ready (b : Binding) : Work Bool := do
  let pods ← b.pods
  if pods.isEmpty then return false
  readyEach b pods

/-- Take the bridge out of the configurations that have it; pods that do not run are skipped. -/
def uninstallEach (b : Binding) : List Pod → Work Unit
  | [] => return
  | pod :: rest => do
    if pod.isReady b.container then
      match ← b.currentConfig pod with
      | some current =>
        if current.hasBridge b.bridge then b.pushConfig pod (current.withoutBridge b.bridge)
      | none => pure ()
    uninstallEach b rest

def uninstall (b : Binding) : Work Unit := do
  uninstallEach b (← b.pods)

end Sidecar

def Provider.sidecar : Provider where
  kind := .carrier2
  validate := Sidecar.validate
  install := Sidecar.install
  ready := Sidecar.ready
  uninstall := Sidecar.uninstall

end BridgeOperator
