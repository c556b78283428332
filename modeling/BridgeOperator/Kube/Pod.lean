import BridgeOperator.Kube.Metadata

/-!
Pods, their containers and probes, and the templates pods are made from.
-/

namespace BridgeOperator.Kube

/-- A port by number or by the name of a declared port. -/
inductive PortRef where
  | number (n : Int32)
  | named (name : String)
  deriving DecidableEq

structure HttpGet where
  port : PortRef
  other : Fields

structure Probe where
  httpGet : Option HttpGet
  other : Fields

structure ContainerPort where
  containerPort : Int32
  name : Option String
  other : Fields

structure Container where
  name : String
  image : Option String
  command : Option (List String)
  args : Option (List String)
  ports : Option (List ContainerPort)
  livenessProbe : Option Probe
  readinessProbe : Option Probe
  startupProbe : Option Probe
  other : Fields

structure PodSpec where
  containers : List Container
  other : Fields

structure PodTemplate where
  metadata : Option Metadata
  spec : Option PodSpec

instance : Inhabited PodTemplate := ⟨⟨none, none⟩⟩

/-- A running container, and since when. -/
structure Running where
  startedAt : Option Instant
  deriving DecidableEq

structure ContainerState where
  running : Option Running
  other : Fields

structure ContainerStatus where
  name : String
  ready : Bool
  started : Option Bool
  state : Option ContainerState
  other : Fields

structure PodStatus where
  phase : Option String
  podIP : Option String
  containerStatuses : Option (List ContainerStatus)
  other : Fields

structure Pod where
  metadata : Metadata
  spec : Option PodSpec
  status : Option PodStatus

instance : Inhabited Pod := ⟨⟨.empty, none, none⟩⟩

namespace PortRef

def ofJson? : Json → Option PortRef
  | .str s => some (.named s)
  | j => (Readable.int32? j).map .number

def toJson : PortRef → Json
  | .number n => ofInt32 n
  | .named s => .str s

end PortRef

def withOthers (fields : List (String × Option Json)) (other : Fields) : Json :=
  Json.objOf (fields ++ other.map fun e => (e.1, some e.2))

namespace Probe

def httpGetOfJson? (j : Json) : Option HttpGet := do
  let f ← j.obj?
  some ⟨← fieldOr f "port" (.number 0) PortRef.ofJson?, others ["port"] f⟩

def ofJson? (j : Json) : Option Probe := do
  let f ← j.obj?
  some ⟨← field? f "httpGet" httpGetOfJson?, others ["httpGet"] f⟩

def toJson (p : Probe) : Json :=
  withOthers [("httpGet", p.httpGet.map fun h => withOthers [("port", some h.port.toJson)] h.other)]
    p.other

end Probe

namespace Container

def portOfJson? (j : Json) : Option ContainerPort := do
  let f ← j.obj?
  some {
    containerPort := ← fieldOr f "containerPort" 0 Readable.int32?
    name := ← field? f "name" Json.str?
    other := others ["containerPort", "name"] f }

def portToJson (p : ContainerPort) : Json :=
  withOthers [("containerPort", some (ofInt32 p.containerPort)), ("name", p.name.map .str)] p.other

def known : List String :=
  ["name", "image", "command", "args", "ports", "livenessProbe", "readinessProbe", "startupProbe"]

def ofJson? (j : Json) : Option Container := do
  let f ← j.obj?
  some {
    name := ← fieldOr f "name" "" Json.str?
    image := ← field? f "image" Json.str?
    command := ← field? f "command" strings?
    args := ← field? f "args" strings?
    ports := ← field? f "ports" (list? portOfJson?)
    livenessProbe := ← field? f "livenessProbe" Probe.ofJson?
    readinessProbe := ← field? f "readinessProbe" Probe.ofJson?
    startupProbe := ← field? f "startupProbe" Probe.ofJson?
    other := others known f }

def toJson (c : Container) : Json :=
  withOthers [
    ("name", some (.str c.name)),
    ("image", c.image.map .str),
    ("command", c.command.map Json.ofStrings),
    ("args", c.args.map Json.ofStrings),
    ("ports", c.ports.map fun l => .arr (l.map portToJson)),
    ("livenessProbe", c.livenessProbe.map Probe.toJson),
    ("readinessProbe", c.readinessProbe.map Probe.toJson),
    ("startupProbe", c.startupProbe.map Probe.toJson)] c.other

/-- The declared ports between 0 and 65535, in the order of their declaration. -/
def declaredPorts (c : Container) : List UInt16 :=
  (c.ports.getD []).filterMap fun p =>
    if 0 ≤ p.containerPort.toInt ∧ p.containerPort.toInt < 65536
    then some (UInt16.ofNat p.containerPort.toInt.toNat) else none

end Container

namespace PodSpec

def ofJson? (j : Json) : Option PodSpec := do
  let f ← j.obj?
  some ⟨← fieldOr f "containers" [] (list? Container.ofJson?), others ["containers"] f⟩

def toJson (s : PodSpec) : Json :=
  withOthers [("containers", some (.arr (s.containers.map Container.toJson)))] s.other

def container? (s : PodSpec) (name : String) : Option Container :=
  s.containers.find? (fun c => c.name = name)

end PodSpec

namespace PodTemplate

def ofJson? (j : Json) : Option PodTemplate := do
  let f ← j.obj?
  some ⟨← field? f "metadata" Metadata.ofJson?, ← field? f "spec" PodSpec.ofJson?⟩

def toJson (t : PodTemplate) : Json := Json.objOf [
  ("metadata", t.metadata.map Metadata.toJson),
  ("spec", t.spec.map PodSpec.toJson)]

def container? (t : PodTemplate) (name : String) : Option Container :=
  t.spec.bind (·.container? name)

end PodTemplate

namespace ContainerStatus

def runningOfJson? (j : Json) : Option Running := do
  some ⟨← field? (← j.obj?) "startedAt" instant?⟩

def stateOfJson? (j : Json) : Option ContainerState := do
  let f ← j.obj?
  some ⟨← field? f "running" runningOfJson?, others ["running"] f⟩

def zeros : Fields := [("image", .str ""), ("imageID", .str ""), ("restartCount", .int 0)]

def ofJson? (j : Json) : Option ContainerStatus := do
  let f ← j.obj?
  some {
    name := ← fieldOr f "name" "" Json.str?
    ready := ← fieldOr f "ready" false Json.bool?
    started := ← field? f "started" Json.bool?
    state := ← field? f "state" stateOfJson?
    other := orZero zeros (others ["name", "ready", "started", "state"] f) }

def stateToJson (s : ContainerState) : Json :=
  let running := s.running.map fun r => Json.objOf [("startedAt", r.startedAt.map ofInstant)]
  withOthers [("running", running)] s.other

def toJson (s : ContainerStatus) : Json :=
  withOthers [
    ("name", some (.str s.name)),
    ("ready", some (.bool s.ready)),
    ("started", s.started.map .bool),
    ("state", s.state.map stateToJson)] s.other

/-- Ready, started, and running since a known time. -/
def isHealthy (s : ContainerStatus) : Bool :=
  s.ready && s.started.getD false
    && ((s.state.bind (·.running)).any fun r => r.startedAt.isSome)

end ContainerStatus

namespace PodStatus

def ofJson? (j : Json) : Option PodStatus := do
  let f ← j.obj?
  some {
    phase := ← field? f "phase" Json.str?
    podIP := ← field? f "podIP" Json.str?
    containerStatuses := ← field? f "containerStatuses" (list? ContainerStatus.ofJson?)
    other := others ["phase", "podIP", "containerStatuses"] f }

def toJson (s : PodStatus) : Json :=
  withOthers [
    ("phase", s.phase.map .str),
    ("podIP", s.podIP.map .str),
    ("containerStatuses", s.containerStatuses.map fun l => .arr (l.map ContainerStatus.toJson))]
    s.other

end PodStatus

namespace Pod

def ofJson? (j : Json) : Option Pod := do
  let f ← typed? "v1" "Pod" j
  some {
    metadata := ← Metadata.ofFields? f
    spec := ← field? f "spec" PodSpec.ofJson?
    status := ← field? f "status" PodStatus.ofJson? }

def toJson (p : Pod) : Json := typedObj "v1" "Pod" [
  ("metadata", some p.metadata.toJson),
  ("spec", p.spec.map PodSpec.toJson),
  ("status", p.status.map PodStatus.toJson)]

def name (p : Pod) : String := p.metadata.anyName

def container? (p : Pod) (name : String) : Option Container := p.spec.bind (·.container? name)

/-- The pod runs and its container of that name is healthy. -/
def isReady (p : Pod) (container : String) : Bool :=
  p.status.any fun s =>
    s.phase = some "Running"
      && (((s.containerStatuses.getD []).find? (fun c => c.name = container)).any (·.isHealthy))

end Pod
end BridgeOperator.Kube
