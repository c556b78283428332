import BridgeOperator.Kube.Pod

/-!
Services: ports in front of the pods a label selector picks.
-/

namespace BridgeOperator.Kube

structure ServicePort where
  name : Option String
  port : Int32
  targetPort : Option PortRef
  other : Fields

structure ServiceSpec where
  selector : Option (SortedMap String)
  ports : Option (List ServicePort)
  other : Fields

structure Service where
  metadata : Metadata
  spec : Option ServiceSpec
  status : Option Json

instance : Inhabited Service := ⟨⟨.empty, none, none⟩⟩

namespace Service

def portOfJson? (j : Json) : Option ServicePort := do
  let f ← j.obj?
  some {
    name := ← field? f "name" Json.str?
    port := ← fieldOr f "port" 0 Readable.int32?
    targetPort := ← field? f "targetPort" PortRef.ofJson?
    other := others ["name", "port", "targetPort"] f }

def portToJson (p : ServicePort) : Json :=
  withOthers [
    ("name", p.name.map .str),
    ("port", some (ofInt32 p.port)),
    ("targetPort", p.targetPort.map PortRef.toJson)] p.other

def specOfJson? (j : Json) : Option ServiceSpec := do
  let f ← j.obj?
  some {
    selector := ← field? f "selector" stringMap?
    ports := ← field? f "ports" (list? portOfJson?)
    other := others ["selector", "ports"] f }

def specToJson (s : ServiceSpec) : Json :=
  withOthers [
    ("ports", s.ports.map fun l => .arr (l.map portToJson)),
    ("selector", s.selector.map Json.ofStringMap)] s.other

def ofJson? (j : Json) : Option Service := do
  let f ← typed? "v1" "Service" j
  some {
    metadata := ← Metadata.ofFields? f
    spec := ← field? f "spec" specOfJson?
    status := ← field? f "status" fun s => s.obj?.map fun _ => s.prune }

def toJson (s : Service) : Json := typedObj "v1" "Service" [
  ("metadata", some s.metadata.toJson),
  ("spec", s.spec.map specToJson),
  ("status", s.status)]

end Service

/-- The cluster-local DNS name of a service. -/
def serviceFqdn (name namespaceName : String) : String :=
  s!"{name}.{namespaceName}.svc.cluster.local"

/-- The address of every port of a service. -/
def Service.upstreams (s : Service) : List String :=
  let host := serviceFqdn s.metadata.nameOrEmpty (s.metadata.namespaceName.getD "default")
  ((s.spec.bind (·.ports)).getD []).map fun p => s!"{host}:{p.port.toInt}"

end BridgeOperator.Kube
