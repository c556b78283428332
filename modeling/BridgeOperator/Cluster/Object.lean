import BridgeOperator.Cluster.Basic

/-!
Reaching into a cluster from outside: objects of any kind as JSON.
-/

namespace BridgeOperator.Cluster

open Kube (Pod Secret Service Workload)

def Kind.text : Kind → String
  | .bridge => "bridge"
  | .client => "client"
  | .pod => "pod"
  | .deployment => "deployment"
  | .statefulSet => "statefulset"
  | .service => "service"
  | .secret => "secret"

def Kind.all : List Kind :=
  [.bridge, .client, .pod, .deployment, .statefulSet, .service, .secret]

def Kind.ofText? (s : String) : Option Kind := all.find? (fun k => k.text = s)

/-- The object of a key, if there is one. -/
def object? (w : Cluster) (kind : Kind) (k : String) : Option Json :=
  match kind with
  | .bridge => (w.bridges.get? k).map Bridge.toJson
  | .client => (w.clients.get? k).map Client.toJson
  | .pod => (w.pods.get? k).map Pod.toJson
  | .deployment => (w.deployments.get? k).map (Workload.toJson .deployment)
  | .statefulSet => (w.statefulSets.get? k).map (Workload.toJson .statefulSet)
  | .service => (w.services.get? k).map Service.toJson
  | .secret => (w.secrets.get? k).map Secret.toJson

/-- Store an object under its own name; `none` if it is no object of the kind. -/
def put? (w : Cluster) (kind : Kind) (j : Json) : Option Cluster :=
  match kind with
  | .bridge => do
    let b ← Bridge.ofJson? j
    some { w with bridges := w.bridges.insert (keyOf b.metadata) b }
  | .client => do
    let c ← Client.ofJson? j
    some { w with clients := w.clients.insert (keyOf c.metadata) c }
  | .pod => do
    let p ← Pod.ofJson? j
    some { w with pods := w.pods.insert (keyOf p.metadata) p }
  | .deployment => do
    let d ← Workload.ofJson? .deployment j
    some { w with deployments := w.deployments.insert (keyOf d.metadata) d }
  | .statefulSet => do
    let s ← Workload.ofJson? .statefulSet j
    some { w with statefulSets := w.statefulSets.insert (keyOf s.metadata) s }
  | .service => do
    let s ← Service.ofJson? j
    some { w with services := w.services.insert (keyOf s.metadata) s }
  | .secret => do
    let s ← Secret.ofJson? j
    some { w with secrets := w.secrets.insert (keyOf s.metadata) s }

def erase (w : Cluster) (kind : Kind) (k : String) : Cluster :=
  match kind with
  | .bridge => { w with bridges := w.bridges.erase k }
  | .client => { w with clients := w.clients.erase k }
  | .pod => { w with pods := w.pods.erase k }
  | .deployment => { w with deployments := w.deployments.erase k }
  | .statefulSet => { w with statefulSets := w.statefulSets.erase k }
  | .service => { w with services := w.services.erase k }
  | .secret => { w with secrets := w.secrets.erase k }

end BridgeOperator.Cluster
