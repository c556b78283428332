import BridgeOperator.Client.Basic
import BridgeOperator.Cluster.Fault
import BridgeOperator.Json.MergePatch
import BridgeOperator.Kube.Secret
import BridgeOperator.Provider.Basic

/-!
A cluster in memory: its objects, the files of its sidecars, a clock, and a record of what was
asked of it.
-/

namespace BridgeOperator

open Kube (Controller Pod Secret Service Workload)

namespace Cluster

inductive Kind where
  | bridge
  | client
  | pod
  | deployment
  | statefulSet
  | service
  | secret
  deriving DecidableEq, Repr

/-- The kind of the objects a controller is responsible for. -/
def Kind.ofController : Controller → Kind
  | .deployment => .deployment
  | .statefulSet => .statefulSet

/-- Something that was asked of the cluster. -/
inductive Entry where
  | bridgeStatus (namespaceName name : String) (s : BridgeStatus)
  | clientStatus (namespaceName name : String) (s : ClientStatus)
  | addFinalizer (namespaceName name : String)
  | removeFinalizer (namespaceName name : String)
  | listPods (namespaceName selector : String)
  | applyConfig (sidecar : ContainerId) (document logLevel : String)
  | createSecret (namespaceName : String) (s : Secret)
  | deleteBridgesOf (namespaceName client : String)
  | applyWorkload (c : Controller) (namespaceName : String) (w : Workload)
  | applyService (namespaceName : String) (s : Service)
  | deleted (kind : Kind) (namespaceName name : String) (existed : Bool)
  | notice (n : Kube.Notice)
  | external (step : ExternalStep)

end Cluster

structure Cluster where
  bridges : SortedMap Bridge
  clients : SortedMap Client
  pods : SortedMap Pod
  deployments : SortedMap Workload
  statefulSets : SortedMap Workload
  services : SortedMap Service
  secrets : SortedMap Secret
  /-- The configuration files of sidecars. -/
  sidecars : SortedMap String
  /-- The sidecars whose process is not alive. -/
  dead : List String
  faults : List Cluster.Fault
  validateScript : Cluster.Script
  installScript : Cluster.Script
  readyScript : Cluster.Script
  uninstallScript : Cluster.Script
  /-- A workload that is applied is rolled out at once. -/
  autoRollout : Bool
  /-- The time that has passed. -/
  clock : Nat
  /-- The time of day, which does not move. -/
  now : Instant
  /-- What was asked, newest first. -/
  log : List Cluster.Entry

namespace Cluster

def empty (now : Instant) : Cluster where
  bridges := ∅
  clients := ∅
  pods := ∅
  deployments := ∅
  statefulSets := ∅
  services := ∅
  secrets := ∅
  sidecars := ∅
  dead := []
  faults := []
  validateScript := []
  installScript := []
  readyScript := []
  uninstallScript := []
  autoRollout := false
  clock := 0
  now
  log := []

/-- Objects are listed in the order of their keys. -/
def key (namespaceName name : String) : String := s!"{namespaceName}/{name}"

def keyOf (m : Kube.Metadata) : String := key (m.namespaceName.getD "") m.nameOrEmpty

def sidecarKey (id : ContainerId) : String := s!"{id.namespaceName}/{id.pod}/{id.container}"

def record (w : Cluster) (e : Entry) : Cluster := { w with log := e :: w.log }

def wait (w : Cluster) (duration : Nat) : Cluster := { w with clock := w.clock + duration }

/-- Let a fault strike a call: time passes, and the call may fail. -/
def disturb (w : Cluster) (p : Point) : Option Error × Cluster :=
  match Fault.next p w.faults with
  | (none, faults) => (none, { w with faults })
  | (some d, faults) => (d.error, { w with faults }.wait d.delay)

/-- Answer a call from the cluster, unless a fault strikes it. -/
def answer {α : Type} (w : Cluster) (p : Point) (f : Cluster → α × Cluster) :
    Except Error α × Cluster :=
  match w.disturb p with
  | (some e, w) => (.error e, w)
  | (none, w) =>
    let (a, w) := f w
    (.ok a, w)

def workloads (w : Cluster) : Controller → SortedMap Workload
  | .deployment => w.deployments
  | .statefulSet => w.statefulSets

def withWorkloads (w : Cluster) (c : Controller) (m : SortedMap Workload) : Cluster :=
  match c with
  | .deployment => { w with deployments := m }
  | .statefulSet => { w with statefulSets := m }

end Cluster
end BridgeOperator
