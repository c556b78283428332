import BridgeOperator.Cluster.Basic

/-!
How the cluster answers providers.
-/

namespace BridgeOperator.Cluster

open Kube (Controller Metadata Pod Workload WorkloadStatus)

def Point.getWorkload : Controller → Point
  | .deployment => .getDeployment
  | .statefulSet => .getStatefulSet

def Point.applyWorkload : Controller → Point
  | .deployment => .applyDeployment
  | .statefulSet => .applyStatefulSet

def Point.deleteWorkload : Controller → Point
  | .deployment => .deleteDeployment
  | .statefulSet => .deleteStatefulSet

/-- Does a label map satisfy one `k=v` of a selector text? -/
def holdsText (labels : SortedMap String) (requirement : List Char) : Bool :=
  match Text.cut '=' requirement with
  | some (k, v) => labels.get? (String.ofList k) = some (String.ofList v)
  | none => false

/-- The pods of a namespace whose labels satisfy every `k=v` of a selector text. -/
def selectPods (w : Cluster) (namespaceName selector : String) : List Pod :=
  w.pods.values.filter fun p =>
    p.metadata.namespaceName.getD "" = namespaceName
      && (selector.toList.splitOn ',').all (holdsText (p.metadata.labels.getD ∅))

/-- The workload after its controller has brought all replicas up. -/
def rollOut (workload : Workload) : Workload :=
  let replicas := some ((workload.spec.bind (·.replicas)).getD 1)
  { workload with
    metadata := { workload.metadata with generation := some 1 }
    status := some {
      observedGeneration := some 1
      replicas
      updatedReplicas := replicas
      readyReplicas := replicas
      other := [] } }

def storeWorkload (w : Cluster) (c : Controller) (namespaceName : String) (workload : Workload) :
    Cluster :=
  let stored := if w.autoRollout then rollOut workload else workload
  w.withWorkloads c
    ((w.workloads c).insert (key namespaceName workload.metadata.nameOrEmpty) stored)

/-- The next answer of a provider outside the library. -/
def scripted (w : Cluster) (step : ExternalStep) : ScriptedAnswer × Cluster :=
  match step with
  | .validate _ =>
    let (a, rest) := w.validateScript.next
    (a, { w with validateScript := rest })
  | .install =>
    let (a, rest) := w.installScript.next
    (a, { w with installScript := rest })
  | .ready =>
    let (a, rest) := w.readyScript.next
    (a, { w with readyScript := rest })
  | .uninstall =>
    let (a, rest) := w.uninstallScript.next
    (a, { w with uninstallScript := rest })

def answerTarget (call : TargetCall) (w : Cluster) : Answer call × Cluster :=
  match call with
  | .getPod ns name => w.answer .getPod fun w => (w.pods.get? (key ns name), w)
  | .listPods ns selector =>
    (w.record (.listPods ns selector)).answer .listPods fun w => (w.selectPods ns selector, w)
  | .getWorkload c ns name =>
    w.answer (.getWorkload c) fun w => ((w.workloads c).get? (key ns name), w)
  | .applyWorkload c ns workload =>
    w.answer (.applyWorkload c) fun w =>
      ((), (w.storeWorkload c ns workload).record (.applyWorkload c ns workload))
  | .deleteWorkload c ns name =>
    w.answer (.deleteWorkload c) fun w =>
      let existed := (w.workloads c).contains (key ns name)
      (existed, (w.withWorkloads c ((w.workloads c).erase (key ns name))).record
        (.deleted (.ofController c) ns name existed))
  | .getService ns name => w.answer .getService fun w => (w.services.get? (key ns name), w)
  | .applyService ns s =>
    w.answer .applyService fun w =>
      ((), { w with services := w.services.insert (key ns s.metadata.nameOrEmpty) s }.record
        (.applyService ns s))
  | .deleteService ns name =>
    w.answer .deleteService fun w =>
      let existed := w.services.contains (key ns name)
      (existed, { w with services := w.services.erase (key ns name) }.record
        (.deleted .service ns name existed))
  | .readConfig id => w.answer .readConfig fun w => (w.sidecars.get? (sidecarKey id), w)
  | .applyConfig id document logLevel =>
    (w.record (.applyConfig id document logLevel)).answer .applyConfig fun w =>
      ((), { w with sidecars := w.sidecars.insert (sidecarKey id) document })
  | .processAlive id => w.answer .processAlive fun w => (!w.dead.contains (sidecarKey id), w)
  | .publish n => ((), w.record (.notice n))
  | .external step =>
    let (a, w) := (w.record (.external step)).scripted step
    (a.result, w.wait a.delay)

/-- Carry out the work of a provider. -/
def carryOut {α : Type} (w : Cluster) (work : Work α) : Except Error α × Cluster :=
  work.run.run answerTarget w

/-- Carry out the work of a provider within a limit. -/
def carryOutWithin {α : Type} (w : Cluster) (limit : Nat) (work : Work α) :
    Timed (Except Error α) × Cluster :=
  match work.run.runUntil answerTarget Cluster.clock (fun t w => { w with clock := t })
      (w.clock + limit) w with
  | (none, after) => (.late, after)
  | (some r, after) => (.finished (after.clock - w.clock) r, after)

end BridgeOperator.Cluster
