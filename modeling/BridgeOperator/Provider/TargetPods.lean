import BridgeOperator.Provider.Basic

/-!
The pods behind a workload reference.
-/

namespace BridgeOperator

open Kube (Pod Controller)

/-- The controller of a reference that is no pod. -/
def WorkloadKind.controller? : WorkloadKind → Option Controller
  | .deployment => some .deployment
  | .statefulSet => some .statefulSet
  | .pod => none

/-- The pods that a workload's equality requirements select and that are not being deleted; `none`
if there is no such workload, and no pods if it has no such requirements. -/
def podsForWorkload (namespaceName : String) (target : WorkloadRef) : Work (Option (List Pod)) := do
  match target.kind.controller? with
  | none =>
    let pod ← Work.getPod namespaceName target.name
    return pod.map fun p => [p]
  | some c =>
    match ← Work.getWorkload c namespaceName target.name with
    | none => return none
    | some w =>
      match (w.spec.bind (·.selector.matchLabels)).filter (!·.isEmpty) with
      | none => return some []
      | some labels =>
        let pods ← Work.listPods namespaceName (Kube.selectorText labels)
        return some (pods.filter (·.metadata.deletionTimestamp.isNone))

end BridgeOperator
