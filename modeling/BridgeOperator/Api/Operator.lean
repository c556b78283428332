import BridgeOperator.Api.Exec
import BridgeOperator.Bridge.Call
import BridgeOperator.Client.Call

/-!
What the operator asks for, as requests to the API.
-/

namespace BridgeOperator.Api

open Kube (Event Notice)

/-- Post an event; a failure to do so is not reported. -/
def postEvent (namespaceName : String) (e : Event) : ApiWork Unit := do
  let path := s!"/apis/events.k8s.io/v1/namespaces/{namespaceName}/events"
  let _ ← (sendText ⟨.post, path, [], some plainJson, some e.toJson⟩).outcome

/-- Post a notice as an event of its own name. -/
def publish (namespaceName : String) (n : Notice) : ApiWork Unit := do
  let fresh ← Attempt.always (.perform ApiCall.fresh)
  let now ← Attempt.always (.perform ApiCall.now)
  postEvent namespaceName
    (.ofChange namespaceName n.regarding n.type.text n.reason n.action n.note fresh now)

/-- Say that the operator has started; the event of an earlier start is kept. -/
def postReady (namespaceName : String) : ApiWork Unit := do
  let now ← Attempt.always (.perform ApiCall.now)
  postEvent namespaceName (.operatorReady namespaceName now)

def listBridges : ApiWork (List Bridge) := bridges.listAt bridges.everywhere []

def listPods (namespaceName selector : String) : ApiWork (List Kube.Pod) :=
  pods.listAt (pods.inNamespace namespaceName) [("labelSelector", selector)]

/-- Delete bridges by name until one cannot be deleted, and count those that were there. -/
def deleteBridges (namespaceName : String) : List String → ApiWork Nat
  | [] => return 0
  | name :: rest => do
    let existed ← bridges.delete namespaceName name
    let more ← deleteBridges namespaceName rest
    return if existed then more + 1 else more

/-- Delete the bridges of a namespace that name the client. -/
def deleteBridgesOf (namespaceName client : String) : ApiWork Nat := do
  let all ← bridges.listAt (bridges.inNamespace namespaceName) []
  deleteBridges namespaceName
    ((all.filter (fun b => b.spec.client = some client)).map (·.name))

/-- A program whose failures are ignored. -/
def quietly (work : ApiWork Unit) : Prog ApiCall Unit := do
  let _ ← work.run

/-- Carry out a call of a provider. No provider outside the library can be reached this way. -/
def performTarget (eventsNamespace : String) : (call : TargetCall) → Prog ApiCall (Answer call)
  | .getPod ns name => (pods.get? ns name).run
  | .listPods ns selector => (listPods ns selector).run
  | .getWorkload c ns name => ((workloads c).get? ns name).run
  | .applyWorkload c ns w => ((workloads c).apply ns w).run
  | .deleteWorkload c ns name => ((workloads c).delete ns name).run
  | .getService ns name => (services.get? ns name).run
  | .applyService ns s => (services.apply ns s).run
  | .deleteService ns name => (services.delete ns name).run
  | .readConfig id => (readConfig id).run
  | .applyConfig id document logLevel => (applyConfig id document logLevel).run
  | .processAlive id => (processAlive id).run
  | .publish n => quietly (publish eventsNamespace n)
  | .external _ => pure (.error (.internal "external" "provider cannot be reached"))

/-- Carry out a call of a pass over a client. -/
def performClient (eventsNamespace : String) : (call : ClientCall) → Prog ApiCall (Answer call)
  | .now => .perform ApiCall.now
  | .publish n => quietly (publish eventsNamespace n)
  | .patchStatus ns name s => (clients.patchStatus ns name s.toJson).run
  | .addFinalizer ns name => (clients.addFinalizer ns name Client.finalizer).run
  | .removeFinalizer ns name => (clients.removeFinalizer ns name Client.finalizer).run
  | .deleteClient ns name => (clients.delete ns name).run
  | .getSecret ns name => (secrets.get? ns name).run
  | .createSecret ns s => (secrets.create ns s).run
  | .deleteSecret ns name => (secrets.delete ns name).run
  | .deleteBridgesOf ns client => (deleteBridgesOf ns client).run

end BridgeOperator.Api
