import BridgeOperator.Bridge.Call
import BridgeOperator.Client.Call
import BridgeOperator.Cluster.Target

/-!
How the cluster answers the controllers of bridges and clients.
-/

namespace BridgeOperator

namespace Kube.Metadata

/-- The finalizer stands last, and once. -/
def addFinalizer (m : Metadata) (finalizer : String) : Metadata :=
  { m with finalizers := some ((m.finalizers.getD []).filter (· ≠ finalizer) ++ [finalizer]) }

def removeFinalizer (m : Metadata) (finalizer : String) : Metadata :=
  { m with finalizers := m.finalizers.map fun l => l.filter (· ≠ finalizer) }

/-- Nothing keeps the deleted object any more. -/
def isReleased (m : Metadata) : Bool :=
  (m.finalizers.getD []).isEmpty && m.deletionTimestamp.isSome

end Kube.Metadata

namespace Cluster

def modifyBridge (w : Cluster) (k : String) (f : Bridge → Bridge) : Cluster :=
  match w.bridges.get? k with
  | none => w
  | some b =>
    let b := f b
    { w with bridges :=
        if b.metadata.isReleased then w.bridges.erase k else w.bridges.insert k b }

def modifyClient (w : Cluster) (k : String) (f : Client → Client) : Cluster :=
  match w.clients.get? k with
  | none => w
  | some c =>
    let c := f c
    { w with clients :=
        if c.metadata.isReleased then w.clients.erase k else w.clients.insert k c }

def answerBridge (call : BridgeCall) (w : Cluster) : Answer call × Cluster :=
  match call with
  | .now => (w.now, w)
  | .sleep duration => ((), w.wait duration)
  | .publish n => ((), w.record (.notice n))
  | .listBridges => w.answer .listBridges fun w => (w.bridges.values, w)
  | .patchStatus ns name s =>
    (w.record (.bridgeStatus ns name s)).answer .patchStatus fun w =>
      ((), match w.bridges.get? (key ns name) with
        | none => w
        | some b => { w with
            bridges := w.bridges.insert (key ns name) { b with status := some s } })
  | .addFinalizer ns name =>
    (w.record (.addFinalizer ns name)).answer .addFinalizer fun w =>
      ((), match w.bridges.get? (key ns name) with
        | none => w
        | some b => { w with
            bridges := w.bridges.insert (key ns name)
              { b with metadata := b.metadata.addFinalizer Bridge.finalizer } })
  | .removeFinalizer ns name =>
    (w.record (.removeFinalizer ns name)).answer .removeFinalizer fun w =>
      ((), w.modifyBridge (key ns name) fun b =>
        { b with metadata := b.metadata.removeFinalizer Bridge.finalizer })
  | .validate p request peers => w.carryOut (p.provider.validate p.binding request peers)
  | .install p => w.carryOut (p.provider.install p.binding)
  | .ready p limit => w.carryOutWithin limit (p.provider.ready p.binding)
  | .uninstall p => w.carryOut (p.provider.uninstall p.binding)

/-- When an object that still has finalizers was deleted. -/
def deletionTime : Instant := ⟨1704067200, 0⟩

/-- Delete a client, or mark it as deleted while it has finalizers. -/
def deleteClient (w : Cluster) (k : String) : Bool × Cluster :=
  match w.clients.get? k with
  | none => (false, w)
  | some c =>
    if (c.metadata.finalizers.getD []).isEmpty then
      (true, { w with clients := w.clients.erase k })
    else
      let marked := { c with
        metadata := { c.metadata with deletionTimestamp := some deletionTime } }
      (true, { w with clients := w.clients.insert k marked })

/-- Delete the bridges of a namespace that name the client. -/
def deleteBridgesOf (w : Cluster) (namespaceName client : String) : Nat × Cluster :=
  let owned := w.bridges.values.filter fun b =>
    b.metadata.namespaceName.getD "" = namespaceName && b.spec.client = some client
  (owned.length, owned.foldl (fun w b =>
    { w with bridges := w.bridges.erase (keyOf b.metadata) }.record
      (.deleted .bridge namespaceName b.name true)) w)

def answerClient (call : ClientCall) (w : Cluster) : Answer call × Cluster :=
  match call with
  | .now => (w.now, w)
  | .publish n => ((), w.record (.notice n))
  | .patchStatus ns name s =>
    (w.record (.clientStatus ns name s)).answer .patchStatus fun w =>
      ((), match w.clients.get? (key ns name) with
        | none => w
        | some c => { w with
            clients := w.clients.insert (key ns name) { c with status := some s } })
  | .addFinalizer ns name =>
    (w.record (.addFinalizer ns name)).answer .addFinalizer fun w =>
      ((), match w.clients.get? (key ns name) with
        | none => w
        | some c => { w with
            clients := w.clients.insert (key ns name)
              { c with metadata := c.metadata.addFinalizer Client.finalizer } })
  | .removeFinalizer ns name =>
    (w.record (.removeFinalizer ns name)).answer .removeFinalizer fun w =>
      ((), w.modifyClient (key ns name) fun c =>
        { c with metadata := c.metadata.removeFinalizer Client.finalizer })
  | .deleteClient ns name =>
    w.answer .deleteClient fun w =>
      let (existed, w) := w.deleteClient (key ns name)
      (existed, w.record (.deleted .client ns name existed))
  | .getSecret ns name => w.answer .getSecret fun w => (w.secrets.get? (key ns name), w)
  | .createSecret ns s =>
    (w.record (.createSecret ns s)).answer .createSecret fun w =>
      ((), { w with secrets := w.secrets.insert (key ns s.metadata.nameOrEmpty) s })
  | .deleteSecret ns name =>
    w.answer .deleteSecret fun w =>
      let existed := w.secrets.contains (key ns name)
      (existed, { w with secrets := w.secrets.erase (key ns name) }.record
        (.deleted .secret ns name existed))
  | .deleteBridgesOf ns client =>
    (w.record (.deleteBridgesOf ns client)).answer .deleteBridgesOf fun w =>
      w.deleteBridgesOf ns client

end Cluster
end BridgeOperator
