import BridgeOperator.Bridge.Pass

/-!
What is done when a bridge is seen: a pass over a live one, the teardown of a deleted one. The
teardown always lets the deletion finish.
-/

namespace BridgeOperator.Bridge

/-- Claim the bridge, so that it is not gone before it has been torn down. -/
def ensureFinalizer (b : Bridge) (namespaceName : String) : BridgeWork Unit := do
  if !b.metadata.hasFinalizer finalizer then BridgeWork.addFinalizer namespaceName b.name

/-- A live bridge, new or seen before. -/
def resume (b : Bridge) (ctx : BridgeContext) : BridgeWork Action := do
  match b.metadata.namespaceName with
  | none => throw (.validation b.name (.noNamespace kind))
  | some namespaceName =>
    b.ensureFinalizer namespaceName
    BridgePass.run ⟨ctx, b, namespaceName⟩

/-- Take down an installation that is being deleted; a failure is only reported. -/
def tearDownDeleted (b : Bridge) (ctx : BridgeContext) : BridgeWork Unit := do
  if b.statusOrInitial.everInstalled then
    match ← (b.tearDown ctx).outcome with
    | .ok () => pure ()
    | .error e => b.warn Reason.uninstallFailed s!"Uninstall failed ({e.kind}): {e.message}"

/-- A deleted bridge: tear it down, record that, and let it go. -/
def remove (b : Bridge) (ctx : BridgeContext) : BridgeWork Action := do
  match b.metadata.namespaceName with
  | none => return .awaitChange
  | some namespaceName =>
    if !b.metadata.hasFinalizer finalizer then return .awaitChange
    b.tearDownDeleted ctx
    let now ← BridgeWork.now
    let removed := b.statusOrInitial.transition .removed (some "bridge removed") now
    let _ ← (BridgeWork.patchStatus namespaceName b.name removed).outcome
    b.tell Reason.removed "Bridge removed"
    match ← (BridgeWork.removeFinalizer namespaceName b.name).outcome with
    | .ok () => return .awaitChange
    | .error _ => return .retry

def reconcile (b : Bridge) (ctx : BridgeContext) : BridgeWork Action :=
  if b.metadata.deletionTimestamp.isSome then b.remove ctx else b.resume ctx

end BridgeOperator.Bridge
