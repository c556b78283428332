import BridgeOperator.Action
import BridgeOperator.Provider.Basic

/-!
What the controller of bridges asks for: the clock, the stored bridges, and the steps of a provider
bound to one of them.
-/

namespace BridgeOperator

inductive BridgeCall where
  | now
  | sleep (duration : Nat)
  | publish (n : Kube.Notice)
  | listBridges
  | patchStatus (namespaceName name : String) (s : BridgeStatus)
  | addFinalizer (namespaceName name : String)
  | removeFinalizer (namespaceName name : String)
  | validate (p : BoundProvider) (request : Bridge) (peers : List Bridge)
  | install (p : BoundProvider)
  /-- A readiness check that gets so much time. -/
  | ready (p : BoundProvider) (limit : Nat)
  | uninstall (p : BoundProvider)

def BridgeCall.Result : BridgeCall → Type
  | now => Instant
  | sleep _ => Unit
  | publish _ => Unit
  | listBridges => Except Error (List Bridge)
  | patchStatus .. => Except Error Unit
  | addFinalizer .. => Except Error Unit
  | removeFinalizer .. => Except Error Unit
  | validate .. => Except Error Unit
  | install _ => Except Error Unit
  | ready .. => Timed (Except Error Bool)
  | uninstall _ => Except Error Unit

instance : Calls BridgeCall := ⟨BridgeCall.Result⟩

/-- A part of a pass over a bridge. -/
abbrev BridgeWork (α : Type) : Type := Attempt BridgeCall α

namespace BridgeWork

def now : BridgeWork Instant := .always (.perform BridgeCall.now)

def publish (n : Kube.Notice) : BridgeWork Unit := .always (.perform (BridgeCall.publish n))

def listBridges : BridgeWork (List Bridge) := .ofProg (.perform BridgeCall.listBridges)

def patchStatus (namespaceName name : String) (s : BridgeStatus) : BridgeWork Unit :=
  .ofProg (.perform (BridgeCall.patchStatus namespaceName name s))

def addFinalizer (namespaceName name : String) : BridgeWork Unit :=
  .ofProg (.perform (BridgeCall.addFinalizer namespaceName name))

def removeFinalizer (namespaceName name : String) : BridgeWork Unit :=
  .ofProg (.perform (BridgeCall.removeFinalizer namespaceName name))

def validate (p : BoundProvider) (request : Bridge) (peers : List Bridge) : BridgeWork Unit :=
  .ofProg (.perform (BridgeCall.validate p request peers))

def install (p : BoundProvider) : BridgeWork Unit := .ofProg (.perform (BridgeCall.install p))

def uninstall (p : BoundProvider) : BridgeWork Unit := .ofProg (.perform (BridgeCall.uninstall p))

def checkReady (p : BoundProvider) (limit : Nat) : Prog BridgeCall (Timed (Except Error Bool)) :=
  .perform (BridgeCall.ready p limit)

def sleep (duration : Nat) : Prog BridgeCall Unit := .perform (BridgeCall.sleep duration)

end BridgeWork
end BridgeOperator
