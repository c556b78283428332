import BridgeOperator.Action
import BridgeOperator.Client.Basic
import BridgeOperator.Kube.Event
import BridgeOperator.Kube.Secret
import BridgeOperator.Program

/-!
What the controller of clients asks for: the clock, the stored clients and their secrets.
-/

namespace BridgeOperator

inductive ClientCall where
  | now
  | publish (n : Kube.Notice)
  | patchStatus (namespaceName name : String) (s : ClientStatus)
  | addFinalizer (namespaceName name : String)
  | removeFinalizer (namespaceName name : String)
  | deleteClient (namespaceName name : String)
  | getSecret (namespaceName name : String)
  | createSecret (namespaceName : String) (s : Kube.Secret)
  | deleteSecret (namespaceName name : String)
  | deleteBridgesOf (namespaceName client : String)

/-- A deletion answers whether there was such an object, and that of bridges how many. -/
def ClientCall.Result : ClientCall → Type
  | now => Instant
  | publish _ => Unit
  | patchStatus .. => Except Error Unit
  | addFinalizer .. => Except Error Unit
  | removeFinalizer .. => Except Error Unit
  | deleteClient .. => Except Error Bool
  | getSecret .. => Except Error (Option Kube.Secret)
  | createSecret .. => Except Error Unit
  | deleteSecret .. => Except Error Bool
  | deleteBridgesOf .. => Except Error Nat

instance : Calls ClientCall := ⟨ClientCall.Result⟩

/-- A part of a pass over a client. -/
abbrev ClientWork (α : Type) : Type := Attempt ClientCall α

namespace ClientWork

def now : ClientWork Instant := .always (.perform ClientCall.now)

def publish (n : Kube.Notice) : ClientWork Unit := .always (.perform (ClientCall.publish n))

def patchStatus (namespaceName name : String) (s : ClientStatus) : ClientWork Unit :=
  .ofProg (.perform (ClientCall.patchStatus namespaceName name s))

def addFinalizer (namespaceName name : String) : ClientWork Unit :=
  .ofProg (.perform (ClientCall.addFinalizer namespaceName name))

def removeFinalizer (namespaceName name : String) : ClientWork Unit :=
  .ofProg (.perform (ClientCall.removeFinalizer namespaceName name))

def deleteClient (namespaceName name : String) : ClientWork Bool :=
  .ofProg (.perform (ClientCall.deleteClient namespaceName name))

def getSecret (namespaceName name : String) : ClientWork (Option Kube.Secret) :=
  .ofProg (.perform (ClientCall.getSecret namespaceName name))

def createSecret (namespaceName : String) (s : Kube.Secret) : ClientWork Unit :=
  .ofProg (.perform (ClientCall.createSecret namespaceName s))

def deleteSecret (namespaceName name : String) : ClientWork Bool :=
  .ofProg (.perform (ClientCall.deleteSecret namespaceName name))

def deleteBridgesOf (namespaceName client : String) : ClientWork Nat :=
  .ofProg (.perform (ClientCall.deleteBridgesOf namespaceName client))

end ClientWork
end BridgeOperator
