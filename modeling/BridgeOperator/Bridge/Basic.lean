import BridgeOperator.Bridge.Spec
import BridgeOperator.Bridge.Status
import BridgeOperator.Error
import BridgeOperator.Json.Parser
import BridgeOperator.Json.Printer
import BridgeOperator.Kube.Event

/-!
Bridges as objects of the cluster: their canonical spec, what they target, and whether two of them
target the same.
-/

namespace BridgeOperator

open Kube (Metadata)

structure Bridge where
  metadata : Metadata
  spec : BridgeSpec
  status : Option BridgeStatus

namespace Bridge

def apiVersion : String := "gefyra.dev/v1"
def kind : String := "GefyraBridge"
def plural : String := "gefyrabridges"

/-- The finalizer that keeps a bridge until it has been torn down. -/
def finalizer : String := "gefyra.dev/bridge-teardown"

def ofJson? (j : Json) : Option Bridge := do
  let f ← Kube.customParts? j
  some {
    metadata := ← Readable.required f "metadata" Metadata.ofJson?
    spec := ← Readable.required f "spec" BridgeSpec.read
    status := ← Readable.optional f "status" BridgeStatus.read }

def toJson (b : Bridge) : Json := Kube.typedObj apiVersion kind [
  ("metadata", some b.metadata.toJson),
  ("spec", some b.spec.toJson),
  ("status", b.status.map BridgeStatus.toJson)]

def name (b : Bridge) : String := b.metadata.anyName

/-- A bridge without status is requested. -/
def state (b : Bridge) : BridgeState := (b.status.map (·.state)).getD .requested

def statusOrInitial (b : Bridge) : BridgeStatus := b.status.getD .initial

/-- The target workload; a target that cannot be parsed is a fault of the spec. -/
def workload (b : Bridge) : Except Error WorkloadRef :=
  match WorkloadRef.parse b.spec.target with
  | .ok r => .ok r
  | .error fault => .error (.validation b.name (.target fault))

end Bridge

/-- The text a spec is recorded as: its fields in the order of their declaration. -/
def BridgeSpec.canonical (s : BridgeSpec) : String := s.toJson.render

namespace Bridge

/-- The spec differs from the recorded one. A bridge without a record has not changed. -/
def specChanged (b : Bridge) : Bool :=
  match b.status.bind (·.lastAppliedSpec) with
  | none => false
  | some last => b.spec.canonical ≠ last

/-- The bridge as it was last validated, or as it is if there is no readable record. -/
def applied (b : Bridge) : Bridge :=
  match ((b.status.bind (·.lastAppliedSpec)).bind Json.parse?).bind BridgeSpec.read with
  | some spec => { b with spec }
  | none => b

/-- Both targets are in one namespace and parse to one workload. -/
def sameWorkload (a b : Bridge) : Bool :=
  a.spec.targetNamespace = b.spec.targetNamespace
    && match WorkloadRef.parse a.spec.target, WorkloadRef.parse b.spec.target with
      | .ok x, .ok y => x = y
      | _, _ => false

def sameTarget (a b : Bridge) : Bool :=
  a.sameWorkload b && a.spec.targetContainer = b.spec.targetContainer

def reference (b : Bridge) : Kube.ObjectReference := .ofMetadata apiVersion kind b.metadata

end Bridge
end BridgeOperator
