import BridgeOperator.Kube.Object

/-!
Object metadata: names, labels, finalizers, owners and the times of creation and deletion.
-/

namespace BridgeOperator.Kube

structure OwnerReference where
  apiVersion : String
  kind : String
  name : String
  uid : String
  controller : Option Bool
  blockOwnerDeletion : Option Bool
  deriving DecidableEq

structure Metadata where
  name : Option String
  /-- What the server makes a name from when there is none. -/
  generateName : Option String
  namespaceName : Option String
  uid : Option String
  resourceVersion : Option String
  creationTimestamp : Option Instant
  deletionTimestamp : Option Instant
  generation : Option Int64
  finalizers : Option (List String)
  labels : Option (SortedMap String)
  annotations : Option (SortedMap String)
  ownerReferences : Option (List OwnerReference)
  other : Fields

namespace OwnerReference

def ofJson? (j : Json) : Option OwnerReference := do
  let f ← j.obj?
  some {
    apiVersion := ← fieldOr f "apiVersion" "" Json.str?
    kind := ← fieldOr f "kind" "" Json.str?
    name := ← fieldOr f "name" "" Json.str?
    uid := ← fieldOr f "uid" "" Json.str?
    controller := ← field? f "controller" Json.bool?
    blockOwnerDeletion := ← field? f "blockOwnerDeletion" Json.bool? }

def toJson (o : OwnerReference) : Json := Json.objOf [
  ("apiVersion", some (.str o.apiVersion)),
  ("blockOwnerDeletion", o.blockOwnerDeletion.map .bool),
  ("controller", o.controller.map .bool),
  ("kind", some (.str o.kind)),
  ("name", some (.str o.name)),
  ("uid", some (.str o.uid))]

end OwnerReference

namespace Metadata

def empty : Metadata :=
  ⟨none, none, none, none, none, none, none, none, none, none, none, none, []⟩

instance : Inhabited Metadata := ⟨empty⟩

def known : List String :=
  ["name", "generateName", "namespace", "uid", "resourceVersion", "creationTimestamp",
    "deletionTimestamp", "generation", "finalizers", "labels", "annotations", "ownerReferences"]

def ofJson? (j : Json) : Option Metadata := do
  let f ← j.obj?
  some {
    name := ← field? f "name" Json.str?
    generateName := ← field? f "generateName" Json.str?
    namespaceName := ← field? f "namespace" Json.str?
    uid := ← field? f "uid" Json.str?
    resourceVersion := ← field? f "resourceVersion" Json.str?
    creationTimestamp := ← field? f "creationTimestamp" instant?
    deletionTimestamp := ← field? f "deletionTimestamp" instant?
    generation := ← field? f "generation" Readable.int64?
    finalizers := ← field? f "finalizers" strings?
    labels := ← field? f "labels" stringMap?
    annotations := ← field? f "annotations" stringMap?
    ownerReferences := ← field? f "ownerReferences" (list? OwnerReference.ofJson?)
    other := others known f }

def toJson (m : Metadata) : Json :=
  Json.objOf ([
    ("annotations", m.annotations.map Json.ofStringMap),
    ("creationTimestamp", m.creationTimestamp.map ofInstant),
    ("deletionTimestamp", m.deletionTimestamp.map ofInstant),
    ("finalizers", m.finalizers.map Json.ofStrings),
    ("generateName", m.generateName.map .str),
    ("generation", m.generation.map ofInt64),
    ("labels", m.labels.map Json.ofStringMap),
    ("name", m.name.map .str),
    ("namespace", m.namespaceName.map .str),
    ("ownerReferences", m.ownerReferences.map fun l => .arr (l.map OwnerReference.toJson)),
    ("resourceVersion", m.resourceVersion.map .str),
    ("uid", m.uid.map .str)] ++ m.other.map fun e => (e.1, some e.2))

/-- The name, or the empty text. -/
def nameOrEmpty (m : Metadata) : String := m.name.getD ""

/-- What an object is called: its name, or else what its name will be made from. -/
def anyName (m : Metadata) : String := (m.name.or m.generateName).getD ""

def hasFinalizer (m : Metadata) (finalizer : String) : Bool :=
  (m.finalizers.getD []).contains finalizer

/-- The metadata of an object read from JSON, empty if it has none. -/
def ofFields? (f : Fields) : Option Metadata := fieldOr f "metadata" empty ofJson?

end Metadata
end BridgeOperator.Kube
