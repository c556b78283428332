import BridgeOperator.Kube.Metadata
import BridgeOperator.Text.CaseMap

/-!
Events about objects, and references to the objects they are about.
-/

namespace BridgeOperator.Kube

structure ObjectReference where
  apiVersion : Option String
  kind : Option String
  name : Option String
  namespaceName : Option String
  uid : Option String
  resourceVersion : Option String
  fieldPath : Option String
  deriving DecidableEq

namespace ObjectReference

def ofMetadata (apiVersion kind : String) (m : Metadata) : ObjectReference :=
  ⟨some apiVersion, some kind, m.name, m.namespaceName, m.uid, none, none⟩

def ofJson? (j : Json) : Option ObjectReference := do
  let f ← j.obj?
  some {
    apiVersion := ← field? f "apiVersion" Json.str?
    kind := ← field? f "kind" Json.str?
    name := ← field? f "name" Json.str?
    namespaceName := ← field? f "namespace" Json.str?
    uid := ← field? f "uid" Json.str?
    resourceVersion := ← field? f "resourceVersion" Json.str?
    fieldPath := ← field? f "fieldPath" Json.str? }

def toJson (r : ObjectReference) : Json := Json.objOf [
  ("apiVersion", r.apiVersion.map .str),
  ("fieldPath", r.fieldPath.map .str),
  ("kind", r.kind.map .str),
  ("name", r.name.map .str),
  ("namespace", r.namespaceName.map .str),
  ("resourceVersion", r.resourceVersion.map .str),
  ("uid", r.uid.map .str)]

end ObjectReference

inductive EventType where
  | normal
  | warning
  deriving DecidableEq, Repr

def EventType.text : EventType → String
  | .normal => "Normal"
  | .warning => "Warning"

/-- What is reported about an object, before it becomes an event. -/
structure Notice where
  regarding : ObjectReference
  type : EventType
  reason : String
  action : String
  note : String
  deriving DecidableEq

structure Event where
  name : String
  namespaceName : String
  reason : String
  note : String
  eventTime : Instant
  action : String
  type : String
  regarding : ObjectReference
  deriving DecidableEq

namespace Event

/-- The name the operator reports itself under. -/
def reporter : String := "gefyra-operator"

/-- The API server takes notes of at most this many characters. -/
def maxNote : Nat := 1024

def truncateNote (note : String) : String := String.ofList (note.toList.take maxNote)

/-- An event about a change of state. `fresh` makes its name unique. -/
def ofChange (namespaceName : String) (regarding : ObjectReference)
    (type reason action note fresh : String) (now : Instant) : Event where
  name := regarding.name.getD "gefyra" ++ "-" ++ fresh
  namespaceName := namespaceName
  reason := Text.capitalize reason
  note := truncateNote note
  eventTime := now
  action := action
  type := type
  regarding := regarding

/-- The event posted when the operator has started. -/
def operatorReady (namespaceName : String) (now : Instant) : Event where
  name := "gefyra-operator-startup"
  namespaceName := namespaceName
  reason := "Gefyra-Ready"
  note := "Operator has been started configured successfully"
  eventTime := now
  action := "Startup"
  type := "Normal"
  regarding :=
    { apiVersion := none, kind := some "deployment", name := some reporter,
      namespaceName := some namespaceName, uid := none, resourceVersion := none, fieldPath := none }

def toJson (e : Event) : Json := typedObj "events.k8s.io/v1" "Event" [
  ("metadata", some (.obj [("name", .str e.name), ("namespace", .str e.namespaceName)])),
  ("action", some (.str e.action)),
  ("eventTime", some (.str (e.eventTime.civilText .micros ++ "Z"))),
  ("note", some (.str e.note)),
  ("reason", some (.str e.reason)),
  ("regarding", some e.regarding.toJson),
  ("reportingController", some (.str reporter)),
  ("reportingInstance", some (.str reporter)),
  ("type", some (.str e.type))]

end Event
end BridgeOperator.Kube
