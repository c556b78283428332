import BridgeOperator.Api.Request
import BridgeOperator.Client.Basic
import BridgeOperator.Kube.Secret
import BridgeOperator.Kube.Service
import BridgeOperator.Kube.Workload
import BridgeOperator.Bridge.Basic

/-!
The resources of the API and what can be done with them.
-/

namespace BridgeOperator.Api

open Kube (Controller Metadata Pod Secret Service Workload)

/-- A kind of objects served under one path. -/
structure Resource (α : Type) where
  group : String
  plural : String
  read : Json → Option α
  write : α → Json
  metadata : α → Metadata

/-- The name the operator's changes are recorded under. -/
def fieldManager : String := "gefyra-operator"

def pods : Resource Pod := ⟨"/api/v1", "pods", Pod.ofJson?, Pod.toJson, Pod.metadata⟩

def services : Resource Service :=
  ⟨"/api/v1", "services", Service.ofJson?, Service.toJson, Service.metadata⟩

def secrets : Resource Secret :=
  ⟨"/api/v1", "secrets", Secret.ofJson?, Secret.toJson, Secret.metadata⟩

def workloads (c : Controller) : Resource Workload where
  group := "/apis/apps/v1"
  plural := match c with
    | .deployment => "deployments"
    | .statefulSet => "statefulsets"
  read := Workload.ofJson? c
  write := Workload.toJson c
  metadata := Workload.metadata

def bridges : Resource Bridge :=
  ⟨"/apis/gefyra.dev/v1", Bridge.plural, Bridge.ofJson?, Bridge.toJson, Bridge.metadata⟩

def clients : Resource Client :=
  ⟨"/apis/gefyra.dev/v1", Client.plural, Client.ofJson?, Client.toJson, Client.metadata⟩

/-- The paths of a list response that are looked at. -/
def readList {α : Type} (read : Json → Option α) (j : Json) : Option (List α) := do
  let f ← j.obj?
  match ← Readable.lookup f "items" with
  | .null => some []
  | items => Readable.list? read items

/-- The status a deletion may be answered with. -/
def readDeletion (j : Json) : Option Unit := do
  let f ← j.obj?
  let _ ← Kube.field? f "status" fun s =>
    if s.str? = some "Success" ∨ s.str? = some "Failure" then some () else none
  let _ ← Readable.withDefault f "message" "" Json.str?
  let _ ← Readable.withDefault f "reason" "" Json.str?
  let _ ← Readable.withDefault f "code" 0 Readable.uint16?
  some ()

def mergePatch : String := "application/merge-patch+json"
def applyPatch : String := "application/apply-patch+yaml"
def plainJson : String := "application/json"

namespace Resource

variable {α : Type} (r : Resource α)

def everywhere : String := s!"{r.group}/{r.plural}"

def inNamespace (namespaceName : String) : String :=
  s!"{r.group}/namespaces/{namespaceName}/{r.plural}"

/-- The path of one object; an object without name has none. -/
def path (namespaceName name : String) : Except Error String :=
  if name.isEmpty then .error (.kube .unnamedObject)
  else .ok s!"{r.inNamespace namespaceName}/{name}"

def get (namespaceName name : String) : ApiWork α := do
  let path ← r.path namespaceName name
  send ⟨.get, path, [], none, none⟩ r.read

/-- An object, or `none` if the server says that it is not found. -/
def get? (namespaceName name : String) : ApiWork (Option α) := do
  match ← (r.get namespaceName name).outcome with
  | .ok a => return some a
  | .error (.kube (.api s)) =>
    if s.reason = "NotFound" then return none else throw (.kube (.api s))
  | .error e => throw e

def listAt (path : String) (query : List (String × String)) : ApiWork (List α) :=
  send ⟨.get, path, query, none, none⟩ (readList r.read)

def create (namespaceName : String) (a : α) : ApiWork Unit := do
  let _ ← send ⟨.post, r.inNamespace namespaceName, [], some plainJson, some (r.write a)⟩ r.read

/-- Apply an object as the operator wants it, whoever else has written to it. -/
def apply (namespaceName : String) (a : α) : ApiWork Unit := do
  let path ← r.path namespaceName (r.metadata a).anyName
  let query := [("fieldManager", fieldManager), ("force", "true")]
  let _ ← send ⟨.patch, path, query, some applyPatch, some (r.write a)⟩ r.read

def merge (namespaceName name part : String) (patch : Json) : ApiWork Unit := do
  let path ← r.path namespaceName name
  let _ ← send
    ⟨.patch, path ++ part, [("fieldManager", fieldManager)], some mergePatch, some patch⟩ r.read

def patchStatus (namespaceName name : String) (status : Json) : ApiWork Unit :=
  r.merge namespaceName name "/status" (.obj [("status", status)])

def patchFinalizers (namespaceName name : String) (finalizers : List String) : ApiWork Unit :=
  r.merge namespaceName name ""
    (.obj [("metadata", .obj [("finalizers", Json.ofStrings finalizers)])])

/-- Delete an object in the background; was there one? -/
def delete (namespaceName name : String) : ApiWork Bool := do
  let path ← r.path namespaceName name
  let readAnswer (j : Json) : Option Unit :=
    if (j.field? "kind").bind Json.str? = some "Status" then readDeletion j
    else (r.read j).map fun _ => ()
  let body := Json.obj [("propagationPolicy", .str "Background")]
  match ← (send ⟨.delete, path, [], some plainJson, some body⟩ readAnswer).outcome with
  | .ok () => return true
  | .error e => if e.isNotFound then return false else throw e

/-- Append a finalizer to those the object has, unless it is there. -/
def addFinalizer (namespaceName name finalizer : String) : ApiWork Unit := do
  let a ← r.get namespaceName name
  if !(r.metadata a).hasFinalizer finalizer then
    r.patchFinalizers namespaceName name (((r.metadata a).finalizers.getD []) ++ [finalizer])

/-- Take a finalizer off an object, if the object is still there. -/
def removeFinalizer (namespaceName name finalizer : String) : ApiWork Unit := do
  match ← r.get? namespaceName name with
  | none => return
  | some a =>
    r.patchFinalizers namespaceName name
      (((r.metadata a).finalizers.getD []).filter (· ≠ finalizer))

end Resource
end BridgeOperator.Api
