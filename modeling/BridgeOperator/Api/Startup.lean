import BridgeOperator.Api.Operator
import BridgeOperator.Crd.Definition

/-!
What the operator does with the API before its controllers start.
-/

namespace BridgeOperator.Api

/-- A definition that could not be installed, and why. -/
structure InstallFault where
  definition : CrdDefinition
  error : Error

def InstallFault.message (f : InstallFault) : String :=
  let why := match f.error with
    | .kube fault => fault.message
    | e => e.message
  s!"Failed to install CRD {f.definition.name}: {why}"

/-- The answer to an applied definition names it at least. -/
def readDefinition (j : Json) : Option Unit := do
  let f ← Kube.typed? "apiextensions.k8s.io/v1" "CustomResourceDefinition" j
  let _ ← Kube.Metadata.ofFields? f
  let _ ← Kube.field? f "spec" Json.obj?
  some ()

def installDefinition (d : CrdDefinition) : ApiWork Unit :=
  send {
    method := .patch
    path := s!"/apis/apiextensions.k8s.io/v1/customresourcedefinitions/{d.name}"
    query := [("fieldManager", fieldManager), ("force", "true")]
    contentType := some applyPatch
    body := some d.toJson } readDefinition

/-- Install or update definitions until one fails. -/
def installDefinitions : List CrdDefinition → Prog ApiCall (Option InstallFault)
  | [] => pure none
  | d :: rest => do
    match ← (installDefinition d).run with
    | .ok () => installDefinitions rest
    | .error e => pure (some ⟨d, e⟩)

end BridgeOperator.Api
