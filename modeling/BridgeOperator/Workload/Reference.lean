import BridgeOperator.Text.Split

/-!
References to workloads, written `kind/name`; a bare name is a pod.
-/

namespace BridgeOperator

inductive WorkloadKind where
  | deployment
  | statefulSet
  | pod
  deriving DecidableEq, Repr

namespace WorkloadKind

def name : WorkloadKind → String
  | .deployment => "deployment"
  | .statefulSet => "statefulset"
  | .pod => "pod"

def ofLower? (s : String) : Option WorkloadKind :=
  if s = "deployment" ∨ s = "deploy" ∨ s = "deployments" then some .deployment
  else if s = "statefulset" ∨ s = "sts" ∨ s = "statefulsets" then some .statefulSet
  else if s = "pod" ∨ s = "po" ∨ s = "pods" then some .pod
  else none

/-- Aliases are accepted in any ASCII letter case. -/
def parse? (s : String) : Option WorkloadKind :=
  ofLower? (String.ofList (s.toList.map Char.toLower))

end WorkloadKind

structure WorkloadRef where
  kind : WorkloadKind
  name : String
  deriving DecidableEq, Repr

/-- Why a text is no workload reference. -/
inductive ReferenceFault where
  | unsupportedKind (kind reference : String)
  | malformed (reference : String)
  deriving DecidableEq, Repr

def ReferenceFault.message : ReferenceFault → String
  | .unsupportedKind kind reference => s!"unsupported workload kind '{kind}' in '{reference}'"
  | .malformed reference => s!"invalid workload reference '{reference}'"

namespace WorkloadRef

/-- A name is not empty and has no slash. -/
def isName (s : List Char) : Bool := !s.isEmpty && !s.contains '/'

def parse (s : String) : Except ReferenceFault WorkloadRef :=
  match Text.cut '/' s.toList with
  | none => if isName s.toList then .ok ⟨.pod, s⟩ else .error (.malformed s)
  | some (kind, name) =>
    match WorkloadKind.parse? (String.ofList kind) with
    | none => .error (.unsupportedKind (String.ofList kind) s)
    | some k => if isName name then .ok ⟨k, String.ofList name⟩ else .error (.malformed s)

def render (r : WorkloadRef) : String := s!"{r.kind.name}/{r.name}"

end WorkloadRef
end BridgeOperator
