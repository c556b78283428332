import BridgeOperator.Kube.Object

/-!
Label selectors, and which labels they match.
-/

namespace BridgeOperator.Kube

structure Requirement where
  key : String
  operator : String
  values : Option (List String)
  deriving DecidableEq

structure LabelSelector where
  matchLabels : Option (SortedMap String)
  matchExpressions : Option (List Requirement)
  deriving DecidableEq

namespace Requirement

def ofJson? (j : Json) : Option Requirement := do
  let f ← j.obj?
  some {
    key := ← fieldOr f "key" "" Json.str?
    operator := ← fieldOr f "operator" "" Json.str?
    values := ← field? f "values" strings? }

def toJson (r : Requirement) : Json := Json.objOf [
  ("key", some (.str r.key)),
  ("operator", some (.str r.operator)),
  ("values", r.values.map Json.ofStrings)]

/-- An unknown operator matches nothing. -/
def holds (r : Requirement) (labels : SortedMap String) : Bool :=
  let value := labels.get? r.key
  let values := r.values.getD []
  if r.operator = "In" then value.any values.contains
  else if r.operator = "NotIn" then !value.any values.contains
  else if r.operator = "Exists" then value.isSome
  else if r.operator = "DoesNotExist" then value.isNone
  else false

end Requirement

namespace LabelSelector

def empty : LabelSelector := ⟨none, none⟩

instance : Inhabited LabelSelector := ⟨empty⟩

def ofJson? (j : Json) : Option LabelSelector := do
  let f ← j.obj?
  some {
    matchLabels := ← field? f "matchLabels" stringMap?
    matchExpressions := ← field? f "matchExpressions" (list? Requirement.ofJson?) }

def toJson (s : LabelSelector) : Json := Json.objOf [
  ("matchExpressions", s.matchExpressions.map fun l => .arr (l.map Requirement.toJson)),
  ("matchLabels", s.matchLabels.map Json.ofStringMap)]

/-- Every label and every requirement of the selector holds. -/
def holds (s : LabelSelector) (labels : SortedMap String) : Bool :=
  (s.matchLabels.getD ∅).toList.all (fun e => labels.get? e.1 = some e.2)
    && (s.matchExpressions.getD []).all (·.holds labels)

end LabelSelector

/-- Equality requirements as the API takes them in a query: `k=v`, joined by commas. -/
def selectorText (labels : SortedMap String) : String :=
  String.intercalate "," (labels.toList.map fun e => e.1 ++ "=" ++ e.2)

end BridgeOperator.Kube
