import BridgeOperator.Readable
import BridgeOperator.Time.Parser
import BridgeOperator.Time.Printer

/-!
How Kubernetes objects are read and written. A missing field and a null one mean the same; fields
the library does not look into are kept as they are, without their nulls.
-/

namespace BridgeOperator.Kube

abbrev Fields := List (String × Json)

def value? (fields : Fields) (k : String) : Option Json :=
  match fields.find? (fun e => e.1 = k) with
  | none | some (_, .null) => none
  | some (_, j) => some j

/-- A field that may be missing but must be readable if it is there. -/
def field? {α : Type} (fields : Fields) (k : String) (read : Json → Option α) : Option (Option α) :=
  match value? fields k with
  | none => some none
  | some j => (read j).map some

/-- A field whose zero value stands in when it is missing. -/
def fieldOr {α : Type} (fields : Fields) (k : String) (zero : α) (read : Json → Option α) :
    Option α :=
  (field? fields k read).map (·.getD zero)

/-- The fields not named in `known`, without nulls. -/
def others (known : List String) (fields : Fields) : Fields :=
  Json.prune.pruneFields (fields.filter (fun e => !known.contains e.1))

/-- Add the fields of `zeros` that are missing. -/
def orZero (zeros : Fields) (fields : Fields) : Fields :=
  fields ++ zeros.filter (fun e => !fields.any (fun f => f.1 = e.1))

def strings? (j : Json) : Option (List String) := Readable.list? Json.str? j

def stringMap? (j : Json) : Option (SortedMap String) := Readable.map? Json.str? j

def list? {α : Type} (read : Json → Option α) (j : Json) : Option (List α) := Readable.list? read j

def instant? (j : Json) : Option Instant := j.str?.bind Instant.parse?

def ofInstant (t : Instant) : Json := .str (t.civilText .seconds ++ "Z")

def ofInt32 (n : Int32) : Json := .int n.toInt

def ofInt64 (n : Int64) : Json := .int n.toInt

/-- An object whose type is part of the text: the version and the kind, if given, must match. -/
def typed? (apiVersion kind : String) (j : Json) : Option Fields := do
  let fields ← j.obj?
  let version ← fieldOr fields "apiVersion" apiVersion Json.str?
  let name ← fieldOr fields "kind" kind Json.str?
  if version = apiVersion ∧ name = kind then some fields else none

/-- The parts of a custom object. Given as a list, it names all of them. -/
def customParts? (j : Json) : Option Fields :=
  let names := ["metadata", "spec", "status"]
  match j with
  | .arr items => if items.length = names.length then some (names.zip items) else none
  | _ => Readable.record? names j

def typedObj (apiVersion kind : String) (fields : List (String × Option Json)) : Json :=
  Json.objOf (("apiVersion", some (.str apiVersion)) :: ("kind", some (.str kind)) :: fields)

end BridgeOperator.Kube
