import BridgeOperator.Bridge.Basic
import BridgeOperator.Crd.Schema
import BridgeOperator.Yaml.Printer

/-!
The definitions by which the API server learns of bridges and clients.
-/

namespace BridgeOperator

/-- A resource the operator brings along. -/
structure CrdDefinition where
  kind : String
  plural : String
  singular : String
  shortName : String
  /-- The columns of a listing: name, type and path. -/
  columns : List (String × String × String)
  spec : Crd.Schema
  status : Crd.Schema

namespace CrdDefinition

def group : String := "gefyra.dev"

def name (d : CrdDefinition) : String := s!"{d.plural}.{group}"

/-- The schema of the whole object. -/
def schema (d : CrdDefinition) : Json :=
  Crd.Schema.toJson (("title", .str d.kind) ::
    Crd.Schema.record s!"Auto-generated derived type for {d.kind}Spec via `CustomResource`"
      ["spec"] [("spec", d.spec), ("status", d.status)])

def columnToJson : String × String × String → Json
  | (name, type, path) =>
    .obj [("jsonPath", .str path), ("name", .str name), ("type", .str type)]

def versionToJson (d : CrdDefinition) : Json := .obj [
  ("additionalPrinterColumns", .arr (d.columns.map columnToJson)),
  ("name", .str "v1"),
  ("schema", .obj [("openAPIV3Schema", d.schema)]),
  ("served", .bool true),
  ("storage", .bool true),
  ("subresources", .obj [("status", .obj [])])]

def toJson (d : CrdDefinition) : Json := .obj [
  ("apiVersion", .str "apiextensions.k8s.io/v1"),
  ("kind", .str "CustomResourceDefinition"),
  ("metadata", .obj [("name", .str d.name)]),
  ("spec", .obj [
    ("group", .str group),
    ("names", .obj [
      ("categories", .arr []),
      ("kind", .str d.kind),
      ("plural", .str d.plural),
      ("shortNames", Json.ofStrings [d.shortName]),
      ("singular", .str d.singular)]),
    ("scope", .str "Namespaced"),
    ("versions", .arr [d.versionToJson])])]

def ageColumn : String × String × String := ("Age", "date", ".metadata.creationTimestamp")

def stateColumn : String × String × String := ("State", "string", ".status.state")

def bridge : CrdDefinition where
  kind := Bridge.kind
  plural := Bridge.plural
  singular := "gefyrabridge"
  shortName := "gbridge"
  columns := [
    stateColumn,
    ("Provider", "string", ".spec.provider"),
    ("Target", "string", ".spec.target"),
    ageColumn]
  spec := Crd.bridgeSpec
  status := Crd.bridgeStatus

def client : CrdDefinition where
  kind := Client.kind
  plural := Client.plural
  singular := "gefyraclient"
  shortName := "gclient"
  columns := [stateColumn, ("Sunset", "string", ".spec.sunset"), ageColumn]
  spec := Crd.clientSpec
  status := Crd.clientStatus

def all : List CrdDefinition := [bridge, client]

/-- All definitions, as the documents of one YAML stream. -/
def manifests : String := String.intercalate "---\n" (all.map fun d => Yaml.render d.toJson)

end CrdDefinition
end BridgeOperator
