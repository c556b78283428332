import BridgeOperator.Readable

/-!
What traffic is intercepted and where it goes: port mappings, match rules and TLS settings. Each
type has a reader for both JSON and YAML and one JSON form.
-/

namespace BridgeOperator

open Readable

variable {ν : Type} [Readable ν]

structure PortMapping where
  containerPort : UInt16
  localPort : UInt16
  deriving DecidableEq, Repr

/-- How a header or path is compared with the expected value. -/
inductive MatchType where
  | exact
  | leading
  | regex
  deriving DecidableEq, Repr

structure HeaderMatch where
  name : String
  value : String
  kind : MatchType
  deriving DecidableEq, Repr

structure PathMatch where
  path : String
  kind : MatchType
  deriving DecidableEq, Repr

structure MatchClause where
  header : Option HeaderMatch
  path : Option PathMatch
  deriving DecidableEq, Repr

/-- Traffic is bridged when all clauses match. -/
structure RouteRule where
  clauses : List MatchClause
  deriving DecidableEq, Repr

structure TlsParameter where
  certificate : String
  key : String
  sni : Option String
  deriving DecidableEq, Repr

structure ProviderParameter where
  portMappings : List PortMapping
  destination : Option String
  rules : List RouteRule
  tls : Option TlsParameter
  deriving DecidableEq, Repr

namespace PortMapping

def read (v : ν) : Option PortMapping := do
  let f ← record? ["containerPort", "localPort"] v
  some ⟨← required f "containerPort" uint16?, ← required f "localPort" uint16?⟩

def toJson (m : PortMapping) : Json :=
  .obj [("containerPort", .int m.containerPort.toNat), ("localPort", .int m.localPort.toNat)]

end PortMapping

namespace MatchType

def text : MatchType → String
  | exact => "exact"
  | leading => "prefix"
  | regex => "regex"

def ofText? (s : String) : Option MatchType :=
  if s = "exact" then some exact
  else if s = "prefix" then some leading
  else if s = "regex" then some regex
  else none

def read (v : ν) : Option MatchType := (variant? v).bind ofText?

end MatchType

namespace HeaderMatch

def read (v : ν) : Option HeaderMatch := do
  let f ← record? ["name", "value", "type"] v
  some {
    name := ← required f "name" text?
    value := ← required f "value" text?
    kind := ← withDefault f "type" .exact MatchType.read }

def toJson (m : HeaderMatch) : Json :=
  .obj [("name", .str m.name), ("value", .str m.value), ("type", .str m.kind.text)]

end HeaderMatch

namespace PathMatch

def read (v : ν) : Option PathMatch := do
  let f ← record? ["path", "type"] v
  some { path := ← required f "path" text?, kind := ← withDefault f "type" .exact MatchType.read }

def toJson (m : PathMatch) : Json := .obj [("path", .str m.path), ("type", .str m.kind.text)]

end PathMatch

namespace MatchClause

def read (v : ν) : Option MatchClause := do
  let f ← record? ["matchHeader", "matchPath"] v
  some {
    header := ← optional f "matchHeader" HeaderMatch.read
    path := ← optional f "matchPath" PathMatch.read }

def toJson (c : MatchClause) : Json :=
  Json.objOf [("matchHeader", c.header.map (·.toJson)), ("matchPath", c.path.map (·.toJson))]

end MatchClause

namespace RouteRule

def read (v : ν) : Option RouteRule := do
  let f ← record? ["match"] v
  some ⟨← required f "match" (list? MatchClause.read)⟩

def toJson (r : RouteRule) : Json := .obj [("match", .arr (r.clauses.map MatchClause.toJson))]

end RouteRule

namespace TlsParameter

def read (v : ν) : Option TlsParameter := do
  let f ← record? ["certificate", "key", "sni"] v
  some {
    certificate := ← required f "certificate" text?
    key := ← required f "key" text?
    sni := ← optional f "sni" text? }

def toJson (t : TlsParameter) : Json := Json.objOf [
  ("certificate", some (.str t.certificate)),
  ("key", some (.str t.key)),
  ("sni", t.sni.map .str)]

end TlsParameter

namespace ProviderParameter

def empty : ProviderParameter := ⟨[], none, [], none⟩

def read (v : ν) : Option ProviderParameter := do
  let f ← record? ["portMappings", "destination", "rules", "tls"] v
  some {
    portMappings := ← withDefault f "portMappings" [] (list? PortMapping.read)
    destination := ← optional f "destination" text?
    rules := ← withDefault f "rules" [] (list? RouteRule.read)
    tls := ← optional f "tls" TlsParameter.read }

/-- Rules are left out when there are none, port mappings never. -/
def toJson (p : ProviderParameter) : Json := Json.objOf [
  ("portMappings", some (.arr (p.portMappings.map PortMapping.toJson))),
  ("destination", p.destination.map .str),
  ("rules", if p.rules.isEmpty then none else some (.arr (p.rules.map RouteRule.toJson))),
  ("tls", p.tls.map TlsParameter.toJson)]

end ProviderParameter
end BridgeOperator
