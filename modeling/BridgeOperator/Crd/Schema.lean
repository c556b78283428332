import BridgeOperator.Bridge.Spec
import BridgeOperator.Bridge.Status
import BridgeOperator.Client.Basic

/-!
The schemas by which the API server checks bridges and clients.
-/

namespace BridgeOperator.Crd

/-- A schema is a JSON object; these are its fields. -/
abbrev Schema : Type := List (String × Json)

namespace Schema

def toJson (s : Schema) : Json := .obj s

def ofType (t : String) : Schema := [("type", .str t)]

def text : Schema := ofType "string"

def dateTime : Schema := [("type", .str "string"), ("format", .str "date-time")]

def int64 : Schema := [("type", .str "integer"), ("format", .str "int64")]

def uint16 : Schema :=
  [("type", .str "integer"), ("format", .str "uint16"), ("minimum", .float 0)]

def oneOf (values : List String) : Schema :=
  [("type", .str "string"), ("enum", Json.ofStrings values)]

def listOf (item : Schema) : Schema := [("type", .str "array"), ("items", item.toJson)]

def mapOf (value : Schema) : Schema :=
  [("type", .str "object"), ("additionalProperties", value.toJson)]

/-- Say what a schema is for, in place of what it said before. -/
def describe (s : Schema) (description : String) : Schema :=
  ("description", .str description) :: s.filter (fun e => e.1 ≠ "description")

def nullable (s : Schema) : Schema := s ++ [("nullable", .bool true)]

def withDefault (s : Schema) (value : Json) : Schema := s ++ [("default", value)]

/-- An object with the given fields, of which some are required. -/
def record (description : String) (required : List String) (fields : List (String × Schema)) :
    Schema :=
  [("description", .str description),
    ("type", .str "object"),
    ("properties", .obj (fields.map fun e => (e.1, e.2.toJson)))]
  ++ if required.isEmpty then [] else [("required", Json.ofStrings required)]

end Schema

open Schema

def portMapping : Schema :=
  record "Maps a port of the target container to a port on the developer machine"
    ["containerPort", "localPort"] [
    ("containerPort", uint16.describe "Port the target container listens on"),
    ("localPort", uint16.describe "Port the local process listens on")]

def matchType : Schema :=
  ((oneOf [MatchType.exact.text, MatchType.leading.text, MatchType.regex.text]).describe
    "Comparison type").withDefault (.str MatchType.exact.text)

def headerMatch : Schema :=
  record "Match on a request header" ["name", "value"] [
    ("name", text.describe "Header name"),
    ("value", text.describe "Expected value"),
    ("type", matchType)]

def pathMatch : Schema :=
  record "Match on the request path" ["path"] [
    ("path", text.describe "Path to compare against"),
    ("type", matchType)]

def matchClause : Schema :=
  record "One match clause; exactly one of the fields is set" [] [
    ("matchHeader", (headerMatch.describe "Header match").nullable),
    ("matchPath", (pathMatch.describe "Path match").nullable)]

def routeRule : Schema :=
  record "A routing rule; all clauses must match for traffic to be bridged" ["match"] [
    ("match", (listOf matchClause).describe "Match clauses")]

def tlsParameter : Schema :=
  record "TLS termination settings for a proxied port" ["certificate", "key"] [
    ("certificate", text.describe "Path to the certificate inside the target container"),
    ("key", text.describe "Path to the private key inside the target container"),
    ("sni", (text.describe "Server name indication").nullable)]

def providerParameter : Schema :=
  record "Provider-specific bridge parameters" [] [
    ("portMappings",
      ((listOf portMapping).describe
        "Ports to intercept and where to send them locally").withDefault (.arr [])),
    ("destination",
      (text.describe "Cluster-side host that forwards to the developer machine").nullable),
    ("rules", (listOf routeRule).describe
      "Header/path rules selecting the traffic to bridge; empty bridges everything"),
    ("tls", (tlsParameter.describe "TLS termination for the intercepted ports").nullable)]

def condition : Schema :=
  record "Kubernetes-style condition for status reporting"
    ["lastTransitionTime", "message", "reason", "status", "type"] [
    ("type", text.describe "Type of condition (e.g., Ready)"),
    ("status", (oneOf [ConditionStatus.true.text, ConditionStatus.false.text,
      ConditionStatus.unknown.text]).describe "Status of the condition (True, False, Unknown)"),
    ("reason", text.describe "Machine-readable reason for the condition"),
    ("message", text.describe "Human-readable message"),
    ("lastTransitionTime", dateTime.describe "Last time the condition transitioned")]

def stateField (states : List String) (first : String) : Schema :=
  ((oneOf states).describe "Current lifecycle state").withDefault (.str first)

def transitionsField : Schema := (mapOf dateTime).describe "First time each state was entered"

def messageField : Schema := (text.describe "Human-readable detail for the current state").nullable

def bridgeSpec : Schema :=
  record "Traffic redirection from a cluster workload container to a local process"
    ["provider", "target", "targetContainer", "targetNamespace"] [
    ("provider", text.describe "Bridge mount provider (`carrier2` or `duplicate`)"),
    ("targetNamespace", text.describe "Namespace of the target workload"),
    ("target", text.describe "Target workload as `kind/name`; a bare name is a Pod"),
    ("targetContainer", text.describe "Container within the target workload"),
    ("providerParameter", (providerParameter.describe
      "Provider-specific parameters").withDefault ProviderParameter.empty.toJson),
    ("client", (text.describe "Client that requested this bridge").nullable)]

def bridgeStatus : Schema :=
  (record "Status for GefyraBridge" [] [
    ("state", stateField (BridgeState.all.map (·.text)) BridgeState.requested.text),
    ("stateTransitions", transitionsField),
    ("message", messageField),
    ("conditions", (listOf condition).describe "Status conditions"),
    ("observedGeneration", (int64.describe "Generation observed by the controller").nullable),
    ("lastAppliedSpec", (text.describe
      "Canonical JSON of the spec the current state was computed from").nullable)]).nullable

def clientSpec : Schema :=
  record "Connecting peer authorized to use the Gefyra tunnel" [] [
    ("provider", (text.describe "Connection provider").withDefault
      (.str ClientSpec.defaultProvider)),
    ("sunset",
      (text.describe "ISO-8601 deadline after which the client is revoked (UTC)").nullable),
    ("providerConfig", ((mapOf text).describe
      "Connection material handed to the client as a secret").nullable)]

def clientStatus : Schema :=
  (record "Status for GefyraClient" [] [
    ("state", stateField (ClientState.all.map (·.text)) ClientState.active.text),
    ("stateTransitions", transitionsField),
    ("message", messageField),
    ("secretName", (text.describe "Name of the connection secret, once created").nullable),
    ("secretSource", (text.describe
      "Fingerprint of the provider config the secret was built from").nullable)]).nullable

end BridgeOperator.Crd
