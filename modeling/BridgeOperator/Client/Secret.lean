import BridgeOperator.Client.Basic
import BridgeOperator.Encoding.Base64
import BridgeOperator.Encoding.Sha256
import BridgeOperator.Json.Printer
import BridgeOperator.Kube.Secret
import BridgeOperator.Labels

/-!
The secret that hands a client its connection material, and the fingerprint by which a changed
config is noticed.
-/

namespace BridgeOperator

open Kube (Secret OwnerReference)

/-- Encode every leaf in base64: strings as they are, other values as their JSON text. -/
def encodeLeaves : Json → Json
  | .obj fields => .obj (encodeFields fields)
  | .str s => .str (Base64.encode s)
  | j => .str (Base64.encode j.render)
where
  encodeFields : List (String × Json) → List (String × Json)
    | [] => []
    | (k, j) :: rest => (k, encodeLeaves j) :: encodeFields rest

/-- The JSON of a secret with the given data. -/
def secretBody (name namespaceName : String) (data : Json) : Json := .obj [
  ("apiVersion", .str "v1"),
  ("kind", .str "Secret"),
  ("metadata", .obj [
    ("name", .str name),
    ("namespace", .str namespaceName),
    ("labels", .obj [(Label.managedBy, .str Label.operator)])]),
  ("type", .str "Opaque"),
  ("data", encodeLeaves data)]

def connectionSecretName (client : String) : String := "gefyra-connection-" ++ client

/-- The secret that holds a client's provider config. -/
def connectionSecret (client namespaceName : String) (config : SortedMap String)
    (owner : Option OwnerReference) : Secret where
  metadata :=
    { Kube.Metadata.empty with
      name := some (connectionSecretName client)
      namespaceName := some namespaceName
      labels := some (SortedMap.ofList [(Label.managedBy, Label.operator), (Label.client, client)])
      ownerReferences := owner.map fun o => [o] }
  kind := some "Opaque"
  data := some (config.mapValues Base64.encode)
  other := []

/-- The secret as it is read from its body, with the label of the client and with its owner; `none`
if the body is none of a secret. -/
def connectionSecret? (client namespaceName : String) (config : SortedMap String)
    (owner : Option OwnerReference) : Option Secret :=
  let body := secretBody (connectionSecretName client) namespaceName (Json.ofStringMap config)
  (Secret.ofJson? body).map fun s =>
    { s with metadata := { s.metadata with
        labels := some ((s.metadata.labels.getD ∅).insert Label.client client)
        ownerReferences := owner.map fun o => [o] } }

/-- What a fingerprint is taken of: every key and value, each followed by a zero byte. -/
def fingerprintBytes (config : SortedMap String) : List UInt8 :=
  config.toList.flatMap fun e => utf8 e.1 ++ 0 :: utf8 e.2 ++ [0]

/-- The first eight bytes of the digest, in hexadecimal. -/
def configFingerprint (config : SortedMap String) : String :=
  String.ofList (((Sha256.digest (fingerprintBytes config)).take 8).flatMap Sha256.hexByte)

end BridgeOperator
