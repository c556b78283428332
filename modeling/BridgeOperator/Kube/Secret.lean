import BridgeOperator.Encoding.Base64
import BridgeOperator.Kube.Metadata

/-!
Secrets. Their data is base64 text, checked when a secret is read.
-/

namespace BridgeOperator.Kube

structure Secret where
  metadata : Metadata
  kind : Option String
  data : Option (SortedMap String)
  other : Fields

instance : Inhabited Secret := ⟨⟨.empty, none, none, []⟩⟩

namespace Secret

def encodedText? (j : Json) : Option String :=
  j.str?.bind fun s => (Base64.decodeBytes? s.toList).map fun _ => s

def ofJson? (j : Json) : Option Secret := do
  let f ← typed? "v1" "Secret" j
  some {
    metadata := ← Metadata.ofFields? f
    kind := ← field? f "type" Json.str?
    data := ← field? f "data" (Readable.map? encodedText?)
    other := others ["apiVersion", "kind", "metadata", "type", "data"] f }

def toJson (s : Secret) : Json := typedObj "v1" "Secret" ([
  ("metadata", some s.metadata.toJson),
  ("type", s.kind.map .str),
  ("data", s.data.map Json.ofStringMap)] ++ s.other.map fun e => (e.1, some e.2))

end Secret
end BridgeOperator.Kube
