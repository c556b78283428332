import BridgeOperator.Routing

/-!
The request a bridge makes: which container of which workload, through which provider.
-/

namespace BridgeOperator

open Readable

structure BridgeSpec where
  provider : String
  targetNamespace : String
  target : String
  targetContainer : String
  providerParameter : ProviderParameter
  client : Option String
  deriving DecidableEq, Repr

namespace BridgeSpec

variable {ν : Type} [Readable ν]

def fieldNames : List String :=
  ["provider", "targetNamespace", "target", "targetContainer", "providerParameter", "client"]

def read (v : ν) : Option BridgeSpec := do
  let f ← record? fieldNames v
  some {
    provider := ← required f "provider" text?
    targetNamespace := ← required f "targetNamespace" text?
    target := ← required f "target" text?
    targetContainer := ← required f "targetContainer" text?
    providerParameter := ← withDefault f "providerParameter" .empty ProviderParameter.read
    client := ← optional f "client" text? }

def toJson (s : BridgeSpec) : Json := Json.objOf [
  ("provider", some (.str s.provider)),
  ("targetNamespace", some (.str s.targetNamespace)),
  ("target", some (.str s.target)),
  ("targetContainer", some (.str s.targetContainer)),
  ("providerParameter", some s.providerParameter.toJson),
  ("client", s.client.map .str)]

end BridgeSpec
end BridgeOperator
