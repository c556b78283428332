import BridgeOperator.Provider.Duplicate
import BridgeOperator.Provider.Sidecar

/-!
The providers the operator comes with.
-/

namespace BridgeOperator

def Registry.standard : Registry :=
  SortedMap.ofList [
    (ProviderKind.carrier2.name, Provider.sidecar),
    (ProviderKind.duplicate.name, Provider.duplicate)]

end BridgeOperator
