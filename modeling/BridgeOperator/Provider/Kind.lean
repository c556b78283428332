/-!
The two strategies for intercepting traffic.
-/

namespace BridgeOperator

inductive ProviderKind where
  /-- Reconfigure the Carrier2 proxy that runs in the target container. -/
  | carrier2
  /-- Run a copy of the workload behind a service of its own. -/
  | duplicate
  deriving DecidableEq, Repr

/-- The name a spec asks for the provider by. -/
def ProviderKind.name : ProviderKind → String
  | .carrier2 => "carrier2"
  | .duplicate => "duplicate"

end BridgeOperator
