import BridgeOperator.Error
import BridgeOperator.Routing

/-!
Which port mappings are accepted.
-/

namespace BridgeOperator.PortMapping

/-- The first mapping that has a zero port or maps a port a second time. -/
def firstFault (seen : List UInt16) : List PortMapping → Option Invalid
  | [] => none
  | m :: rest =>
    if m.containerPort = 0 ∨ m.localPort = 0 then some (.zeroPort m.containerPort m.localPort)
    else if seen.contains m.containerPort then some (.mappedTwice m.containerPort)
    else firstFault (m.containerPort :: seen) rest

/-- Ports are nonzero and container ports differ; `requireAny` refuses an empty list. -/
def check (bridge : String) (mappings : List PortMapping) (requireAny : Bool) :
    Except Error Unit :=
  let fault := if requireAny && mappings.isEmpty then some .noMappings else firstFault [] mappings
  match fault with
  | none => .ok ()
  | some why => .error (.validation bridge why)

end BridgeOperator.PortMapping
