/-!
The labels the operator puts on the objects it makes.
-/

namespace BridgeOperator.Label

def managedBy : String := "app.kubernetes.io/managed-by"

/-- The value of `managedBy`. -/
def operator : String := "gefyra"

def client : String := "gefyra.dev/client"

def bridge : String := "gefyra.dev/bridge"

/-- The pods of one clone share a value of this label. -/
def duplicationId : String := "bridge.gefyra.dev/duplication-id"

end BridgeOperator.Label
