import BridgeOperator.Duration

/-!
The settings of the operator.
-/

namespace BridgeOperator

structure OperatorConfig where
  /-- The namespace of bridges, clients and connection secrets. -/
  namespaceName : String
  carrierImage : String
  carrierImageTag : String
  carrierDebug : Bool
  bridgeInterval : Nat
  clientInterval : Nat
  /-- How long a client waits after its sunset before it is deleted. -/
  clientGrace : Nat
  readinessTimeout : Nat
  readinessPoll : Nat
  deriving DecidableEq, Repr

namespace OperatorConfig

def default : OperatorConfig where
  namespaceName := "gefyra"
  carrierImage := "quay.io/gefyra/carrier2"
  carrierImageTag := "latest"
  carrierDebug := false
  bridgeInterval := Duration.seconds 10
  clientInterval := Duration.seconds 10
  clientGrace := Duration.seconds 30
  readinessTimeout := Duration.seconds 30
  readinessPoll := Duration.seconds 1

def carrierImageRef (c : OperatorConfig) : String := s!"{c.carrierImage}:{c.carrierImageTag}"

def carrierLogLevel (c : OperatorConfig) : String := if c.carrierDebug then "debug" else "info"

end OperatorConfig
end BridgeOperator
