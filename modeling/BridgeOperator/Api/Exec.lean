import BridgeOperator.Api.Resource
import BridgeOperator.Carrier.Script
import BridgeOperator.Provider.Basic
import BridgeOperator.Text.WhiteSpace

/-!
Commands run in a container, and the control of sidecars by them.
-/

namespace BridgeOperator.Api

/-- A stream that ends before a status says how the command ended. -/
def brokenStream : String := "failed to receive a WebSocket message: IO error: broken pipe"

/-- Run a command and collect its streams. -/
def exec (id : ContainerId) (command : List String) : ApiWork Execution := do
  let path ← pods.path id.namespaceName id.pod
  let query := command.map (("command", ·))
    ++ [("container", id.container), ("stderr", "true"), ("stdout", "true")]
  match ← Attempt.always (.perform (ApiCall.send ⟨.get, s!"{path}/exec", query, none, none⟩)) with
  | .streams e =>
    if e.status.isNone then throw (.exec id.pod (.reported brokenStream)) else return e
  | .text status _ => throw (.kube (if status = 101 then .noUpgradeHeader else .notUpgraded status))
  | .none => throw (.kube .noAnswer)

/-- Only this status means that a command succeeded. -/
def Execution.succeeded (e : Execution) : Bool := e.status = some "Success"

/-- The configuration of a sidecar; a blank one counts as none. -/
def readConfig (id : ContainerId) : ApiWork (Option String) := do
  let e ← exec id (Carrier.shell Carrier.readScript)
  if (Text.trim e.stdout.toList).isEmpty then return none else return some e.stdout

def mentions (text part : String) : Bool := 1 < (text.splitOn part).length

/-- Write the configuration of a sidecar and reload it. -/
def applyConfig (id : ContainerId) (document logLevel : String) : ApiWork Unit := do
  let e ← exec id (Carrier.shell (Carrier.applyScript document logLevel))
  if mentions e.stdout Carrier.panicMarker || mentions e.stderr Carrier.panicMarker then
    throw (.exec id.pod (.sidecarPanicked Carrier.logPath))

def processAlive (id : ContainerId) : ApiWork Bool := do
  return (← exec id (Carrier.shell Carrier.livenessScript)).succeeded

end BridgeOperator.Api
