import BridgeOperator.Readable
import BridgeOperator.Time.Parser
import BridgeOperator.Time.Printer

/-!
Status conditions, and the readers and writers for the times a status holds.
-/

namespace BridgeOperator

open Readable

variable {ν : Type} [Readable ν]

namespace Instant

def read (v : ν) : Option Instant := (text? v).bind parse?

def toJson (t : Instant) : Json := .str t.render

/-- The first time each state was entered, by the name of the state. -/
def mapToJson (m : SortedMap Instant) : Json := .obj (m.mapValues toJson).toList

end Instant

inductive ConditionStatus where
  | true
  | false
  | unknown
  deriving DecidableEq, Repr

namespace ConditionStatus

def text : ConditionStatus → String
  | .true => "True"
  | .false => "False"
  | .unknown => "Unknown"

def ofText? (s : String) : Option ConditionStatus :=
  if s = "True" then some .true
  else if s = "False" then some .false
  else if s = "Unknown" then some .unknown
  else none

def read (v : ν) : Option ConditionStatus := (variant? v).bind ofText?

end ConditionStatus

structure Condition where
  kind : String
  status : ConditionStatus
  reason : String
  message : String
  lastTransitionTime : Instant
  deriving DecidableEq, Repr

namespace Condition

def read (v : ν) : Option Condition := do
  let f ← record? ["type", "status", "reason", "message", "lastTransitionTime"] v
  some {
    kind := ← required f "type" text?
    status := ← required f "status" ConditionStatus.read
    reason := ← required f "reason" text?
    message := ← required f "message" text?
    lastTransitionTime := ← required f "lastTransitionTime" Instant.read }

def toJson (c : Condition) : Json := .obj [
  ("type", .str c.kind),
  ("status", .str c.status.text),
  ("reason", .str c.reason),
  ("message", .str c.message),
  ("lastTransitionTime", c.lastTransitionTime.toJson)]

end Condition
end BridgeOperator
