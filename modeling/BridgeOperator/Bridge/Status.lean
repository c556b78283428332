import BridgeOperator.Condition

/-!
The lifecycle of a bridge and the status it is recorded in.
-/

namespace BridgeOperator

open Readable

inductive BridgeState where
  | requested
  | installing
  | installed
  | active
  | error
  | removed
  deriving DecidableEq, Repr

namespace BridgeState

def text : BridgeState → String
  | requested => "REQUESTED"
  | installing => "INSTALLING"
  | installed => "INSTALLED"
  | active => "ACTIVE"
  | error => "ERROR"
  | removed => "REMOVED"

def all : List BridgeState := [requested, installing, installed, active, error, removed]

def ofText? (s : String) : Option BridgeState := all.find? (fun st => st.text = s)

/-- A bridge in this state has claimed its target container. -/
def holdsTarget : BridgeState → Bool
  | installing | installed | active => true
  | _ => false

/-- The lifecycle does not leave this state on its own. -/
def isTerminal : BridgeState → Bool
  | error | removed => true
  | _ => false

end BridgeState

structure BridgeStatus where
  state : BridgeState
  stateTransitions : SortedMap Instant
  message : Option String
  conditions : List Condition
  observedGeneration : Option Int64
  /-- The canonical text of the spec the status was computed from. -/
  lastAppliedSpec : Option String
  deriving DecidableEq

namespace BridgeStatus

def initial : BridgeStatus := ⟨.requested, ∅, none, [], none, none⟩

variable {ν : Type} [Readable ν]

def fieldNames : List String :=
  ["state", "stateTransitions", "message", "conditions", "observedGeneration", "lastAppliedSpec"]

def read (v : ν) : Option BridgeStatus := do
  let f ← record? fieldNames v
  some {
    state := ← withDefault f "state" .requested fun s => (variant? s).bind BridgeState.ofText?
    stateTransitions := ← withDefault f "stateTransitions" ∅ (map? Instant.read)
    message := ← optional f "message" text?
    conditions := ← withDefault f "conditions" [] (list? Condition.read)
    observedGeneration := ← optional f "observedGeneration" int64?
    lastAppliedSpec := ← optional f "lastAppliedSpec" text? }

def toJson (s : BridgeStatus) : Json := Json.objOf [
  ("state", some (.str s.state.text)),
  ("stateTransitions",
    if s.stateTransitions.isEmpty then none else some (Instant.mapToJson s.stateTransitions)),
  ("message", s.message.map .str),
  ("conditions",
    if s.conditions.isEmpty then none else some (.arr (s.conditions.map Condition.toJson))),
  ("observedGeneration", s.observedGeneration.map fun n => .int n.toInt),
  ("lastAppliedSpec", s.lastAppliedSpec.map .str)]

/-- The status of a bridge entering `state` at `now`; the first time of a state is kept. -/
def transition (s : BridgeStatus) (state : BridgeState) (message : Option String) (now : Instant) :
    BridgeStatus :=
  { s with
    state
    message
    stateTransitions :=
      if s.stateTransitions.contains state.text then s.stateTransitions
      else s.stateTransitions.insert state.text now }

/-- An install may have left something behind: the target is held, or once was to be. -/
def everInstalled (s : BridgeStatus) : Bool :=
  s.state.holdsTarget || s.stateTransitions.contains BridgeState.installing.text

def readyCondition : String := "Ready"

/-- Replace the Ready condition; its transition time moves only when its status does. -/
def withReady (s : BridgeStatus) (state : BridgeState) (message : String) (now : Instant) :
    BridgeStatus :=
  let status : ConditionStatus := if state = .active then .true else .false
  let since := match s.conditions.find? (fun c => c.kind = readyCondition && c.status = status) with
    | some c => c.lastTransitionTime
    | none => now
  { s with
    conditions := s.conditions.filter (fun c => c.kind ≠ readyCondition)
      ++ [⟨readyCondition, status, state.text, message, since⟩] }

end BridgeStatus
end BridgeOperator
