import BridgeOperator.Condition
import BridgeOperator.Kube.Event

/-!
Clients: the authorization of one developer machine, how long it lasts and what state it is in.
-/

namespace BridgeOperator

open Readable
open Kube (Metadata)

inductive ClientState where
  | active
  | waiting
  | expired
  deriving DecidableEq, Repr

namespace ClientState

def text : ClientState → String
  | active => "ACTIVE"
  | waiting => "WAITING"
  | expired => "EXPIRED"

def all : List ClientState := [active, waiting, expired]

def ofText? (s : String) : Option ClientState := all.find? (fun st => st.text = s)

end ClientState

structure ClientSpec where
  provider : String
  sunset : Option String
  providerConfig : Option (SortedMap String)
  deriving DecidableEq

structure ClientStatus where
  state : ClientState
  stateTransitions : SortedMap Instant
  message : Option String
  secretName : Option String
  /-- The fingerprint of the config the secret was made from. -/
  secretSource : Option String
  deriving DecidableEq

structure Client where
  metadata : Metadata
  spec : ClientSpec
  status : Option ClientStatus

namespace ClientSpec

variable {ν : Type} [Readable ν]

def defaultProvider : String := "stowaway"

def read (v : ν) : Option ClientSpec := do
  let f ← record? ["provider", "sunset", "providerConfig"] v
  some {
    provider := ← withDefault f "provider" defaultProvider text?
    sunset := ← optional f "sunset" text?
    providerConfig := ← optional f "providerConfig" (map? text?) }

def toJson (s : ClientSpec) : Json := Json.objOf [
  ("provider", some (.str s.provider)),
  ("sunset", s.sunset.map .str),
  ("providerConfig", s.providerConfig.map Json.ofStringMap)]

end ClientSpec

namespace ClientStatus

variable {ν : Type} [Readable ν]

def initial : ClientStatus := ⟨.active, ∅, none, none, none⟩

def read (v : ν) : Option ClientStatus := do
  let f ← record? ["state", "stateTransitions", "message", "secretName", "secretSource"] v
  some {
    state := ← withDefault f "state" .active fun s => (variant? s).bind ClientState.ofText?
    stateTransitions := ← withDefault f "stateTransitions" ∅ (map? Instant.read)
    message := ← optional f "message" text?
    secretName := ← optional f "secretName" text?
    secretSource := ← optional f "secretSource" text? }

def toJson (s : ClientStatus) : Json := Json.objOf [
  ("state", some (.str s.state.text)),
  ("stateTransitions",
    if s.stateTransitions.isEmpty then none else some (Instant.mapToJson s.stateTransitions)),
  ("message", s.message.map .str),
  ("secretName", s.secretName.map .str),
  ("secretSource", s.secretSource.map .str)]

/-- The status of a client entering `state` at `now`; the first time of a state is kept. -/
def transition (s : ClientStatus) (state : ClientState) (message : Option String) (now : Instant) :
    ClientStatus :=
  { s with
    state
    message
    stateTransitions :=
      if s.stateTransitions.contains state.text then s.stateTransitions
      else s.stateTransitions.insert state.text now }

end ClientStatus

namespace Client

def apiVersion : String := "gefyra.dev/v1"
def kind : String := "GefyraClient"
def plural : String := "gefyraclients"

/-- The finalizer that keeps a client until its bridges have been deleted. -/
def finalizer : String := "gefyra.dev/client-cleanup"

def ofJson? (j : Json) : Option Client := do
  let f ← Kube.customParts? j
  some {
    metadata := ← required f "metadata" Metadata.ofJson?
    spec := ← required f "spec" ClientSpec.read
    status := ← optional f "status" ClientStatus.read }

def toJson (c : Client) : Json := Kube.typedObj apiVersion kind [
  ("metadata", some c.metadata.toJson),
  ("spec", some c.spec.toJson),
  ("status", c.status.map ClientStatus.toJson)]

def name (c : Client) : String := c.metadata.anyName

/-- The state, once a pass has given it one. -/
def state (c : Client) : Option ClientState := c.status.map (·.state)

def reference (c : Client) : Kube.ObjectReference := .ofMetadata apiVersion kind c.metadata

/-- A reference by which the client owns another object; it needs a name and a uid. -/
def owner (c : Client) : Option Kube.OwnerReference := do
  some {
    apiVersion
    kind
    name := ← c.metadata.name
    uid := ← c.metadata.uid
    controller := some true
    blockOwnerDeletion := none }

end Client
end BridgeOperator
