import BridgeOperator.Error

/-!
Faults of a cluster in memory: calls that fail, or that take their time.
-/

namespace BridgeOperator.Cluster

/-- The calls that can be disturbed. -/
inductive Point where
  | patchStatus
  | listBridges
  | addFinalizer
  | removeFinalizer
  | getPod
  | listPods
  | getDeployment
  | getStatefulSet
  | getService
  | applyDeployment
  | applyStatefulSet
  | applyService
  | deleteDeployment
  | deleteStatefulSet
  | deleteService
  | readConfig
  | applyConfig
  | processAlive
  | deleteClient
  | getSecret
  | createSecret
  | deleteSecret
  | deleteBridgesOf
  deriving DecidableEq, Repr

namespace Point

def text : Point → String
  | .patchStatus => "patch_status"
  | .listBridges => "list_bridges"
  | .addFinalizer => "add_finalizer"
  | .removeFinalizer => "remove_finalizer"
  | .getPod => "get_pod"
  | .listPods => "list_pods"
  | .getDeployment => "get_deployment"
  | .getStatefulSet => "get_stateful_set"
  | .getService => "get_service"
  | .applyDeployment => "apply_deployment"
  | .applyStatefulSet => "apply_stateful_set"
  | .applyService => "apply_service"
  | .deleteDeployment => "delete_deployment"
  | .deleteStatefulSet => "delete_stateful_set"
  | .deleteService => "delete_service"
  | .readConfig => "read_config"
  | .applyConfig => "apply_config"
  | .processAlive => "process_alive"
  | .deleteClient => "delete_client"
  | .getSecret => "get_secret"
  | .createSecret => "create_secret"
  | .deleteSecret => "delete_secret"
  | .deleteBridgesOf => "delete_bridges_for_client"

def all : List Point :=
  [.patchStatus, .listBridges, .addFinalizer, .removeFinalizer, .getPod, .listPods,
    .getDeployment, .getStatefulSet, .getService, .applyDeployment, .applyStatefulSet,
    .applyService, .deleteDeployment, .deleteStatefulSet, .deleteService, .readConfig,
    .applyConfig, .processAlive, .deleteClient, .getSecret, .createSecret, .deleteSecret,
    .deleteBridgesOf]

def ofText? (s : String) : Option Point := all.find? (fun p => p.text = s)

end Point

/-- A call fails after `skip` undisturbed ones, at most `times` times. -/
structure Fault where
  point : Point
  error : Option Error
  skip : Nat
  times : Option Nat
  /-- How long the call takes. -/
  delay : Nat

/-- What a fault does to one call. -/
structure Disturbance where
  delay : Nat
  error : Option Error

namespace Fault

def usedUp (f : Fault) : Bool := f.times = some 0

/-- The first fault for a call that does not skip it. -/
def next (p : Point) : List Fault → Option Disturbance × List Fault
  | [] => (none, [])
  | f :: rest =>
    if f.point ≠ p || f.usedUp then
      let (d, rest) := next p rest
      (d, f :: rest)
    else if 0 < f.skip then
      let (d, rest) := next p rest
      (d, { f with skip := f.skip - 1 } :: rest)
    else (some ⟨f.delay, f.error⟩, { f with times := f.times.map (· - 1) } :: rest)

end Fault

/-- An answer of a provider outside the library: how long it takes, and what it is. -/
structure ScriptedAnswer where
  delay : Nat
  result : Except Error Bool

/-- Successive answers to a step; the last one repeats, and without any the step succeeds. -/
abbrev Script : Type := List ScriptedAnswer

def Script.next : Script → ScriptedAnswer × Script
  | [] => (⟨0, .ok true⟩, [])
  | [a] => (a, [a])
  | a :: rest => (a, rest)

end BridgeOperator.Cluster
