import BridgeOperator.Proofs.Status.Bridges
import BridgeOperator.Proofs.Status.Clients
import BridgeOperator.Provider.Standard

/-!
What is stored is what was computed, but for the fields that have been cleared: the encoding of a
status leaves them out, and a merge patch keeps what it does not name.
-/

namespace BridgeOperator

open Json (Distinct)
open Readable

/-- Something that is set in the former status is not set in the new one. -/
def BridgeStatus.Clears (s' s : BridgeStatus) : Prop :=
  s'.message = none ∧ s.message ≠ none ∨
    s'.observedGeneration = none ∧ s.observedGeneration ≠ none ∨
    s'.lastAppliedSpec = none ∧ s.lastAppliedSpec ≠ none

/-- Something that is set in the former status is not set in the new one. -/
def ClientStatus.Clears (s' s : ClientStatus) : Prop :=
  s'.message = none ∧ s.message ≠ none ∨ s'.secretName = none ∧ s.secretName ≠ none ∨
    s'.secretSource = none ∧ s.secretSource ≠ none

theorem BridgeStatus.onto_eq_iff_not_clears {s' s : BridgeStatus} :
    s'.onto s = s' ↔ ¬ s'.Clears s := by
  rw [onto_eq_iff, Clears]
  tauto

theorem ClientStatus.onto_eq_iff_not_clears {s' s : ClientStatus} :
    s'.onto s = s' ↔ ¬ s'.Clears s := by
  rw [onto_eq_iff, Clears]
  tauto

/-- In the course of a pass over an object that has come about, the status `s` is to be written to
the object as it is by then. -/
def StoredBridge.Written (s : BridgeStatus) (fields : List (String × Json)) : Prop :=
  ∃ found x ctx ns name next, Reachable Bridge.ofJson? Pass found ∧
    Bridge.ofJson? (.obj found) = some x ∧
    (x.reconcile ctx).run.Steps Serves found (.call (.patchStatus ns name s) next) fields

/-- In the course of a pass over an object that has come about, the status `s` is to be written to
the object as it is by then. -/
def StoredClient.Written (s : ClientStatus) (fields : List (String × Json)) : Prop :=
  ∃ found x config ns name next, Reachable Client.ofJson? Pass found ∧
    Client.ofJson? (.obj found) = some x ∧
    (x.reconcile config).run.Steps Serves found (.call (.patchStatus ns name s) next) fields

/-- The patched object holds the computed status over the former one, and that is the computed
status unless it has cleared something. -/
theorem stored_iff_not_cleared (fields : List (String × Json)) :
    (∀ s : BridgeStatus, StoredBridge.Written s fields →
      ∃ x y, Bridge.ofJson? (.obj fields) = some x ∧
        Bridge.ofJson? (Json.mergePatch (.obj [("status", s.toJson)]) (.obj fields)) = some y ∧
        y = { x with status := some (s.onto x.statusOrInitial) } ∧
        (y.status = some s ↔ ¬ s.Clears x.statusOrInitial)) ∧
    (∀ s : ClientStatus, StoredClient.Written s fields →
      ∃ x y, Client.ofJson? (.obj fields) = some x ∧
        Client.ofJson? (Json.mergePatch (.obj [("status", s.toJson)]) (.obj fields)) = some y ∧
        y = { x with status := some (s.onto (x.status.getD .initial)) } ∧
        (y.status = some s ↔ ¬ s.Clears (x.status.getD .initial))) := by
  constructor
  · rintro s ⟨found, x, ctx, ns, name, next, hreach, hread, hsteps⟩
    obtain ⟨y, hy, hpatched⟩ := StoredBridge.ofJson?_written hreach hread hsteps
    refine ⟨y, _, hy, hpatched, rfl, ?_⟩
    rw [Option.some.injEq]
    exact BridgeStatus.onto_eq_iff_not_clears
  · rintro s ⟨found, x, config, ns, name, next, hreach, hread, hsteps⟩
    obtain ⟨y, hy, hpatched⟩ := StoredClient.ofJson?_written hreach hread hsteps
    refine ⟨y, _, hy, hpatched, rfl, ?_⟩
    rw [Option.some.injEq]
    exact ClientStatus.onto_eq_iff_not_clears

namespace Sample

/-- The beginning of 2026. -/
def newYear : Instant := ⟨1767225600, 0⟩

theorem valid_newYear : newYear.Valid := ⟨by decide, by decide, by decide, by decide⟩

/-- The metadata of an object that is claimed already. -/
def finalizedJson (name finalizer : String) : Json := .obj [
  ("name", .str name),
  ("namespace", .str "gefyra"),
  ("finalizers", .arr [.str finalizer])]

def finalized (name finalizer : String) : Kube.Metadata :=
  { Kube.Metadata.empty with
    name := some name
    namespaceName := some "gefyra"
    finalizers := some [finalizer] }

/-- A bridge by a provider that does not exist. -/
def stray : Bridge where
  metadata := finalized "stray" Bridge.finalizer
  spec := ⟨"none", "default", "deploy/shop", "app", .empty, none⟩
  status := none

def strayFields : List (String × Json) := [
  ("metadata", finalizedJson "stray" Bridge.finalizer),
  ("spec", .obj [
    ("provider", .str "none"),
    ("targetNamespace", .str "default"),
    ("target", .str "deploy/shop"),
    ("targetContainer", .str "app")])]

theorem read_stray : Bridge.ofJson? (.obj strayFields) = some stray := rfl

theorem distinct_stray : Distinct strayFields := by
  simp [Distinct, strayFields]

/-- The first pass over the bridge rejects it. -/
theorem written_stray : ∃ s, StoredBridge.Written s strayFields := by
  have hserve : StoredBridge.Serves .now strayFields newYear strayFields :=
    ⟨valid_newYear, distinct_stray, rfl, stray, read_stray⟩
  have hsteps : (stray.reconcile ⟨.default, Registry.standard⟩).run.Steps StoredBridge.Serves
      strayFields _ strayFields := .next rfl hserve (.refl _ _)
  exact ⟨_, strayFields, stray, _, _, _, _, .made distinct_stray rfl read_stray, read_stray, hsteps⟩

/-- A client that is to be given a secret. -/
def bob : Client where
  metadata := finalized "bob" Client.finalizer
  spec := ⟨ClientSpec.defaultProvider, none, some (SortedMap.ofList [("key", "value")])⟩
  status := none

def bobFields : List (String × Json) := [
  ("metadata", finalizedJson "bob" Client.finalizer),
  ("spec", .obj [("providerConfig", .obj [("key", .str "value")])])]

theorem read_bob : Client.ofJson? (.obj bobFields) = some bob := rfl

theorem distinct_bob : Distinct bobFields := by
  simp [Distinct, bobFields]

/-- The status of the client after its first pass. -/
def provided : ClientStatus :=
  { ClientStatus.initial.transition .active (some "client active") newYear with
    secretName := some "gefyra-connection-bob"
    secretSource := some (configFingerprint (SortedMap.ofList [("key", "value")])) }

/-- The first pass over the client makes the secret and then stores that it has. -/
theorem steps_bob : ∃ next, (bob.reconcile .default).run.Steps StoredClient.Serves bobFields
    (.call (.patchStatus "gefyra" "bob" provided) next) bobFields := by
  have hsame : Untouched Client.ofJson? bobFields bobFields := ⟨distinct_bob, rfl, bob, read_bob⟩
  have hnow : StoredClient.Serves .now bobFields newYear bobFields := ⟨valid_newYear, hsame⟩
  have hsteps : (bob.reconcile .default).run.Steps StoredClient.Serves bobFields _ bobFields :=
    .next rfl hnow (.next rfl (r := .ok none) hsame (.next rfl (r := .ok ()) hsame
      (.next rfl (r := ()) hsame (.refl _ _))))
  exact ⟨_, hsteps⟩

theorem reachable_bob : Reachable Client.ofJson? StoredClient.Pass bobFields :=
  .made distinct_bob rfl read_bob

theorem written_bob : ∃ s, StoredClient.Written s bobFields := by
  obtain ⟨next, hsteps⟩ := steps_bob
  exact ⟨provided, bobFields, bob, .default, _, _, next, reachable_bob, read_bob, hsteps⟩

end Sample

open Sample in
theorem stored_iff_not_cleared_sample :
    (∃ s x y, StoredBridge.Written s strayFields ∧
      Bridge.ofJson? (.obj strayFields) = some x ∧
      Bridge.ofJson? (Json.mergePatch (.obj [("status", s.toJson)]) (.obj strayFields)) = some y ∧
      y = { x with status := some (s.onto x.statusOrInitial) } ∧
      (y.status = some s ↔ ¬ s.Clears x.statusOrInitial)) ∧
    (∃ s x y, StoredClient.Written s bobFields ∧
      Client.ofJson? (.obj bobFields) = some x ∧
      Client.ofJson? (Json.mergePatch (.obj [("status", s.toJson)]) (.obj bobFields)) = some y ∧
      y = { x with status := some (s.onto (x.status.getD .initial)) } ∧
      (y.status = some s ↔ ¬ s.Clears (x.status.getD .initial))) := by
  obtain ⟨s, hs⟩ := written_stray
  obtain ⟨s', hs'⟩ := written_bob
  obtain ⟨x, y, h⟩ := (stored_iff_not_cleared strayFields).1 s hs
  obtain ⟨x', y', h'⟩ := (stored_iff_not_cleared bobFields).2 s' hs'
  exact ⟨⟨s, x, y, hs, h⟩, ⟨s', x', y', hs', h'⟩⟩

namespace Sample

/-- The object once the status of the first pass is stored. -/
def providedFields : List (String × Json) := patchedFields provided.changes bobFields

theorem read_provided :
    Client.ofJson? (.obj providedFields) = some { bob with status := some provided } := by
  have hvalid : ValidTimes provided.stateTransitions := by
    intro e he
    obtain rfl := List.mem_singleton.mp he
    exact valid_newYear
  have hholds : StoredClient.Holds bobFields bob := ⟨⟨distinct_bob, fun _ => nofun⟩, read_bob⟩
  exact (hholds.patched (fun _ => nofun) hvalid).read

theorem reachable_provided : Reachable Client.ofJson? StoredClient.Pass providedFields := by
  obtain ⟨next, hsteps⟩ := steps_bob
  have hserve : StoredClient.Serves (.patchStatus "gefyra" "bob" provided) bobFields (.ok ())
      providedFields :=
    Api.exec_patchStatus "\x7b\"metadata\":\x7b\x7d,\"spec\":\x7b\x7d\x7d" rfl rfl
  exact .passed reachable_bob read_bob
    ⟨.default, _, hsteps.trans (.call hserve (.refl _ _))⟩

/-- The object once the config has been taken out of it. -/
def strippedFields : List (String × Json) := [
  ("metadata", finalizedJson "bob" Client.finalizer),
  ("spec", .obj []),
  ("status", (lookup providedFields "status").getD .null)]

/-- The client as it is read then. -/
def stripped : Client :=
  { bob with
    spec := ⟨ClientSpec.defaultProvider, none, none⟩
    status := some provided }

theorem distinct_stripped : Distinct strippedFields := by
  simp [Distinct, strippedFields]

theorem status_stripped : lookup strippedFields "status" = lookup providedFields "status" := by
  rw [providedFields, lookup_patchedFields_status]
  rfl

theorem read_stripped : Client.ofJson? (.obj strippedFields) = some stripped := by
  have hdistinct : Distinct providedFields := distinct_bob.mergeFields
  have hstatus := ((Client.ofJson?_iff hdistinct).mp read_provided).2.2
  exact (Client.ofJson?_iff distinct_stripped).mpr
    ⟨rfl, rfl, (optional_congr status_stripped _).trans hstatus⟩

theorem reachable_stripped : Reachable Client.ofJson? StoredClient.Pass strippedFields :=
  .changed reachable_provided ⟨distinct_stripped, status_stripped, stripped, read_stripped⟩

/-- The next pass deletes the secret, and is to store that there is none. -/
theorem written_stripped :
    StoredClient.Written { provided with secretName := none, secretSource := none }
      strippedFields := by
  have hsame : Untouched Client.ofJson? strippedFields strippedFields :=
    ⟨distinct_stripped, rfl, stripped, read_stripped⟩
  have hsteps : (stripped.reconcile .default).run.Steps StoredClient.Serves strippedFields _
      strippedFields := .next rfl (r := .ok true) hsame (.refl _ _)
  exact ⟨strippedFields, stripped, .default, _, _, _, reachable_stripped, read_stripped, hsteps⟩

end Sample

open Sample in
/-- The secret is gone and its name is still stored. -/
theorem not_stored_as_written :
    ¬ ((∀ (s : BridgeStatus) (fields : List (String × Json)), StoredBridge.Written s fields →
        ∃ y, Bridge.ofJson? (Json.mergePatch (.obj [("status", s.toJson)]) (.obj fields)) =
          some y ∧ y.status = some s) ∧
      (∀ (s : ClientStatus) (fields : List (String × Json)), StoredClient.Written s fields →
        ∃ y, Client.ofJson? (Json.mergePatch (.obj [("status", s.toJson)]) (.obj fields)) =
          some y ∧ y.status = some s)) := by
  rintro ⟨-, h⟩
  obtain ⟨y, hy, hstatus⟩ := h _ _ written_stripped
  obtain ⟨found, x, config, ns, name, next, hreach, hread, hsteps⟩ := written_stripped
  obtain ⟨x', hx', hpatched⟩ := StoredClient.ofJson?_written hreach hread hsteps
  obtain rfl : y = _ := Option.some.inj (hy.symm.trans hpatched)
  obtain rfl : stripped = x' := Option.some.inj (read_stripped.symm.trans hx')
  have hname := congrArg (·.secretName) (Option.some.inj hstatus)
  cases hname

end BridgeOperator
