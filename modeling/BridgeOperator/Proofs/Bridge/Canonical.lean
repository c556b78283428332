import BridgeOperator.Bridge.Basic
import BridgeOperator.Proofs.Routing

/-!
The canonical text of a spec is a faithful record: read back it is the spec it was written from.
-/

namespace BridgeOperator

open Json (Plain)
open Readable

namespace BridgeSpec

theorem read_toJson {ν : Type} [Readable ν] {enc : Json → ν} (hm : Mirrors enc) (s : BridgeSpec) :
    read (enc s.toJson) = some s := by
  refine hm.record_objOf (by simp [fieldNames]) (by simp) fun f hf => ?_
  simp only [List.forall_mem_cons] at hf
  obtain ⟨hprovider, hnamespace, htarget, hcontainer, hparameter, hclient, -⟩ := hf
  have client := hm.optional_eq hclient hm.text fun s _ => (Plain.str s : Plain 0 _)
  simp [required_eq hprovider (hm.text _), required_eq hnamespace (hm.text _),
    required_eq htarget (hm.text _), required_eq hcontainer (hm.text _),
    withDefault_eq hparameter (ProviderParameter.read_toJson hm _), client]

theorem plain_toJson (s : BridgeSpec) (depth : Nat) : Plain (depth + 7) s.toJson := by
  refine Json.plain_objOf fun k j hj => ?_
  simp only [List.mem_cons, List.not_mem_nil, Prod.mk.injEq, or_false] at hj
  rcases hj with ⟨-, hj⟩ | ⟨-, hj⟩ | ⟨-, hj⟩ | ⟨-, hj⟩ | ⟨-, hj⟩ | ⟨-, hj⟩
  · cases hj
    exact .str _
  · cases hj
    exact .str _
  · cases hj
    exact .str _
  · cases hj
    exact .str _
  · cases hj
    exact s.providerParameter.plain_toJson depth
  · obtain ⟨t, -, rfl⟩ := Option.map_eq_some_iff.mp hj.symm
    exact .str t

theorem read_canonical (s : BridgeSpec) : (Json.parse? s.canonical).bind read = some s := by
  have hparse : Json.parse? s.canonical = some s.toJson :=
    Plain.parse_render (s.plain_toJson (Json.maxDepth - 7))
  rw [hparse, Option.bind_some]
  exact read_toJson mirrors_json s

/-- Different specs have different texts. -/
theorem canonical_injective {s t : BridgeSpec} (h : s.canonical = t.canonical) : s = t := by
  have hs := s.read_canonical
  rw [h, read_canonical] at hs
  exact (Option.some.inj hs).symm

theorem canonical_inj {s t : BridgeSpec} : s.canonical = t.canonical ↔ s = t :=
  ⟨canonical_injective, congrArg canonical⟩

end BridgeSpec

namespace Bridge

variable {b : Bridge} {spec : BridgeSpec}

/-- The status of the bridge bears the record of a spec. -/
def Records (b : Bridge) (spec : BridgeSpec) : Prop :=
  b.statusOrInitial.lastAppliedSpec = some spec.canonical

theorem Records.found (h : b.Records spec) :
    b.status.bind (·.lastAppliedSpec) = some spec.canonical := by
  unfold Records statusOrInitial at h
  cases hb : b.status with
  | none =>
    rw [hb] at h
    cases h
  | some s =>
    rw [hb] at h
    exact h

/-- A bridge whose record is the text of a spec is applied with that spec. -/
theorem applied_eq (h : b.Records spec) : b.applied = { b with spec } := by
  unfold applied
  rw [h.found, Option.bind_some, BridgeSpec.read_canonical]

theorem specChanged_iff (h : b.Records spec) : b.specChanged = true ↔ b.spec ≠ spec := by
  unfold specChanged
  rw [h.found]
  dsimp only
  rw [decide_eq_true_iff]
  exact BridgeSpec.canonical_inj.not

end Bridge

/-- **The canonical text is a faithful record.** Read back it is the spec it was written from, so
that no two specs share a text, a bridge counts as changed exactly if its spec is another than the
recorded one, and it is taken down by the recorded one. -/
theorem canonical_faithful :
    (∀ s : BridgeSpec, (Json.parse? s.canonical).bind BridgeSpec.read = some s) ∧
    (∀ s t : BridgeSpec, s.canonical = t.canonical ↔ s = t) ∧
    ∀ (b : Bridge) (validated : BridgeSpec), b.Records validated →
      (b.specChanged = true ↔ b.spec ≠ validated) ∧ b.applied = { b with spec := validated } := by
  refine ⟨BridgeSpec.read_canonical, fun _ _ => BridgeSpec.canonical_inj, ?_⟩
  intro b validated hrecords
  exact ⟨Bridge.specChanged_iff hrecords, Bridge.applied_eq hrecords⟩

namespace Sample

/-- A spec with every kind of field, and texts that have to be escaped. -/
def routed : BridgeSpec where
  provider := "carrier2"
  targetNamespace := "default"
  target := "deploy/shop"
  targetContainer := "app"
  providerParameter := {
    portMappings := [⟨80, 65535⟩]
    destination := some "tab\tand \"quote\""
    rules := [⟨[⟨some ⟨"x-user", "Zoë", .regex⟩, some ⟨"/a\\b", .leading⟩⟩, ⟨none, none⟩]⟩, ⟨[]⟩]
    tls := some ⟨"cert\n", "\x00", none⟩ }
  client := none

/-- A bridge whose spec has been edited since. -/
def rerouted : Bridge where
  metadata := .empty
  spec := { routed with client := some "" }
  status := some { BridgeStatus.initial with lastAppliedSpec := some routed.canonical }

end Sample

open Sample in
theorem canonical_faithful_rerouted :
    (Json.parse? routed.canonical).bind BridgeSpec.read = some routed ∧
    rerouted.spec.canonical ≠ routed.canonical ∧
    rerouted.Records routed ∧ rerouted.specChanged = true ∧
    rerouted.applied = { rerouted with spec := routed } := by
  obtain ⟨hread, hsame, hrecord⟩ := canonical_faithful
  have hne : rerouted.spec ≠ routed := by decide
  have hrecords : rerouted.Records routed := rfl
  obtain ⟨hchanged, happlied⟩ := hrecord rerouted routed hrecords
  exact ⟨hread routed, (hsame _ _).not.mpr hne, hrecords, hchanged.mpr hne, happlied⟩

end BridgeOperator
