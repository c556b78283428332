import BridgeOperator.Proofs.Provider.Ownership
import Mathlib.Data.List.Forall2

/-!
References to workloads. A reference may be spelled in several ways (`WorkloadRef.Reads`), but it is
printed in one, so that two bridges target the same workload exactly if their targets print alike
(`WorkloadRef.references_canonical`).
-/

namespace BridgeOperator

namespace WorkloadKind

/-- The names that references have for a kind. -/
def aliases : WorkloadKind → List String
  | .deployment => ["deployment", "deploy", "deployments"]
  | .statefulSet => ["statefulset", "sts", "statefulsets"]
  | .pod => ["pod", "po", "pods"]

/-- The text is an alias of the kind, each letter of it small or capital. -/
def Spells (k : WorkloadKind) (s : String) : Prop :=
  ∃ name ∈ k.aliases, List.Forall₂ (fun c d => c = d ∨ c = d.toUpper) s.toList name.toList

variable {k : WorkloadKind} {s : String}

/-- What becomes a small letter is that letter or its capital. -/
theorem toLower_eq_iff {c d : Char} (hd : d.isLower = true) :
    c.toLower = d ↔ c = d ∨ c = d.toUpper := by
  change (decide (d.val ≥ 'a'.val) && decide (d.val ≤ 'z'.val)) = true at hd
  simp only [Bool.and_eq_true, decide_eq_true_eq, ge_iff_le, UInt32.le_iff_toNat_le] at hd
  have hsmall : 97 ≤ d.val.toNat ∧ d.val.toNat ≤ 122 := hd
  have hupper : d.toUpper.val.toNat = (d.val.toNat + 4294967264) % 4294967296 := by
    unfold Char.toUpper
    rw [dif_pos (by simpa only [UInt32.le_iff_toNat_le] using hd)]
    exact UInt32.toNat_add _ _
  have hlower : c.toLower.val.toNat =
      if 65 ≤ c.val.toNat ∧ c.val.toNat ≤ 90 then (c.val.toNat + 32) % 4294967296
      else c.val.toNat := by
    unfold Char.toLower
    simp only [ge_iff_le, UInt32.le_iff_toNat_le]
    split
    · next hc => exact (UInt32.toNat_add _ _).trans (if_pos hc).symm
    · next hc => exact (if_neg hc).symm
  simp only [← Char.val_inj, ← UInt32.toNat_inj, hupper, hlower]
  split <;> omega

theorem map_toLower_eq_iff {s name : List Char} (h : ∀ d ∈ name, d.isLower = true) :
    s.map Char.toLower = name ↔ List.Forall₂ (fun c d => c = d ∨ c = d.toUpper) s name := by
  induction name generalizing s with
  | nil => simp
  | cons d name ih =>
    obtain ⟨hd, hname⟩ := List.forall_mem_cons.mp h
    cases s with
    | nil => simp
    | cons c s =>
      rw [List.map_cons, List.cons_eq_cons, List.forall₂_cons, toLower_eq_iff hd, ih hname]

/-- Aliases are written in small letters. -/
theorem isLower_of_mem_aliases {name : String} (h : name ∈ k.aliases) :
    ∀ d ∈ name.toList, d.isLower = true := by
  have hall : ∀ name ∈ k.aliases, name.toList.all Char.isLower = true := by
    cases k <;> decide
  exact List.all_eq_true.mp (hall name h)

/-- No two kinds have an alias in common. -/
theorem ofLower?_eq_some_iff : ofLower? s = some k ↔ s ∈ k.aliases := by
  constructor
  · unfold ofLower?
    intro h
    split at h
    · next hs => cases h; simpa [aliases] using hs
    · split at h
      · next hs => cases h; simpa [aliases] using hs
      · split at h
        · next hs => cases h; simpa [aliases] using hs
        · cases h
  · intro h
    have hall : ∀ name ∈ k.aliases, ofLower? name = some k := by
      cases k <;> decide
    exact hall s h

theorem parse?_eq_some_iff : parse? s = some k ↔ k.Spells s := by
  unfold parse? Spells
  rw [ofLower?_eq_some_iff]
  constructor
  · intro h
    refine ⟨_, h, (map_toLower_eq_iff (isLower_of_mem_aliases h)).mp ?_⟩
    rw [String.toList_ofList]
  · rintro ⟨name, hname, hspells⟩
    rw [(map_toLower_eq_iff (isLower_of_mem_aliases hname)).mpr hspells, String.ofList_toList]
    exact hname

/-- No slash is part of an alias. -/
theorem Spells.slash_notMem (h : k.Spells s) : '/' ∉ s.toList := by
  obtain ⟨name, hname, hspells⟩ := h
  have hlower := isLower_of_mem_aliases hname
  have hmap := (map_toLower_eq_iff hlower).mpr hspells
  intro hslash
  exact absurd (hlower '/' (hmap ▸ List.mem_map_of_mem hslash)) (by decide)

/-- The name that is printed for a kind is an alias of it. -/
theorem parse?_name (k : WorkloadKind) : parse? k.name = some k := by
  cases k <;> decide

theorem spells_name (k : WorkloadKind) : k.Spells k.name := parse?_eq_some_iff.mp (parse?_name k)

theorem name_injective {k k' : WorkloadKind} (h : k.name = k'.name) : k = k' := by
  have hparse := parse?_name k
  rw [h, parse?_name k'] at hparse
  exact (Option.some.inj hparse).symm

end WorkloadKind

namespace WorkloadRef

/-- A name is not empty and has no slash. -/
def Named (s : String) : Prop := s ≠ "" ∧ '/' ∉ s.toList

/-- How references are written. A bare name is that of a pod. -/
inductive Reads : String → WorkloadRef → Prop
  | bare {name : String} : Named name → Reads name ⟨.pod, name⟩
  | qualified {k : WorkloadKind} {kind name : String} : k.Spells kind → Named name →
    Reads (kind ++ "/" ++ name) ⟨k, name⟩

variable {s : String} {r r' : WorkloadRef}

theorem isName_iff : isName s.toList = true ↔ Named s := by
  unfold isName Named
  simp

theorem toList_qualified (kind name : String) :
    (kind ++ "/" ++ name).toList = kind.toList ++ '/' :: name.toList := by
  simp

theorem render_eq (r : WorkloadRef) : r.render = r.kind.name ++ "/" ++ r.name := by
  apply String.toList_inj.mp
  simp [render, toString]

theorem parse_eq_ok_iff : parse s = .ok r ↔ Reads s r := by
  constructor
  · unfold parse
    intro h
    split at h
    · split at h
      · next hname =>
        cases h
        exact .bare (isName_iff.mp hname)
      · cases h
    · next kind name hcut =>
      split at h
      · cases h
      · next k hk =>
        split at h
        · next hname =>
          cases h
          obtain ⟨hs, -⟩ := Text.cut_eq_some_iff.mp hcut
          have hs : s = String.ofList kind ++ "/" ++ String.ofList name := by
            apply String.toList_inj.mp
            rw [hs, toList_qualified, String.toList_ofList, String.toList_ofList]
          rw [hs]
          refine .qualified (WorkloadKind.parse?_eq_some_iff.mp hk) (isName_iff.mp ?_)
          rwa [String.toList_ofList]
        · cases h
  · rintro (⟨hname⟩ | ⟨hspells, hname⟩)
    · unfold parse
      rw [Text.cut_eq_none_iff.mpr hname.2]
      exact if_pos (isName_iff.mpr hname)
    · unfold parse
      rw [toList_qualified, Text.cut_append hspells.slash_notMem]
      simp only [String.ofList_toList, WorkloadKind.parse?_eq_some_iff.mpr hspells]
      exact if_pos (isName_iff.mpr hname)

theorem Reads.named (h : Reads s r) : Named r.name := by
  cases h <;> assumption

/-- What is printed is a way to write the reference. -/
theorem Reads.render (h : Reads s r) : Reads r.render r := by
  rw [render_eq]
  exact .qualified (WorkloadKind.spells_name _) h.named

/-- References that are printed alike are the same. -/
theorem render_injective (h : r.render = r'.render) : r = r' := by
  have hcut : ∀ r : WorkloadRef, Text.cut '/' r.render.toList =
      some (r.kind.name.toList, r.name.toList) := by
    intro r
    rw [render_eq, toList_qualified]
    exact Text.cut_append (WorkloadKind.spells_name _).slash_notMem _
  have hparts := (hcut r).symm.trans ((congrArg _ (congrArg _ h)).trans (hcut r'))
  obtain ⟨hkind, hname⟩ := Prod.mk.inj (Option.some.inj hparts)
  obtain ⟨kind, name⟩ := r
  obtain ⟨kind', name'⟩ := r'
  obtain rfl := WorkloadKind.name_injective (String.toList_inj.mp hkind)
  obtain rfl := String.toList_inj.mp hname
  rfl

end WorkloadRef

namespace Bridge

variable {a b c : Bridge}

/-- The targets of both bridges are printed alike. -/
theorem sameWorkload_iff_render : a.sameWorkload b = true ↔
    a.spec.targetNamespace = b.spec.targetNamespace ∧
      ∃ x y, WorkloadRef.parse a.spec.target = .ok x ∧ WorkloadRef.parse b.spec.target = .ok y ∧
        x.render = y.render := by
  unfold sameWorkload
  rw [Bool.and_eq_true, decide_eq_true_iff]
  refine and_congr_right fun _ => ?_
  cases WorkloadRef.parse a.spec.target with
  | error fault => simp
  | ok x =>
    cases WorkloadRef.parse b.spec.target with
    | error fault => simp
    | ok y =>
      simp only [decide_eq_true_eq, Except.ok.injEq]
      constructor
      · rintro rfl
        exact ⟨x, x, rfl, rfl, rfl⟩
      · rintro ⟨_, _, rfl, rfl, h⟩
        exact WorkloadRef.render_injective h

theorem sameWorkload_trans (hab : a.sameWorkload b = true) (hbc : b.sameWorkload c = true) :
    a.sameWorkload c = true := by
  obtain ⟨hns, x, y, hx, hy, hxy⟩ := sameWorkload_iff_render.mp hab
  obtain ⟨hns', y', z, hy', hz, hyz⟩ := sameWorkload_iff_render.mp hbc
  obtain rfl : y = y' := Except.ok.inj (hy.symm.trans hy')
  exact sameWorkload_iff_render.mpr ⟨hns.trans hns', x, z, hx, hz, hxy.trans hyz⟩

theorem sameTarget_trans (hab : a.sameTarget b = true) (hbc : b.sameTarget c = true) :
    a.sameTarget c = true := by
  unfold sameTarget at *
  simp only [Bool.and_eq_true, decide_eq_true_eq] at *
  exact ⟨sameWorkload_trans hab.1 hbc.1, hab.2.trans hbc.2⟩

end Bridge

/-- **References are canonical.** A text is a reference exactly if it is written like one, what is
printed for a reference reads as that reference, and two bridges have the same workload exactly if
they are in one namespace and their targets are printed alike. So to have the same target is
symmetric and transitive. -/
theorem references_canonical :
    (∀ s r, WorkloadRef.parse s = .ok r ↔ WorkloadRef.Reads s r) ∧
    (∀ s, (∃ r, WorkloadRef.parse s = .ok r) ↔ WorkloadRef.Named s ∨
      ∃ (k : WorkloadKind) (kind name : String), s = kind ++ "/" ++ name ∧ k.Spells kind ∧
        WorkloadRef.Named name) ∧
    (∀ s r, WorkloadRef.parse s = .ok r → WorkloadRef.parse r.render = .ok r) ∧
    (∀ a b : Bridge, a.sameWorkload b = true ↔
      a.spec.targetNamespace = b.spec.targetNamespace ∧
        ∃ x y, WorkloadRef.parse a.spec.target = .ok x ∧
          WorkloadRef.parse b.spec.target = .ok y ∧ x.render = y.render) ∧
    (∀ a b : Bridge, a.sameTarget b = true → b.sameTarget a = true) ∧
    ∀ a b c : Bridge, a.sameTarget b = true → b.sameTarget c = true → a.sameTarget c = true := by
  refine ⟨fun _ _ => WorkloadRef.parse_eq_ok_iff, ?_, ?_, fun _ _ => Bridge.sameWorkload_iff_render,
    fun a b h => Bridge.sameTarget_comm.symm.trans h, fun a b c => Bridge.sameTarget_trans⟩
  · intro s
    simp only [WorkloadRef.parse_eq_ok_iff]
    constructor
    · rintro ⟨r, hname | ⟨hspells, hname⟩⟩
      · exact .inl hname
      · exact .inr ⟨_, _, _, rfl, hspells, hname⟩
    · rintro (hname | ⟨k, kind, name, rfl, hspells, hname⟩)
      · exact ⟨_, .bare hname⟩
      · exact ⟨_, .qualified hspells hname⟩
  · intro s r h
    exact WorkloadRef.parse_eq_ok_iff.mpr (WorkloadRef.parse_eq_ok_iff.mp h).render

namespace Sample

/-- A bridge to the container `app`, with its target as it is spelled. -/
def spelled (target : String) : Bridge :=
  ⟨.empty, ⟨"carrier2", "default", target, "app", .empty, none⟩, none⟩

end Sample

open Sample in
theorem references_canonical_shop :
    WorkloadRef.parse "Deploy/shop" = .ok ⟨.deployment, "shop"⟩ ∧
    WorkloadRef.parse "deployment/shop" = .ok ⟨.deployment, "shop"⟩ ∧
    (spelled "Deploy/shop").sameTarget (spelled "DEPLOYMENTS/shop") = true ∧
    (spelled "DEPLOYMENTS/shop").sameTarget (spelled "deploy/shop") = true ∧
    (spelled "deploy/shop").sameTarget (spelled "Deploy/shop") = true := by
  obtain ⟨-, -, hrender, -, hsymm, htrans⟩ := references_canonical
  have hshop : WorkloadRef.parse "Deploy/shop" = .ok ⟨.deployment, "shop"⟩ := by rfl
  have hone : (spelled "Deploy/shop").sameTarget (spelled "DEPLOYMENTS/shop") = true := by rfl
  have hother : (spelled "DEPLOYMENTS/shop").sameTarget (spelled "deploy/shop") = true := by rfl
  exact ⟨hshop, hrender _ _ hshop, hone, hother, hsymm _ _ (htrans _ _ _ hone hother)⟩

end BridgeOperator
