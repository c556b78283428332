import BridgeOperator.Provider.Clone
import BridgeOperator.Provider.Ports
import Mathlib.Data.List.Nodup
import Mathlib.Data.List.Sort

/-!
The ports a bridge serves. A list of mappings is in order if its container ports differ, and where
it is empty a copy serves what its container declares, each port once.
-/

namespace BridgeOperator

open Kube (Container)

/-- Of a list in order each number is left once. -/
theorem ascending_eraseDups : ∀ {l : List ℕ}, l.Pairwise (· ≤ ·) → l.eraseDups.Pairwise (· < ·)
  | [], _ => .nil
  | a :: rest, h => by
    obtain ⟨ha, hrest⟩ := List.pairwise_cons.mp h
    rw [List.eraseDups_cons, List.pairwise_cons]
    refine ⟨fun n hn => ?_, ascending_eraseDups (hrest.filter _)⟩
    obtain ⟨hn, hne⟩ := List.mem_filter.mp (List.mem_eraseDups.mp hn)
    exact lt_of_le_of_ne (ha n hn) fun heq => by simp [heq] at hne
termination_by l => l.length
decreasing_by exact Nat.lt_succ_of_le (List.length_filter_le _ _)

/-- The number of a port is the same in a wider type. -/
theorem toInt_port (p : UInt16) : (Int32.ofNat p.toNat).toInt = p.toNat := by
  have hp := p.toNat_lt
  exact Int32.toInt_ofNat_of_lt (by omega)

theorem port_injective {p q : UInt16} (h : Int32.ofNat p.toNat = Int32.ofNat q.toNat) : p = q := by
  have hint := congrArg Int32.toInt h
  rw [toInt_port, toInt_port] at hint
  exact UInt16.toNat_inj.mp (by omega)

namespace PortMapping

/-- There is no fault where no port is zero and no container port comes up again. -/
theorem firstFault_eq_none {seen : List UInt16} {mappings : List PortMapping} :
    firstFault seen mappings = none ↔
      (∀ m ∈ mappings, m.containerPort ≠ 0 ∧ m.localPort ≠ 0 ∧ m.containerPort ∉ seen) ∧
        (mappings.map (·.containerPort)).Nodup := by
  induction mappings generalizing seen with
  | nil => simp [firstFault]
  | cons m rest ih =>
    unfold firstFault
    split
    · next hzero =>
      simp only [reduceCtorEq, List.mem_cons, forall_eq_or_imp, false_iff]
      rintro ⟨⟨⟨hc, hl, -⟩, -⟩, -⟩
      exact hzero.elim hc hl
    · next hzero =>
      split
      · next hseen =>
        have hmem : m.containerPort ∈ seen := by simpa using hseen
        simp only [reduceCtorEq, List.mem_cons, forall_eq_or_imp, false_iff]
        rintro ⟨⟨⟨-, -, hnew⟩, -⟩, -⟩
        exact hnew hmem
      · next hseen =>
        have hnew : m.containerPort ∉ seen := by simpa using hseen
        rw [ih]
        simp only [List.mem_cons, not_or, List.map_cons, List.nodup_cons, List.mem_map,
          forall_eq_or_imp, not_exists, not_and]
        constructor
        · rintro ⟨hall, hnodup⟩
          refine ⟨⟨⟨fun h => hzero (.inl h), fun h => hzero (.inr h), hnew⟩, fun m' hm' => ?_⟩,
            fun m' hm' => (hall m' hm').2.2.1, hnodup⟩
          exact ⟨(hall m' hm').1, (hall m' hm').2.1, (hall m' hm').2.2.2⟩
        · rintro ⟨⟨-, hall⟩, hdiffer, hnodup⟩
          refine ⟨fun m' hm' => ?_, hnodup⟩
          exact ⟨(hall m' hm').1, (hall m' hm').2.1, hdiffer m' hm', (hall m' hm').2.2⟩

theorem check_eq_ok {bridge : String} {mappings : List PortMapping} {requireAny : Bool} :
    check bridge mappings requireAny = .ok () ↔ (requireAny = true → mappings ≠ []) ∧
      (∀ m ∈ mappings, m.containerPort ≠ 0 ∧ m.localPort ≠ 0) ∧
        (mappings.map (·.containerPort)).Nodup := by
  have hcheck : check bridge mappings requireAny = .ok () ↔
      (requireAny = true → mappings ≠ []) ∧ firstFault [] mappings = none := by
    unfold check
    by_cases hmissing : (requireAny && mappings.isEmpty) = true
    · rw [if_pos hmissing]
      simp_all
    · rw [if_neg hmissing]
      cases firstFault [] mappings <;> simp_all
  rw [hcheck, firstFault_eq_none]
  simp

end PortMapping

namespace Binding

variable {b : Binding} {c : Container}

theorem ascending_declared (c : Container) :
    (c.declaredPorts.map (·.toNat)).mergeSort.eraseDups.Pairwise (· < ·) :=
  ascending_eraseDups (List.pairwise_mergeSort' (· ≤ ·) _)

/-- The declared ports, ascending and each once. -/
theorem ports_declared (h : b.parameters.portMappings = []) :
    ((b.effectiveMappings c).map fun m => m.containerPort.toNat) =
      (c.declaredPorts.map (·.toNat)).mergeSort.eraseDups := by
  unfold effectiveMappings
  rw [h]
  simp only [List.isEmpty_nil, if_true, List.map_map]
  refine (List.map_congr_left fun n hn => ?_).trans (List.map_id _)
  have hlt : n < 65536 := by
    rw [List.mem_eraseDups, List.mem_mergeSort] at hn
    obtain ⟨p, -, rfl⟩ := List.mem_map.mp hn
    exact p.toNat_lt
  simpa using Nat.mod_eq_of_lt hlt

theorem effectiveMappings_of_mapped (h : b.parameters.portMappings ≠ []) :
    b.effectiveMappings c = b.parameters.portMappings :=
  if_neg (by simpa using h)

theorem nodup_effectiveMappings
    (h : PortMapping.check b.bridge b.parameters.portMappings false = .ok ()) :
    ((b.effectiveMappings c).map (·.containerPort)).Nodup := by
  by_cases hempty : b.parameters.portMappings = []
  · refine .of_map UInt16.toNat ?_
    rw [List.map_map]
    exact (ports_declared hempty).symm ▸ (ascending_declared c).imp ne_of_lt
  · rw [effectiveMappings_of_mapped hempty]
    exact (PortMapping.check_eq_ok.mp h).2.2

theorem effectiveMappings_eq_nil :
    b.effectiveMappings c = [] ↔ b.parameters.portMappings = [] ∧ c.declaredPorts = [] := by
  by_cases hempty : b.parameters.portMappings = []
  · rw [← List.map_eq_nil_iff (f := fun m => m.containerPort.toNat), ports_declared hempty]
    simp only [List.eq_nil_iff_forall_not_mem, List.mem_eraseDups, List.mem_mergeSort]
    simp [← List.eq_nil_iff_forall_not_mem, hempty]
  · rw [effectiveMappings_of_mapped hempty]
    simp [hempty]

end Binding
end BridgeOperator
