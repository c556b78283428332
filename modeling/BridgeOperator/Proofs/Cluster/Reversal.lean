import BridgeOperator.Proofs.Cluster.Selection
import BridgeOperator.Proofs.Provider.Selectors

/-!
Copies that come and go. Install and uninstall derive the same two names from a binding, and the
workload that is copied has neither of them. So whatever fails on the way, nothing else is touched
(`Binding.Spares`), and where nothing fails the two undo each other (`Duplicate.reversible`).
-/

namespace BridgeOperator

open Kube (Controller Service Workload)

namespace Cluster

variable {cl cl' cl'' : Cluster}

/-- The two clusters differ in nothing but what has been asked of them. -/
def Alike (cl cl' : Cluster) : Prop := cl' = { cl with log := cl'.log }

namespace Alike

theorem refl (cl : Cluster) : cl.Alike cl := rfl

theorem symm (h : cl.Alike cl') : cl'.Alike cl := by
  unfold Alike at h ⊢
  rw [h]

theorem trans (h : cl.Alike cl') (h' : cl'.Alike cl'') : cl.Alike cl'' := by
  unfold Alike at h h' ⊢
  rw [h', h]

end Alike

theorem key_inj_right {ns name name' : String} : key ns name = key ns name' ↔ name = name' := by
  unfold key
  simp [toString]

/-! ## A cluster with no faults ahead -/

theorem calm_eq (hcalm : cl.faults = []) : cl.calm = cl := by
  unfold calm
  rw [← hcalm]

theorem Alike.calm (h : cl.Alike cl') (hcalm : cl.faults = []) : cl'.faults = [] := by
  rw [h]
  exact hcalm

/-- A workload and a service are put into the cluster, each under its name. -/
def withCopy (cl : Cluster) (c : Controller) (ns : String) (w : Workload) (s : Service) :
    Cluster :=
  { cl.storeWorkload c ns w with
    services := cl.services.insert (key ns s.metadata.nameOrEmpty) s }

/-- A workload and a service are taken out of the cluster. -/
def withoutCopy (cl : Cluster) (c : Controller) (ns workload service : String) : Cluster :=
  { cl.withWorkloads c ((cl.workloads c).erase (key ns workload)) with
    services := cl.services.erase (key ns service) }

section

variable {c : Controller} {ns : String} {w : Workload} {s : Service}

theorem withCopy_withCopy : (cl.withCopy c ns w s).withCopy c ns w s = cl.withCopy c ns w s := by
  cases c
  all_goals
    simp only [withCopy, storeWorkload, withWorkloads, workloads, SortedMap.insert_insert]
    rfl

theorem withoutCopy_withCopy {workload service : String} (hw : w.metadata.nameOrEmpty = workload)
    (hs : s.metadata.nameOrEmpty = service) :
    (cl.withCopy c ns w s).withoutCopy c ns workload service =
      cl.withoutCopy c ns workload service := by
  subst hw hs
  cases c <;>
    simp [withCopy, withoutCopy, storeWorkload, withWorkloads, workloads, SortedMap.erase_insert]

theorem withoutCopy_eq {workload service : String}
    (hw : (cl.workloads c).get? (key ns workload) = none)
    (hs : cl.services.get? (key ns service) = none) :
    cl.withoutCopy c ns workload service = cl := by
  unfold withoutCopy
  rw [SortedMap.erase_of_get?_eq_none hw, SortedMap.erase_of_get?_eq_none hs]
  cases c <;> rfl

theorem Alike.withCopy (h : cl.Alike cl') : (cl.withCopy c ns w s).Alike (cl'.withCopy c ns w s) := by
  rw [h]
  cases c <;> rfl

theorem Alike.withoutCopy {workload service : String} (h : cl.Alike cl') :
    (cl.withoutCopy c ns workload service).Alike (cl'.withoutCopy c ns workload service) := by
  rw [h]
  cases c <;> rfl

end

/-! ## Install and uninstall where nothing fails -/

section

variable {b : Binding} {c : Controller} {base copy : Workload} {mappings : List PortMapping}
  (hc : b.target.kind.controller? = some c) (hcalm : cl.faults = [])

include hc hcalm

/-- An install puts the copy of what it finds into the cluster. -/
theorem carryOut_install
    (hget : (cl.workloads c).get? (key b.namespaceName b.target.name) = some base)
    (hclone : b.clone c base = .ok (copy, mappings)) :
    ∃ cl', cl.carryOut (Duplicate.install b) = (.ok (), cl') ∧
      (cl.withCopy c b.namespaceName copy (b.cloneService copy mappings)).Alike cl' := by
  rw [← calm_eq hcalm]
  unfold Duplicate.install
  rw [hc]
  dsimp only
  rw [carryOut_bind (carryOut_getWorkload c b.target.name), hget]
  dsimp only
  rw [hclone]
  cases c <;> exact ⟨_, rfl, rfl⟩

/-- An install that succeeds has found a workload that can be copied. -/
theorem found_of_install (h : cl.carryOut (Duplicate.install b) = (.ok (), cl')) :
    ∃ base made, (cl.workloads c).get? (key b.namespaceName b.target.name) = some base ∧
      b.clone c base = .ok made := by
  rw [← calm_eq hcalm] at h
  unfold Duplicate.install at h
  rw [hc] at h
  dsimp only at h
  rw [carryOut_bind (carryOut_getWorkload c b.target.name)] at h
  cases hget : (cl.workloads c).get? (key b.namespaceName b.target.name) with
  | none =>
    rw [hget] at h
    cases h
  | some base =>
    rw [hget] at h
    dsimp only at h
    cases hclone : b.clone c base with
    | error e =>
      rw [hclone] at h
      cases h
    | ok made => exact ⟨base, made, rfl, hclone⟩

theorem carryOut_uninstall : ∃ cl', cl.carryOut (Duplicate.uninstall b) = (.ok (), cl') ∧
    (cl.withoutCopy c b.namespaceName (Clone.workloadName b.target.name)
      (Clone.serviceName b.target.name b.container)).Alike cl' := by
  rw [← calm_eq hcalm]
  unfold Duplicate.uninstall
  rw [hc]
  cases c <;> exact ⟨_, rfl, rfl⟩

end

/-! ## What is left alone -/

theorem answer_cases {α : Type} {p : Point} {f : Cluster → α × Cluster} {r : Except Error α}
    (h : cl.answer p f = (r, cl')) : ∃ faults clock,
      cl' = { cl with faults, clock } ∨ cl' = (f { cl with faults, clock }).2 := by
  unfold answer disturb at h
  split at h
  next e w hdisturb =>
    cases h
    split at hdisturb
    · cases hdisturb
    · obtain ⟨-, rfl⟩ := Prod.mk.inj hdisturb
      exact ⟨_, _, .inl rfl⟩
  next w hdisturb =>
    cases h
    split at hdisturb <;> obtain ⟨-, rfl⟩ := Prod.mk.inj hdisturb
    · exact ⟨_, _, .inr rfl⟩
    · exact ⟨_, _, .inr rfl⟩

end Cluster

namespace Binding

variable (b : Binding) (c : Controller)

/-- The call only looks, tells something, or is about the copy or its service. -/
def Handles : TargetCall → Prop
  | .getWorkload .. | .publish _ => True
  | .applyWorkload c' ns w => c' = c ∧ ns = b.namespaceName ∧
    w.metadata.nameOrEmpty = Clone.workloadName b.target.name
  | .deleteWorkload c' ns name => c' = c ∧ ns = b.namespaceName ∧
    name = Clone.workloadName b.target.name
  | .applyService ns s => ns = b.namespaceName ∧
    s.metadata.nameOrEmpty = Clone.serviceName b.target.name b.container
  | .deleteService ns name => ns = b.namespaceName ∧
    name = Clone.serviceName b.target.name b.container
  | _ => False

/-- Only the objects under the names of the copy and its service may differ. -/
structure Spares (cl cl' : Cluster) : Prop where
  workloads : ∀ c' k, (c' = c → k ≠ Cluster.key b.namespaceName (Clone.workloadName b.target.name)) →
    (cl'.workloads c').get? k = (cl.workloads c').get? k
  services : ∀ k, k ≠ Cluster.key b.namespaceName (Clone.serviceName b.target.name b.container) →
    cl'.services.get? k = cl.services.get? k
  rest : cl' = { cl with
    deployments := cl'.deployments
    statefulSets := cl'.statefulSets
    services := cl'.services
    faults := cl'.faults
    clock := cl'.clock
    log := cl'.log }

variable {b c} {cl cl' cl'' : Cluster}

namespace Spares

theorem refl (cl : Cluster) : b.Spares c cl cl := ⟨fun _ _ _ => rfl, fun _ _ => rfl, rfl⟩

theorem trans (h : b.Spares c cl cl') (h' : b.Spares c cl' cl'') : b.Spares c cl cl'' where
  workloads c' k hk := (h'.workloads c' k hk).trans (h.workloads c' k hk)
  services k hk := (h'.services k hk).trans (h.services k hk)
  rest := by
    have hrest := h'.rest
    rw [h.rest] at hrest
    exact hrest

theorem disturbed (faults : List Cluster.Fault) (clock : Nat) (log : List Cluster.Entry) :
    b.Spares c cl { cl with faults, clock, log } :=
  ⟨fun c' _ _ => by cases c' <;> rfl, fun _ _ => rfl, rfl⟩

theorem withWorkloads {m : SortedMap Workload}
    (h : ∀ k, k ≠ Cluster.key b.namespaceName (Clone.workloadName b.target.name) →
      m.get? k = (cl.workloads c).get? k) : b.Spares c cl (cl.withWorkloads c m) where
  workloads c' k hk := by
    by_cases hc : c' = c
    · subst hc
      have hm : (cl.withWorkloads c' m).workloads c' = m := by cases c' <;> rfl
      rw [hm]
      exact h k (hk rfl)
    · cases c <;> cases c' <;> first | rfl | exact absurd rfl hc
  services k _ := by cases c <;> rfl
  rest := by cases c <;> rfl

theorem withServices {m : SortedMap Service}
    (h : ∀ k, k ≠ Cluster.key b.namespaceName (Clone.serviceName b.target.name b.container) →
      m.get? k = cl.services.get? k) : b.Spares c cl { cl with services := m } :=
  ⟨fun c' _ _ => by cases c' <;> rfl, h, rfl⟩

/-- The workload that is copied is not the copy. -/
theorem target (h : b.Spares c cl cl') :
    (cl'.workloads c).get? (Cluster.key b.namespaceName b.target.name) =
      (cl.workloads c).get? (Cluster.key b.namespaceName b.target.name) := by
  refine h.workloads c _ fun _ hkey => ?_
  exact Clone.append_mark_ne _ (Cluster.key_inj_right.mp hkey).symm

/-- A fault spares everything, and so does an answer that does. -/
theorem of_answer {α : Type} {p : Cluster.Point} {f : Cluster → α × Cluster} {r : Except Error α}
    (h : cl.answer p f = (r, cl')) (hf : ∀ cl, b.Spares c cl (f cl).2) : b.Spares c cl cl' := by
  obtain ⟨faults, clock, rfl | rfl⟩ := Cluster.answer_cases h
  · exact .disturbed _ _ _
  · exact (disturbed faults clock cl.log).trans (hf _)

/-- A call about the copy or its service spares everything else, whether it fails or not. -/
theorem of_answers {call : TargetCall} {r : Answer call} (hcall : b.Handles c call)
    (h : Cluster.Answers call cl r cl') : b.Spares c cl cl' := by
  cases call with
  | getWorkload c' ns name =>
    dsimp only [Cluster.Answers, Cluster.answerTarget] at h
    exact of_answer h refl
  | applyWorkload c' ns w =>
    obtain ⟨rfl, rfl, hname⟩ := hcall
    dsimp only [Cluster.Answers, Cluster.answerTarget] at h
    refine of_answer h fun cl => .trans (.withWorkloads fun k hk => ?_) (.disturbed _ _ _)
    rw [hname]
    exact SortedMap.get?_insert_of_ne _ _ hk
  | deleteWorkload c' ns name =>
    obtain ⟨rfl, rfl, rfl⟩ := hcall
    dsimp only [Cluster.Answers, Cluster.answerTarget] at h
    refine of_answer h fun cl => .trans (.withWorkloads fun k hk => ?_) (.disturbed _ _ _)
    rw [SortedMap.get?_erase, if_neg hk]
  | applyService ns s =>
    obtain ⟨rfl, hname⟩ := hcall
    dsimp only [Cluster.Answers, Cluster.answerTarget] at h
    refine of_answer h fun cl => .trans (.withServices fun k hk => ?_) (.disturbed _ _ _)
    rw [hname]
    exact SortedMap.get?_insert_of_ne _ _ hk
  | deleteService ns name =>
    obtain ⟨rfl, rfl⟩ := hcall
    dsimp only [Cluster.Answers, Cluster.answerTarget] at h
    refine of_answer h fun cl => .trans (.withServices fun k hk => ?_) (.disturbed _ _ _)
    rw [SortedMap.get?_erase, if_neg hk]
  | publish n =>
    obtain ⟨-, rfl⟩ := Prod.mk.inj h
    exact .disturbed _ _ _
  | _ => cases hcall

/-- What calls about the copy and its service spare, the whole work spares. -/
theorem of_carryOut {α : Type} {work : Work α} {r : Except Error α}
    (hwork : work.run.Keeps (fun _ call _ _ => b.Handles c call) () fun _ _ => True)
    (h : cl.carryOut work = (r, cl')) : b.Spares c cl cl' := by
  refine Prog.Exec.invariant (I := b.Spares c cl) ?_ hwork (Cluster.exec_carryOut.mpr h) (.refl cl)
  intro φ φ' call r s s' hcall hanswer hspares
  exact hspares.trans (.of_answers hcall hanswer)

end Spares

end Binding

namespace Duplicate

variable {b : Binding} {c : Controller} {cl cl' : Cluster}

theorem handles_install (hc : b.target.kind.controller? = some c) :
    (install b).run.Keeps (fun _ call _ _ => b.Handles c call) () fun _ _ => True := by
  refine (install_keeps b).weaken fun hcall => ?_
  cases hcall with
  | target c ns name => exact trivial
  | notice n => exact trivial
  | copy hc' hclone =>
    refine ⟨Option.some.inj (hc'.symm.trans hc), rfl, ?_⟩
    unfold Kube.Metadata.nameOrEmpty
    rw [clone_name hclone]
    rfl
  | front => exact ⟨rfl, rfl⟩

theorem handles_uninstall (hc : b.target.kind.controller? = some c) :
    (uninstall b).run.Keeps (fun _ call _ _ => b.Handles c call) () fun _ _ => True := by
  unfold uninstall
  rw [hc]
  rintro (e | existed)
  · exact ⟨(), ⟨rfl, rfl, rfl⟩, trivial⟩
  · refine ⟨(), ⟨rfl, rfl, rfl⟩, ?_⟩
    rintro (e | existed) <;> exact ⟨(), ⟨rfl, rfl⟩, trivial⟩

/-- Nothing has the name of the copy or that of its service. -/
structure Vacant (b : Binding) (c : Controller) (cl : Cluster) : Prop where
  copy : (cl.workloads c).get?
    (Cluster.key b.namespaceName (Clone.workloadName b.target.name)) = none
  service : cl.services.get?
    (Cluster.key b.namespaceName (Clone.serviceName b.target.name b.container)) = none

/-- What install and uninstall do to a cluster. Neither of them touches the workload that is copied
or anything else that is not the copy or its service, whatever fails. Where nothing fails, an
install succeeds if there is something to copy, and adds the copy and its service; installing again
changes nothing; an uninstall removes both, so it takes back what an install has added to a cluster,
and has nothing to do without one. -/
structure Reversible (b : Binding) (c : Controller) (cl : Cluster) : Prop where
  spares : ∀ r cl', cl.carryOut (install b) = (r, cl') ∨ cl.carryOut (uninstall b) = (r, cl') →
    b.Spares c cl cl' ∧
      (cl'.workloads c).get? (Cluster.key b.namespaceName b.target.name) =
        (cl.workloads c).get? (Cluster.key b.namespaceName b.target.name)
  succeeds : cl.faults = [] → ((∃ cl', cl.carryOut (install b) = (.ok (), cl')) ↔
    ∃ base made, (cl.workloads c).get? (Cluster.key b.namespaceName b.target.name) = some base ∧
      b.clone c base = .ok made)
  copies : cl.faults = [] → ∀ base copy mappings,
    (cl.workloads c).get? (Cluster.key b.namespaceName b.target.name) = some base →
    b.clone c base = .ok (copy, mappings) → ∃ cl', cl.carryOut (install b) = (.ok (), cl') ∧
      (cl.withCopy c b.namespaceName copy (b.cloneService copy mappings)).Alike cl'
  removes : cl.faults = [] → ∃ cl', cl.carryOut (uninstall b) = (.ok (), cl') ∧
    (cl.withoutCopy c b.namespaceName (Clone.workloadName b.target.name)
      (Clone.serviceName b.target.name b.container)).Alike cl'
  again : cl.faults = [] → ∀ cl₁, cl.carryOut (install b) = (.ok (), cl₁) →
    ∃ cl₂, cl₁.carryOut (install b) = (.ok (), cl₂) ∧ cl₁.Alike cl₂
  undone : cl.faults = [] → Vacant b c cl → ∀ cl₁, cl.carryOut (install b) = (.ok (), cl₁) →
    ∃ cl₂, cl₁.carryOut (uninstall b) = (.ok (), cl₂) ∧ cl.Alike cl₂
  idle : cl.faults = [] → Vacant b c cl →
    ∃ cl', cl.carryOut (uninstall b) = (.ok (), cl') ∧ cl.Alike cl'

section

variable (hc : b.target.kind.controller? = some c) (hcalm : cl.faults = [])

include hc hcalm

/-- After an install the cluster has a copy of what was and still is found in it. -/
theorem copied_of_install (h : cl.carryOut (install b) = (.ok (), cl')) : ∃ base copy mappings,
    (cl.workloads c).get? (Cluster.key b.namespaceName b.target.name) = some base ∧
    b.clone c base = .ok (copy, mappings) ∧
    (cl.withCopy c b.namespaceName copy (b.cloneService copy mappings)).Alike cl' := by
  obtain ⟨base, ⟨copy, mappings⟩, hget, hclone⟩ := Cluster.found_of_install hc hcalm h
  obtain ⟨cl₁, hinstall, halike⟩ := Cluster.carryOut_install hc hcalm hget hclone
  obtain ⟨-, rfl⟩ := Prod.mk.inj (h.symm.trans hinstall)
  exact ⟨base, copy, mappings, hget, hclone, halike⟩

theorem install_again (h : cl.carryOut (install b) = (.ok (), cl')) :
    ∃ cl₂, cl'.carryOut (install b) = (.ok (), cl₂) ∧ cl'.Alike cl₂ := by
  obtain ⟨base, copy, mappings, hget, hclone, halike⟩ := copied_of_install hc hcalm h
  have hcalm' : cl'.faults = [] := halike.calm (by cases c <;> exact hcalm)
  have hspares : b.Spares c cl cl' := .of_carryOut (handles_install hc) h
  obtain ⟨cl₂, hinstall, halike₂⟩ :=
    Cluster.carryOut_install hc hcalm' (hspares.target.trans hget) hclone
  refine ⟨cl₂, hinstall, halike.symm.trans (.trans ?_ halike₂)⟩
  have hsame : ((cl.withCopy c b.namespaceName copy (b.cloneService copy mappings)).withCopy c
      b.namespaceName copy (b.cloneService copy mappings)).Alike _ := halike.withCopy
  rw [Cluster.withCopy_withCopy] at hsame
  exact hsame

theorem uninstall_vacant (hvacant : Vacant b c cl) :
    ∃ cl', cl.carryOut (uninstall b) = (.ok (), cl') ∧ cl.Alike cl' := by
  obtain ⟨cl', huninstall, halike⟩ := Cluster.carryOut_uninstall hc hcalm
  rw [Cluster.withoutCopy_eq hvacant.copy hvacant.service] at halike
  exact ⟨cl', huninstall, halike⟩

theorem uninstall_install (hvacant : Vacant b c cl)
    (h : cl.carryOut (install b) = (.ok (), cl')) :
    ∃ cl₂, cl'.carryOut (uninstall b) = (.ok (), cl₂) ∧ cl.Alike cl₂ := by
  obtain ⟨base, copy, mappings, hget, hclone, halike⟩ := copied_of_install hc hcalm h
  have hcalm' : cl'.faults = [] := halike.calm (by cases c <;> exact hcalm)
  obtain ⟨cl₂, huninstall, halike₂⟩ := Cluster.carryOut_uninstall hc hcalm'
  refine ⟨cl₂, huninstall, .trans ?_ halike₂⟩
  have hname : copy.metadata.nameOrEmpty = Clone.workloadName b.target.name := by
    unfold Kube.Metadata.nameOrEmpty
    rw [clone_name hclone]
    rfl
  have hservice : (b.cloneService copy mappings).metadata.nameOrEmpty =
      Clone.serviceName b.target.name b.container := rfl
  have hgone : ((cl.withCopy c b.namespaceName copy (b.cloneService copy mappings)).withoutCopy c
      b.namespaceName (Clone.workloadName b.target.name)
      (Clone.serviceName b.target.name b.container)).Alike _ := halike.withoutCopy
  rw [Cluster.withoutCopy_withCopy hname hservice,
    Cluster.withoutCopy_eq hvacant.copy hvacant.service] at hgone
  exact hgone

end

/-- **Install and uninstall undo each other.** -/
theorem reversible (hc : b.target.kind.controller? = some c) (cl : Cluster) :
    Reversible b c cl where
  spares r cl' h := by
    have hspares : b.Spares c cl cl' := by
      rcases h with h | h
      · exact .of_carryOut (handles_install hc) h
      · exact .of_carryOut (handles_uninstall hc) h
    exact ⟨hspares, hspares.target⟩
  succeeds hcalm := by
    constructor
    · rintro ⟨cl', h⟩
      exact Cluster.found_of_install hc hcalm h
    · rintro ⟨base, ⟨copy, mappings⟩, hget, hclone⟩
      obtain ⟨cl', h, -⟩ := Cluster.carryOut_install hc hcalm hget hclone
      exact ⟨cl', h⟩
  copies hcalm _ _ _ := Cluster.carryOut_install hc hcalm
  removes hcalm := Cluster.carryOut_uninstall hc hcalm
  again hcalm _ := install_again hc hcalm
  undone hcalm hvacant _ := uninstall_install hc hcalm hvacant
  idle hcalm := uninstall_vacant hc hcalm

end Duplicate

/-- A cluster with one deployment in it. -/
def Sample.stocked : Cluster := { Cluster.empty ⟨0, 0⟩ with
  deployments := .ofList [(Cluster.key "default" "shop", .ofContainer "app")] }

open Sample in
theorem Duplicate.reversible_shop :
    (binding first "shop").target.kind.controller? = some .deployment ∧
      ∃ cl₁ cl₂, stocked.carryOut (install (binding first "shop")) = (.ok (), cl₁) ∧
        cl₁.carryOut (uninstall (binding first "shop")) = (.ok (), cl₂) ∧ stocked.Alike cl₂ := by
  have hreversible := reversible (b := binding first "shop") (c := .deployment) rfl stocked
  obtain ⟨made, mappings, hclone, -⟩ := clone_ofContainer (binding first "shop") .deployment
  obtain ⟨cl₁, hinstall⟩ := (hreversible.succeeds rfl).mpr ⟨_, _, rfl, hclone⟩
  obtain ⟨cl₂, huninstall, halike⟩ := hreversible.undone rfl ⟨rfl, rfl⟩ cl₁ hinstall
  exact ⟨rfl, cl₁, cl₂, hinstall, huninstall, halike⟩

end BridgeOperator
