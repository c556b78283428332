import BridgeOperator.Proofs.Provider.Agreement

/-!
What an uninstall leaves behind when calls fail. Neither provider goes on after an error: pods are
taken one after the other, so the first one whose sidecar cannot be dealt with keeps the bridge in
those behind it, and the service of a copy is left to the copy if that cannot be deleted. A deleted
bridge is let go all the same. `left_behind_iff` says exactly what stays.
-/

namespace BridgeOperator

open Kube (Pod)

/-- Which calls of sidecars fail. A write that fails may have been carried out nevertheless. -/
structure Outage where
  reading : ContainerId → Option Error
  writing : ContainerId → Option Error
  applied : ContainerId → Bool

namespace Outage

variable (o : Outage)

/-- No call of the sidecar fails. -/
def Spares (id : ContainerId) : Prop := o.reading id = none ∧ o.writing id = none

def read (id : ContainerId) (s : Sidecars) : Except Error (Option String) :=
  match o.reading id with
  | some e => .error e
  | none => .ok (s.files id)

def write (id : ContainerId) (document : String) (s : Sidecars) : Except Error Unit × Sidecars :=
  match o.writing id with
  | some e => (.error e, if o.applied id then s.put id document else s)
  | none => (.ok (), s.put id document)

variable {o} {id : ContainerId} {document : String} {s : Sidecars} {e : Error}

theorem read_of_none (h : o.reading id = none) : o.read id s = .ok (s.files id) := by
  rw [read, h]

theorem read_of_some (h : o.reading id = some e) : o.read id s = .error e := by
  rw [read, h]

theorem write_of_none (h : o.writing id = none) :
    o.write id document s = (.ok (), s.put id document) := by
  rw [write, h]

/-- A write that fails has changed no other sidecar. -/
theorem write_of_some (h : o.writing id = some e) : ∃ s',
    o.write id document s = (.error e, s') ∧ ∀ id', id' ≠ id → s'.files id' = s.files id' := by
  refine ⟨if o.applied id then s.put id document else s, by rw [write, h], fun id' hne => ?_⟩
  split
  · exact Sidecars.files_put_of_ne hne
  · rfl

end Outage

/-- How calls are answered during an outage. -/
def Site.answerDuring (t : Site) (o : Outage) : (c : TargetCall) → Sidecars → Answer c × Sidecars
  | .readConfig id, s => (o.read id s, s)
  | .applyConfig id document _, s => o.write id document s
  | c, s => t.answer c s

namespace Binding

variable (b : Binding)

/-- The sidecar of the pod passes connections on to the bridge. -/
def Routes (s : Sidecars) (pod : Pod) : Prop :=
  ∃ c, s.config? (b.sidecar pod) = some c ∧ c.hasBridge b.bridge = true

/-- An uninstall does not get past the pod: its sidecar cannot be read, or it has the bridge and
cannot be written. -/
def Obstructs (o : Outage) (s : Sidecars) (pod : Pod) : Prop :=
  pod.isReady b.container = true ∧
    (o.reading (b.sidecar pod) ≠ none ∨ o.writing (b.sidecar pod) ≠ none ∧ b.Routes s pod)

/-- What an uninstall leaves of pods, one taken after the other. -/
structure Leaves (o : Outage) (pods : List Pod) (s : Sidecars) (r : Except Error Unit)
    (s' : Sidecars) : Prop where
  ok_iff : r = .ok () ↔ ∀ pod ∈ pods, ¬ b.Obstructs o s pod
  routes_iff : ∀ before pod after, pods = before ++ pod :: after →
    pod.isReady b.container = true → o.Spares (b.sidecar pod) →
      (b.Routes s' pod ↔ b.Routes s pod ∧ ∃ q ∈ before, b.Obstructs o s q)
  elsewhere : ∀ id, (∀ pod ∈ pods, pod.isReady b.container = true → b.sidecar pod ≠ id) →
    s'.files id = s.files id

variable {b} {o : Outage} {pod q : Pod} {pods rest : List Pod} {s s₁ s' : Sidecars}
  {r : Except Error Unit}

theorem routes_congr (h : s₁.files (b.sidecar pod) = s.files (b.sidecar pod)) :
    b.Routes s₁ pod ↔ b.Routes s pod := by
  unfold Routes
  rw [Sidecars.config?_congr h]

theorem obstructs_congr (h : s₁.files (b.sidecar pod) = s.files (b.sidecar pod)) :
    b.Obstructs o s₁ pod ↔ b.Obstructs o s pod := by
  unfold Obstructs
  rw [routes_congr h]

theorem leaves_nil : b.Leaves o [] s (.ok ()) s where
  ok_iff := ⟨fun _ _ h => absurd h List.not_mem_nil, fun _ => rfl⟩
  routes_iff before pod after h := by simp at h
  elsewhere _ _ := rfl

section

variable (hnodup : (List.map Pod.name (pod :: rest)).Nodup)
  (hsame : ∀ id, id ≠ b.sidecar pod → s₁.files id = s.files id)

include hnodup hsame

/-- The uninstall gets past the first pod, which does not have the bridge any more. -/
theorem Leaves.cons (hpass : ¬ b.Obstructs o s pod)
    (hskip : pod.isReady b.container = false → s₁ = s)
    (hgone : pod.isReady b.container = true → ¬ b.Routes s₁ pod)
    (h : b.Leaves o rest s₁ r s') : b.Leaves o (pod :: rest) s r s' := by
  have hrest : ∀ p ∈ rest, s₁.files (b.sidecar p) = s.files (b.sidecar p) :=
    fun p hp => hsame _ (sidecar_ne hnodup hp)
  refine ⟨?_, ?_, ?_⟩
  · rw [h.ok_iff, List.forall_mem_cons, and_iff_right hpass]
    exact forall₂_congr fun p hp => not_congr (obstructs_congr (hrest p hp))
  · intro before p after hpods hready hspares
    rcases List.cons_eq_append_iff.mp hpods with ⟨rfl, hcons⟩ | ⟨before, rfl, rfl⟩
    · cases hcons
      have hfiles : s'.files (b.sidecar pod) = s₁.files (b.sidecar pod) :=
        h.elsewhere _ fun p hp _ => sidecar_ne hnodup hp
      rw [routes_congr hfiles]
      simp [hgone hready]
    · have hmem : ∀ {q}, q ∈ before → q ∈ before ++ p :: after := List.mem_append_left _
      rw [h.routes_iff before p after rfl hready hspares, routes_congr (hrest p (by simp)),
        List.exists_mem_cons_iff, or_iff_right hpass]
      exact and_congr_right fun _ => exists_congr fun q =>
        and_congr_right fun hq => obstructs_congr (hrest q (hmem hq))
  · intro id hid
    rw [h.elsewhere id fun p hp => hid p (.tail _ hp)]
    cases hready : pod.isReady b.container with
    | false => rw [hskip hready]
    | true => exact hsame id (hid pod (.head _) hready).symm

/-- The uninstall ends at the first pod. -/
theorem leaves_of_obstructs (e : Error) (hstop : b.Obstructs o s pod) :
    b.Leaves o (pod :: rest) s (.error e) s₁ := by
  refine ⟨⟨nofun, fun h => absurd hstop (h pod (.head _))⟩, ?_, ?_⟩
  · intro before p after hpods hready hspares
    rcases List.cons_eq_append_iff.mp hpods with ⟨rfl, hcons⟩ | ⟨before, rfl, rfl⟩
    · cases hcons
      rcases hstop.2 with hread | ⟨hwrite, -⟩
      · exact absurd hspares.1 hread
      · exact absurd hspares.2 hwrite
    · rw [routes_congr (hsame _ (sidecar_ne hnodup (by simp)))]
      exact (and_iff_left ⟨pod, .head _, hstop⟩).symm
  · exact fun id hid => hsame id (hid pod (.head _) hstop.1).symm

end

end Binding

/-- What is gone on with after a first part that has failed: nothing. -/
theorem Attempt.run_error {C σ α β : Type} [Calls C] {answer : (c : C) → σ → Answer c × σ}
    {x : Attempt C α} {f : α → Attempt C β} {e : Error} {s s' : σ}
    (h : x.run.run answer s = (.error e, s')) :
    (x >>= f).run.run answer s = (.error e, s') :=
  Prog.exec_run.mp (Attempt.exec_bind.mpr (.inr ⟨e, Prog.exec_run.mpr h, rfl⟩))

namespace Sidecar

variable {t : Site} {b : Binding} {o : Outage} {pod : Pod} {pods : List Pod} {s : Sidecars}

theorem run_currentConfig_during (h : o.reading (b.sidecar pod) = none) :
    (b.currentConfig pod).run.run (t.answerDuring o) s =
      (.ok (s.config? (b.sidecar pod)), s) :=
  Attempt.run_ok (congrArg (·, s) (Outage.read_of_none h))

theorem run_currentConfig_error {e : Error} (h : o.reading (b.sidecar pod) = some e) :
    (b.currentConfig pod).run.run (t.answerDuring o) s = (.error e, s) :=
  Attempt.run_error (congrArg (·, s) (Outage.read_of_some h))

theorem run_pushConfig_during (c : Carrier.Config) :
    (b.pushConfig pod c).run.run (t.answerDuring o) s = o.write (b.sidecar pod) c.toYaml s := rfl

/-- A run over the pods comes to an end and leaves what is claimed of it. -/
def Settled (t : Site) (b : Binding) (o : Outage) (pods : List Pod) (s : Sidecars)
    (work : Work Unit) : Prop :=
  ∃ r s', work.run.run (t.answerDuring o) s = (r, s') ∧ b.Leaves o pods s r s'

section

variable {rest : List Pod} (hnodup : (List.map Pod.name (pod :: rest)).Nodup)
  (hready : pod.isReady b.container = true) (hread : o.reading (b.sidecar pod) = none)
  (hrest : ∀ s, Settled t b o rest s (uninstallEach b rest))

include hnodup hread hrest

/-- A pod that does not have the bridge is passed over. -/
theorem settled_of_not_routes (hroutes : ¬ b.Routes s pod) :
    Settled t b o (pod :: rest) s (uninstallEach b rest) := by
  obtain ⟨r, s', hrun, hleaves⟩ := hrest s
  have hpass : ¬ b.Obstructs o s pod := by
    rintro ⟨-, h | ⟨-, h⟩⟩
    · exact h hread
    · exact hroutes h
  exact ⟨r, s', hrun,
    hleaves.cons hnodup (fun _ _ => rfl) hpass (fun _ => rfl) fun _ => hroutes⟩

include hready

/-- The bridge is taken out of a pod that has it, or the uninstall ends there. -/
theorem settled_of_routes {c : Carrier.Config} (hc : s.config? (b.sidecar pod) = some c)
    (hhas : c.hasBridge b.bridge = true) : Settled t b o (pod :: rest) s (do
      b.pushConfig pod (c.withoutBridge b.bridge)
      uninstallEach b rest) := by
  have hroutes : b.Routes s pod := ⟨c, hc, hhas⟩
  cases hwrite : o.writing (b.sidecar pod) with
  | some e =>
    obtain ⟨s₁, hrun, hsame⟩ := Outage.write_of_some hwrite
    have hstop : b.Obstructs o s pod := ⟨hready, .inr ⟨by simp [hwrite], hroutes⟩⟩
    exact ⟨_, _, Attempt.run_error ((run_pushConfig_during _).trans hrun),
      Binding.leaves_of_obstructs hnodup hsame e hstop⟩
  | none =>
    obtain ⟨r, s', hrun, hleaves⟩ :=
      hrest (s.put (b.sidecar pod) (c.withoutBridge b.bridge).toYaml)
    have hpass : ¬ b.Obstructs o s pod := by
      rintro ⟨-, h | ⟨h, -⟩⟩
      · exact h hread
      · exact h hwrite
    have hgone : ¬ b.Routes (s.put (b.sidecar pod) (c.withoutBridge b.bridge).toYaml) pod := by
      rintro ⟨c', hc', hhas'⟩
      rw [Sidecars.config?_of_files Sidecars.files_put] at hc'
      cases hc'
      rw [Carrier.Config.not_hasBridge_withoutBridge] at hhas'
      cases hhas'
    refine ⟨r, s', ?_, hleaves.cons hnodup (fun _ => Sidecars.files_put_of_ne) hpass
      (fun h => absurd (hready.symm.trans h) nofun) fun _ => hgone⟩
    rw [Attempt.run_ok ((run_pushConfig_during _).trans (Outage.write_of_none hwrite))]
    exact hrun

end

/-- What is left of the pods when each is taken in its turn. -/
theorem settled_uninstallEach (hnodup : (pods.map Pod.name).Nodup) (s : Sidecars) :
    Settled t b o pods s (uninstallEach b pods) := by
  induction pods generalizing s with
  | nil => exact ⟨_, _, rfl, Binding.leaves_nil⟩
  | cons pod rest ih =>
    have hrest := ih (List.nodup_cons.mp hnodup).2
    unfold uninstallEach
    cases hready : pod.isReady b.container with
    | false =>
      obtain ⟨r, s', hrun, hleaves⟩ := hrest s
      have hpass : ¬ b.Obstructs o s pod := fun h => Bool.false_ne_true (hready.symm.trans h.1)
      exact ⟨r, s', hrun, hleaves.cons hnodup (fun _ _ => rfl) hpass (fun _ => rfl) fun h =>
        absurd (hready.symm.trans h) Bool.false_ne_true⟩
    | true =>
      cases hread : o.reading (b.sidecar pod) with
      | some e =>
        have hstop : b.Obstructs o s pod := ⟨hready, .inl (by simp [hread])⟩
        exact ⟨_, _, Attempt.run_error (run_currentConfig_error hread),
          Binding.leaves_of_obstructs hnodup (fun _ _ => rfl) e hstop⟩
      | none =>
        show Settled t b o (pod :: rest) s (b.currentConfig pod >>= _ : Work Unit)
        unfold Settled
        rw [Attempt.run_ok (run_currentConfig_during hread)]
        split
        · next c hc =>
          split
          · next hhas => exact settled_of_routes hnodup hready hread hrest hc hhas
          · next hhas =>
            refine settled_of_not_routes hnodup hread hrest ?_
            rintro ⟨c', hc', hhas'⟩
            cases hc.symm.trans hc'
            exact hhas hhas'
        · next hnone =>
          refine settled_of_not_routes hnodup hread hrest ?_
          rintro ⟨c, hc, -⟩
          cases hnone.symm.trans hc

/-- Where there are no calls of sidecars an outage makes no difference. -/
theorem run_answerDuring {α : Type} {p : Prog TargetCall α} {Q : α → Unit → Prop}
    (hp : p.Keeps (fun _ c _ _ => c.isSidecar = false) () Q) (s : Sidecars) :
    p.run (t.answerDuring o) s = p.run t.answer s := by
  induction p generalizing s with
  | done a => rfl
  | call c next ih =>
    have hc : ∀ r, c.isSidecar = false := fun r => (hp r).choose_spec.1
    have hanswer : t.answerDuring o c s = t.answer c s := by
      cases c with
      | readConfig => cases hc (.ok none)
      | applyConfig => cases hc (.ok ())
      | _ => rfl
    rw [Prog.run, Prog.run, hanswer]
    obtain ⟨φ, -, hnext⟩ := hp (t.answer c s).1
    exact ih _ hnext _

theorem settled_uninstall (hlisted : ∀ s, b.pods.run.run t.answer s = (.ok pods, s))
    (hnodup : (pods.map Pod.name).Nodup) (s : Sidecars) :
    Settled t b o pods s (uninstall b) := by
  obtain ⟨r, s', hrun, hleaves⟩ := settled_uninstallEach (t := t) (o := o) hnodup s
  refine ⟨r, s', ?_, hleaves⟩
  unfold uninstall
  rw [Attempt.run_ok ((run_answerDuring b.keeps_pods s).trans (hlisted s))]
  exact hrun

end Sidecar

/-- A workload was to be deleted, and that failed. -/
def TargetCall.stays : (c : TargetCall) → Answer c → Bool
  | .deleteWorkload .., .error _ => true
  | _, _ => false

/-- The service in front of a copy is to be deleted. -/
def Binding.Unexposes (b : Binding) (w : Log TargetCall) : Prop :=
  ∃ e ∈ w, e.1 = .deleteService b.namespaceName (Clone.serviceName b.target.name b.container)

/-- The service goes after the copy, or at once where there cannot be a copy. -/
theorem Duplicate.yields_uninstall (b : Binding) : (Duplicate.uninstall b).run.Yields fun _ w =>
    b.Unexposes w ↔ ∀ e ∈ w, e.1.stays e.2 = false := by
  unfold Duplicate.uninstall
  cases b.target.kind.controller? with
  | none =>
    rintro (e | existed) <;>
      exact iff_of_true ⟨_, .head _, rfl⟩
        (List.forall_mem_cons.mpr ⟨rfl, List.forall_mem_nil _⟩)
  | some c =>
    rintro (e | existed)
    · refine iff_of_false ?_ fun h => Bool.noConfusion (h _ (.head _))
      rintro ⟨entry, hentry, hcall⟩
      obtain rfl := List.mem_singleton.mp hentry
      cases hcall
    · rintro (e | existed') <;>
        exact iff_of_true ⟨_, .tail _ (.head _), rfl⟩
          (List.forall_mem_cons.mpr ⟨rfl, List.forall_mem_cons.mpr ⟨rfl, List.forall_mem_nil _⟩⟩)

/-- **Uninstalls stop at the first failure.** After that of a sidecar bridge a pod whose sidecar
can be dealt with still routes to the bridge exactly if it did before and stands behind one that
cannot; that of a copy comes to its service exactly if the deletion of the copy has not failed. -/
theorem left_behind_iff {t : Site} {b : Binding} {pods : List Pod}
    (hlisted : ∀ s, b.pods.run.run t.answer s = (.ok pods, s))
    (hdistinct : (pods.map Pod.name).Nodup) (o : Outage) (s : Sidecars) :
    (∃ r s', (Sidecar.uninstall b).run.run (t.answerDuring o) s = (r, s') ∧
      b.Leaves o pods s r s') ∧
    (Duplicate.uninstall b).run.Yields fun _ w =>
      b.Unexposes w ↔ ∀ e ∈ w, e.1.stays e.2 = false :=
  ⟨Sidecar.settled_uninstall hlisted hdistinct s, Duplicate.yields_uninstall b⟩

namespace Site.Sample

def refused : Error := .internal "exec" "refused"

/-- The sidecar of the first pod cannot be reached. -/
def unreachable : Outage where
  reading id := if id.pod = "shop-1" then some refused else none
  writing _ := none
  applied _ := false

/-- Every sidecar forwards to the bridge. -/
def forwarding : Sidecars :=
  ⟨fun _ => some (Carrier.Config.toYaml
    { Carrier.Config.default with proxies := [binding.proxy "10.0.0.1" ⟨8080, 80⟩] }), []⟩

theorem left_behind_iff_shop :
    (∀ s, binding.pods.run.run (shop twoPods).answer s = (.ok twoPods, s)) ∧
    (twoPods.map Pod.name).Nodup ∧
    ∃ r s', (Sidecar.uninstall binding).run.run ((shop twoPods).answerDuring unreachable)
      forwarding = (r, s') ∧ binding.Leaves unreachable twoPods forwarding r s' :=
  ⟨fun _ => rfl, by decide, (left_behind_iff (fun _ => rfl) (by decide) unreachable forwarding).1⟩

theorem routes_forwarding (pod : Pod) : binding.Routes forwarding pod :=
  ⟨_, Sidecars.config?_of_files rfl, rfl⟩

/-- The second pod is left to the bridge because the first one cannot be reached, and a copy that
cannot be deleted keeps its service. -/
theorem not_best_effort :
    (¬ ∀ (t : Site) (b : Binding) (pods : List Pod) (o : Outage) (s : Sidecars),
      (∀ s, b.pods.run.run t.answer s = (.ok pods, s)) → (pods.map Pod.name).Nodup →
        ∀ pod ∈ pods, pod.isReady b.container = true → o.Spares (b.sidecar pod) →
          ¬ b.Routes ((Sidecar.uninstall b).run.run (t.answerDuring o) s).2 pod) ∧
    ¬ ∀ b : Binding, (Duplicate.uninstall b).run.Yields fun _ w => b.Unexposes w := by
  constructor
  · intro h
    have hleft : (Sidecar.uninstall binding).run.run ((shop twoPods).answerDuring unreachable)
        forwarding = (.error refused, forwarding) := rfl
    have hgone := h (shop twoPods) binding twoPods unreachable forwarding (fun _ => rfl)
      (by decide) (shopPod "shop-2" "10.0.0.2") (by simp [twoPods]) (healthy_shopPod _ _).ready
      ⟨rfl, rfl⟩
    rw [hleft] at hgone
    exact hgone (routes_forwarding _)
  · intro h
    obtain ⟨entry, hentry, hcall⟩ := h binding (.error refused)
    obtain rfl := List.mem_singleton.mp hentry
    cases hcall

end Site.Sample
end BridgeOperator
