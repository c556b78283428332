import BridgeOperator.Proofs.Carrier.RoundTrip
import BridgeOperator.Proofs.Provider.Look

/-!
What an uninstall does to the fixtures of a cluster. It takes away what stands under the names it
derives from its binding (`BoundProvider.Reaches`), whoever has put it there. Of the routes in a
sidecar that is the one of the bridge and no other, because what is written back is the document
that was read without it (`Estate.configured_withoutBridge`).
-/

namespace BridgeOperator

open Kube (Controller Pod Workload)
open Work

theorem Carrier.Config.hasBridge_withoutBridge (c : Config) (n m : String) :
    (c.withoutBridge n).hasBridge m = (decide (m ≠ n) && c.hasBridge m) := by
  unfold hasBridge withoutBridge
  rw [List.any_map]
  by_cases hm : m = n <;> simp [Function.comp_def, SortedMap.contains_erase, hm]

/-- Without the route to a bridge a document has the routes it had, and they are whose they were. -/
theorem Estate.configured_withoutBridge {e : Estate} {id : ContainerId} {config : Carrier.Config}
    (h : e.config? id = some config) (x : Bridge) (n : String) :
    (e.configured x .unmount id (config.withoutBridge n).toYaml).holder =
      Function.update e.holder (.route id n) none := by
  funext f
  cases f with
  | object a => exact (Function.update_of_ne (by simp) ..).symm
  | route id' m =>
    by_cases hid : id' = id
    · subst hid
      have hread : Carrier.Config.ofYaml? (config.withoutBridge n).toYaml =
          some (config.withoutBridge n) := by
        rw [Carrier.Config.ofYaml?, Carrier.Config.parse_toYaml, Option.bind_some,
          Carrier.Config.read_toJson Yaml.mirrors_node]
      have hroutes : e.routes id' m = config.hasBridge m := by
        rw [routes, h, Option.any_some]
      refine configured_route.trans ?_
      rw [hread, Option.any_some, Carrier.Config.hasBridge_withoutBridge]
      by_cases hm : m = n
      · subst hm
        simp
      · rw [Function.update_of_ne (by simpa using hm)]
        by_cases hhas : config.hasBridge m = true <;> simp [holder, hroutes, hm, hhas]
    · rw [Function.update_of_ne (by simp [hid])]
      exact configured_route_of_ne hid

/-- Uninstalling may take the fixture away. -/
def BoundProvider.Reaches (q : BoundProvider) : Fixture → Prop
  | .object (.workload c ns name) => q.provider.kind = .duplicate ∧
    q.binding.target.kind.controller? = some c ∧ ns = q.binding.namespaceName ∧
    name = Clone.workloadName q.binding.target.name
  | .object (.service ns name) => q.provider.kind = .duplicate ∧ ns = q.binding.namespaceName ∧
    name = Clone.serviceName q.binding.target.name q.binding.container
  | .route id bridge => q.provider.kind = .carrier2 ∧
    id.namespaceName = q.binding.namespaceName ∧ id.container = q.binding.container ∧
    (q.binding.target.kind = .pod → id.pod = q.binding.target.name) ∧ bridge = q.binding.bridge

/-- The fixtures that differ are gone, and are among those given. -/
def Estate.Shrinks (e e' : Estate) (P : Fixture → Prop) : Prop :=
  ∀ f, e' f = e f ∨ e' f = none ∧ P f

namespace Estate.Shrinks

variable {e e' e'' : Estate} {P : Fixture → Prop}

theorem refl (e : Estate) (P : Fixture → Prop) : e.Shrinks e P := fun _ => .inl rfl

theorem trans (h : e.Shrinks e' P) (h' : e'.Shrinks e'' P) : e.Shrinks e'' P := by
  intro f
  rcases h' f with hf | hf
  · rw [hf]
    exact h f
  · exact .inr hf

theorem of_settles {α : Type} {done : Estate} {g : Fixture} {r : Except Error α}
    (h : Settles done e r e') (hdone : done.holder = Function.update e.holder g none) (hg : P g) :
    e.Shrinks e' P := by
  intro f
  rcases h with rfl | ⟨-, rfl⟩
  · rw [hdone]
    by_cases hf : f = g
    · subst hf
      exact .inr ⟨Function.update_self .., hg⟩
    · exact .inl (Function.update_of_ne hf ..)
  · exact .inl rfl

end Estate.Shrinks

section

variable {x : Bridge} {b : Binding} {e e' : Estate} {r : Except Error Unit}

/-- The copy and its service go by name. -/
theorem Duplicate.exec_uninstall
    (h : (Duplicate.uninstall b).run.Exec (Estate.Serves x .unmount) e r e') :
    e.Shrinks e' (⟨.duplicate, b⟩ : BoundProvider).Reaches := by
  have hservice : ∀ {e e' : Estate} {r : Except Error Unit},
      (do let _ ← deleteService b.namespaceName (Clone.serviceName b.target.name b.container) :
        Work Unit).run.Exec (Estate.Serves x .unmount) e r e' →
      e.Shrinks e' (⟨.duplicate, b⟩ : BoundProvider).Reaches := by
    intro e e' r h
    have hfront : (⟨.duplicate, b⟩ : BoundProvider).Reaches
        (.object (.service b.namespaceName (Clone.serviceName b.target.name b.container))) :=
      ⟨rfl, rfl, rfl⟩
    rcases Attempt.exec_bind.mp h with ⟨_, e₁, hdelete, hrest⟩ | ⟨_, hdelete, -⟩
    · obtain ⟨-, rfl⟩ := Attempt.exec_pure.mp hrest
      exact .of_settles (Prog.exec_perform.mp hdelete) (Estate.holder_put ..) hfront
    · exact .of_settles (Prog.exec_perform.mp hdelete) (Estate.holder_put ..) hfront
  unfold Duplicate.uninstall at h
  cases hc : b.target.kind.controller? with
  | none =>
    rw [hc] at h
    exact hservice h
  | some c =>
    rw [hc] at h
    have hcopy : (⟨.duplicate, b⟩ : BoundProvider).Reaches
        (.object (.workload c b.namespaceName (Clone.workloadName b.target.name))) :=
      ⟨rfl, hc, rfl, rfl⟩
    rcases Attempt.exec_bind.mp h with ⟨_, e₁, hdelete, hrest⟩ | ⟨_, hdelete, -⟩
    · exact .trans (.of_settles (Prog.exec_perform.mp hdelete) (Estate.holder_put ..) hcopy)
        (hservice hrest)
    · exact .of_settles (Prog.exec_perform.mp hdelete) (Estate.holder_put ..) hcopy

section

variable (he : e.undisturbed = true)

include he

/-- A pod that is asked for by name has this name. -/
theorem Binding.exec_pods {errand : Errand} {r : Except Error (List Pod)}
    (h : b.pods.run.Exec (Estate.Serves x errand) e r e') :
    e' = e ∧ ∀ pods, r = .ok pods → b.target.kind = .pod →
      ∀ pod ∈ pods, pod.name = b.target.name := by
  refine ⟨b.looks_pods.exec he h, ?_⟩
  rintro pods rfl hkind pod hpod
  rcases Attempt.exec_bind.mp h with ⟨found, e₁, htarget, hrest⟩ | ⟨_, -, hr⟩
  · obtain ⟨hpods, -⟩ := Attempt.exec_pure.mp hrest
    cases hpods
    unfold Binding.targetPods podsForWorkload at htarget
    rw [hkind] at htarget
    rcases Attempt.exec_bind.mp htarget with ⟨one, e₂, hget, hrest⟩ | ⟨_, -, hr⟩
    · obtain ⟨hfound, -⟩ := Attempt.exec_pure.mp hrest
      cases hfound
      cases one with
      | none => cases hpod
      | some one =>
        obtain rfl := List.mem_singleton.mp hpod
        exact (Prog.exec_perform.mp hget).2 _ rfl
    · cases hr
  · cases hr

/-- A configuration that was read is the one that the sidecar has. -/
theorem Binding.exec_currentConfig {errand : Errand} {pod : Pod} {config : Carrier.Config}
    (h : (b.currentConfig pod).run.Exec (Estate.Serves x errand) e (.ok (some config)) e') :
    e.config? (b.sidecar pod) = some config := by
  rcases Attempt.exec_bind.mp h with ⟨found, e₁, hread, hrest⟩ | ⟨_, -, hr⟩
  · obtain ⟨hconfig, -⟩ := Attempt.exec_pure.mp hrest
    obtain ⟨document, hfound, hparse⟩ :=
      Option.bind_eq_some_iff.mp (Except.ok.inj hconfig).symm
    have hstored := (Estate.Serves.readConfig he (Prog.exec_perform.mp hread)).2 document
      (congrArg Except.ok hfound)
    rw [Estate.config?, hstored, Option.bind_some, hparse]
  · cases hr

/-- The routes that go are those of the bridge. -/
theorem Sidecar.exec_uninstallEach (pods : List Pod)
    (h : (Sidecar.uninstallEach b pods).run.Exec (Estate.Serves x .unmount) e r e') :
    e.Shrinks e' fun f => ∃ pod ∈ pods, f = .route (b.sidecar pod) b.bridge := by
  induction pods generalizing e with
  | nil =>
    obtain ⟨-, rfl⟩ := Attempt.exec_pure.mp h
    exact .refl _ _
  | cons pod rest ih =>
    have hrest : ∀ {e : Estate}, e.undisturbed = true →
        (Sidecar.uninstallEach b rest).run.Exec (Estate.Serves x .unmount) e r e' →
        e.Shrinks e' fun f => ∃ p ∈ pod :: rest, f = .route (b.sidecar p) b.bridge := by
      intro e he h f
      rcases ih he h f with hf | ⟨hf, p, hp, hroute⟩
      · exact .inl hf
      · exact .inr ⟨hf, p, .tail _ hp, hroute⟩
    unfold Sidecar.uninstallEach at h
    split at h
    · rcases Attempt.exec_bind.mp h with ⟨current, e₁, hcurrent, hgo⟩ | ⟨_, hcurrent, -⟩
      · obtain rfl := (b.looks_currentConfig pod).exec he hcurrent
        cases current with
        | none => exact hrest he hgo
        | some config =>
          have hconfig := Binding.exec_currentConfig he hcurrent
          dsimp only at hgo
          split at hgo
          · have hpush : ∀ {r : Except Error Unit} {e₂ : Estate},
                (b.pushConfig pod (config.withoutBridge b.bridge)).run.Exec
                  (Estate.Serves x .unmount) e₁ r e₂ → e₁.Shrinks e₂ fun f =>
                    ∃ p ∈ pod :: rest, f = .route (b.sidecar p) b.bridge := by
              intro r e₂ h
              exact .of_settles (Prog.exec_perform.mp h)
                (Estate.configured_withoutBridge hconfig x b.bridge) ⟨pod, .head _, rfl⟩
            rcases Attempt.exec_bind.mp hgo with ⟨_, e₂, h, hgo⟩ | ⟨_, h, -⟩
            · exact (hpush h).trans (hrest ((Estate.exec_undisturbed h).trans he) hgo)
            · exact hpush h
          · exact hrest he hgo
      · obtain rfl := (b.looks_currentConfig pod).exec he hcurrent
        exact .refl _ _
    · exact hrest he h

theorem Sidecar.exec_uninstall
    (h : (Sidecar.uninstall b).run.Exec (Estate.Serves x .unmount) e r e') :
    e.Shrinks e' (⟨.sidecar, b⟩ : BoundProvider).Reaches := by
  rcases Attempt.exec_bind.mp h with ⟨pods, e₁, hpods, heach⟩ | ⟨_, hpods, -⟩
  · obtain ⟨rfl, hnames⟩ := Binding.exec_pods he hpods
    intro f
    refine (Sidecar.exec_uninstallEach he pods heach f).imp_right ?_
    rintro ⟨hf, pod, hpod, rfl⟩
    exact ⟨hf, rfl, rfl, rfl, fun hkind => hnames pods rfl hkind pod hpod, rfl⟩
  · obtain ⟨rfl, -⟩ := Binding.exec_pods he hpods
    exact .refl _ _

end

/-! Everything within reach can go. -/

theorem Duplicate.uninstall_takes {f : Fixture}
    (hf : (⟨.duplicate, b⟩ : BoundProvider).Reaches f) (e : Estate) :
    ∃ e', (Duplicate.uninstall b).run.Exec (Estate.Serves x .unmount) e (.ok ()) e' ∧
      e' f = none := by
  let service : Asset :=
    .service b.namespaceName (Clone.serviceName b.target.name b.container)
  have hservice : ∀ e : Estate,
      (do let _ ← deleteService b.namespaceName (Clone.serviceName b.target.name b.container) :
        Work Unit).run.Exec (Estate.Serves x .unmount) e (.ok ()) (e.put service none) := by
    intro e
    exact Attempt.exec_ok (a := true) (Prog.exec_perform.mpr (.inl rfl))
      (Attempt.exec_pure.mpr ⟨rfl, rfl⟩)
  unfold Duplicate.uninstall
  cases hc : b.target.kind.controller? with
  | none =>
    refine ⟨_, hservice e, ?_⟩
    rcases f with (⟨c, ns, name⟩ | ⟨ns, name⟩) | ⟨id, n⟩
    · cases hc.symm.trans hf.2.1
    · obtain ⟨-, rfl, rfl⟩ := hf
      exact Estate.put_self ..
    · cases hf.1
  | some c =>
    let copy : Asset := .workload c b.namespaceName (Clone.workloadName b.target.name)
    refine ⟨(e.put copy none).put service none, ?_, ?_⟩
    · exact Attempt.exec_ok (a := true) (Prog.exec_perform.mpr (.inl rfl)) (hservice _)
    · rcases f with (⟨c', ns, name⟩ | ⟨ns, name⟩) | ⟨id, n⟩
      · obtain ⟨-, hc', rfl, rfl⟩ := hf
        cases hc.symm.trans hc'
        rw [Estate.put_of_ne (by simp [service])]
        exact Estate.put_self ..
      · obtain ⟨-, rfl, rfl⟩ := hf
        exact Estate.put_self ..
      · cases hf.1

/-- A pod of the given name whose container runs. -/
def Kube.Pod.running (name container : String) : Pod where
  metadata := { Kube.Metadata.empty with name := some name }
  spec := none
  status := some {
    phase := some "Running"
    podIP := none
    containerStatuses := some [{
      name := container
      ready := true
      started := some true
      state := some ⟨some ⟨some ⟨0, 0⟩⟩, []⟩
      other := [] }]
    other := [] }

theorem Kube.Pod.isReady_running (name container : String) :
    (Pod.running name container).isReady container = true := by
  simp [Pod.running, Pod.isReady, Kube.ContainerStatus.isHealthy]

/-- A workload that selects its pods by one label. -/
def Kube.Workload.labelled : Workload where
  metadata := .empty
  spec := some {
    replicas := none
    selector := ⟨some (SortedMap.ofList [("app", "app")]), none⟩
    template := default
    other := [] }
  status := none

/-- Any pod may be one of a controller, and the pod of a name is the target of that name. -/
theorem Binding.targetPods_find {errand : Errand} {pod : Pod}
    (hlive : pod.metadata.deletionTimestamp = none)
    (hpod : b.target.kind = .pod → pod.name = b.target.name) (e : Estate) :
    b.targetPods.run.Exec (Estate.Serves x errand) e (.ok (some [pod])) e := by
  unfold Binding.targetPods podsForWorkload
  cases hc : b.target.kind.controller? with
  | none =>
    have hkind : b.target.kind = .pod := by
      cases hk : b.target.kind <;> rw [hk] at hc <;> first | rfl | cases hc
    refine Attempt.exec_ok (a := some pod) (Prog.exec_perform.mpr ⟨rfl, ?_⟩)
      (Attempt.exec_pure.mpr ⟨rfl, rfl⟩)
    intro found hfound
    cases hfound
    exact hpod hkind
  | some c =>
    refine Attempt.exec_ok (a := some Kube.Workload.labelled) (Prog.exec_perform.mpr rfl) ?_
    refine Attempt.exec_ok (a := [pod]) (Prog.exec_perform.mpr rfl) ?_
    refine Attempt.exec_pure.mpr ⟨?_, rfl⟩
    simp [hlive]

theorem Binding.pods_find {errand : Errand} {pod : Pod}
    (hlive : pod.metadata.deletionTimestamp = none)
    (hpod : b.target.kind = .pod → pod.name = b.target.name) (e : Estate) :
    b.pods.run.Exec (Estate.Serves x errand) e (.ok [pod]) e :=
  Attempt.exec_ok (Binding.targetPods_find hlive hpod e) (Attempt.exec_pure.mpr ⟨rfl, rfl⟩)

/-- A configuration that stands can be read. -/
theorem Binding.currentConfig_find {errand : Errand} {pod : Pod} {config : Carrier.Config}
    (h : e.config? (b.sidecar pod) = some config) :
    (b.currentConfig pod).run.Exec (Estate.Serves x errand) e (.ok (some config)) e := by
  obtain ⟨document, hdocument, hparse⟩ := Option.bind_eq_some_iff.mp h
  refine Attempt.exec_ok (a := some document)
    (Prog.exec_perform.mpr ⟨fun _ => hdocument, (Estate.found_eq hdocument).symm⟩) ?_
  exact Attempt.exec_pure.mpr ⟨congrArg Except.ok hparse.symm, rfl⟩

theorem Sidecar.uninstall_takes {f : Fixture} (hf : (⟨.sidecar, b⟩ : BoundProvider).Reaches f)
    (hstands : e f ≠ none) :
    ∃ e', (Sidecar.uninstall b).run.Exec (Estate.Serves x .unmount) e (.ok ()) e' ∧
      e' f = none := by
  rcases f with (⟨c, ns, name⟩ | ⟨ns, name⟩) | ⟨id, n⟩
  · cases hf.1
  · cases hf.1
  · obtain ⟨-, hns, hcontainer, hpod, rfl⟩ := hf
    let pod := Pod.running id.pod b.container
    have hid : b.sidecar pod = id := by
      cases id
      cases hns
      cases hcontainer
      rfl
    have hroutes : e.routes (b.sidecar pod) b.bridge = true := by
      by_contra hnone
      rw [hid] at hnone
      exact hstands (if_neg hnone)
    obtain ⟨config, hconfig, hhas⟩ := (Option.any_eq_true _ _).mp hroutes
    let written := (config.withoutBridge b.bridge).toYaml
    have hlive : pod.metadata.deletionTimestamp = none := rfl
    refine ⟨e.configured x .unmount (b.sidecar pod) written, ?_, ?_⟩
    · refine Attempt.exec_ok (Binding.pods_find hlive hpod e) ?_
      unfold Sidecar.uninstallEach
      rw [if_pos (Kube.Pod.isReady_running _ _)]
      refine Attempt.exec_ok (Binding.currentConfig_find hconfig) ?_
      dsimp only
      rw [if_pos hhas]
      exact Attempt.exec_ok (a := ()) (Prog.exec_perform.mpr (.inl rfl))
        (Attempt.exec_pure.mpr ⟨rfl, rfl⟩)
    · rw [Estate.configured_withoutBridge hconfig, hid]
      exact Function.update_self ..

end

/-- What an uninstall changes is taken away, and was within reach. -/
theorem BoundProvider.exec_uninstall {q : BoundProvider} {x : Bridge} {e e' : Estate}
    {r : Except Error Unit} (hq : q.provider = .sidecar ∨ q.provider = .duplicate)
    (he : e.undisturbed = true)
    (h : (q.provider.uninstall q.binding).run.Exec (Estate.Serves x .unmount) e r e') :
    e.Shrinks e' q.Reaches := by
  obtain ⟨provider, binding⟩ := q
  rcases hq with rfl | rfl
  · exact Sidecar.exec_uninstall he h
  · exact Duplicate.exec_uninstall h

/-- What stands within reach of an uninstall may be taken away by it. -/
theorem BoundProvider.uninstall_takes {q : BoundProvider} {x : Bridge} {e : Estate} {f : Fixture}
    (hq : q.provider = .sidecar ∨ q.provider = .duplicate) (hf : q.Reaches f)
    (hstands : e f ≠ none) :
    ∃ e', (q.provider.uninstall q.binding).run.Exec (Estate.Serves x .unmount) e (.ok ()) e' ∧
      e' f = none := by
  obtain ⟨provider, binding⟩ := q
  rcases hq with rfl | rfl
  · exact Sidecar.uninstall_takes hf hstands
  · exact Duplicate.uninstall_takes hf e

end BridgeOperator
