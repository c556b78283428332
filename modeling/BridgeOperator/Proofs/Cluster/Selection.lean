import BridgeOperator.Cluster.Target
import BridgeOperator.Proofs.Program
import BridgeOperator.Proofs.SortedMap
import BridgeOperator.Provider.Sidecar
import Mathlib.Data.List.Basic

/-!
The pods behind a reference. Nothing that is stored ties a pod to a workload but the labels of the
one and the selector of the other, so a pod may be reached by its own name and by any number of
workloads. The selector travels as a text, and the text means what the labels mean as long as no
label is written with the characters that structure it (`mem_selectPods`).
-/

namespace BridgeOperator

open Kube (Controller LabelSelector Pod Workload)

namespace Cluster

/-! ## Selectors as texts -/

section

variable {labels found : SortedMap String}

/-- No label is written with a character that means something in a selector. -/
def PlainLabels (labels : SortedMap String) : Prop :=
  ∀ e ∈ labels.toList, '=' ∉ e.1.toList ∧ ',' ∉ e.1.toList ∧ ',' ∉ e.2.toList

theorem holdsText_requirement {k v : String} (h : '=' ∉ k.toList) :
    holdsText found (k ++ "=" ++ v).toList = decide (found.get? k = some v) := by
  have hcut : Text.cut '=' (k ++ "=" ++ v).toList = some (k.toList, v.toList) := by
    simpa using Text.cut_append h v.toList
  unfold holdsText
  rw [hcut]
  simp

theorem splitOn_selectorText (h : PlainLabels labels) (hne : labels.isEmpty = false) :
    (Kube.selectorText labels).toList.splitOn ',' =
      labels.toList.map fun e => (e.1 ++ "=" ++ e.2).toList := by
  have hlist : labels.toList ≠ [] := by simpa [SortedMap.isEmpty] using hne
  unfold Kube.selectorText
  rw [String.toList_intercalate, List.map_map]
  refine List.splitOn_intercalate ',' ?_ (by simpa using hlist)
  intro l hl
  obtain ⟨e, he, rfl⟩ := List.mem_map.mp hl
  obtain ⟨-, hkey, hvalue⟩ := h e he
  simp [hkey, hvalue]

/-- The pods of a namespace that carry the labels are those that the text selects. -/
theorem mem_selectPods {cl : Cluster} {ns : String} {pod : Pod} (h : PlainLabels labels)
    (hne : labels.isEmpty = false) :
    pod ∈ cl.selectPods ns (Kube.selectorText labels) ↔ pod ∈ cl.pods.values ∧
      pod.metadata.namespaceName.getD "" = ns ∧
      (LabelSelector.mk (some labels) none).holds (pod.metadata.labels.getD ∅) = true := by
  have hall : ∀ found, (labels.toList.map fun e => (e.1 ++ "=" ++ e.2).toList).all
      (holdsText found) = (LabelSelector.mk (some labels) none).holds found := by
    intro found
    simp only [LabelSelector.holds, Option.getD_some, Option.getD_none, List.all_nil,
      Bool.and_true, List.all_map]
    rw [Bool.eq_iff_iff, List.all_eq_true, List.all_eq_true]
    refine forall₂_congr fun e he => ?_
    rw [Function.comp_apply, holdsText_requirement (h e he).1]
  unfold selectPods
  rw [splitOn_selectorText h hne, List.mem_filter, hall]
  simp

end

/-! ## What a reference leads to -/

/-- The cluster with no faults ahead. -/
def calm (cl : Cluster) : Cluster := { cl with faults := [] }

/-- The pods a reference leads to: the one of its name, or those that its workload selects and that
are not being deleted. -/
inductive Reaches (cl : Cluster) (ns : String) : WorkloadRef → Pod → Prop
  | named {name : String} {pod : Pod} : cl.pods.get? (key ns name) = some pod →
    Reaches cl ns ⟨.pod, name⟩ pod
  | selected {ref : WorkloadRef} {c : Controller} {w : Workload} {labels : SortedMap String}
      {pod : Pod} : ref.kind.controller? = some c →
    (cl.workloads c).get? (key ns ref.name) = some w →
    w.spec.bind (·.selector.matchLabels) = some labels → labels.isEmpty = false →
    pod ∈ cl.selectPods ns (Kube.selectorText labels) → pod.metadata.deletionTimestamp = none →
    Reaches cl ns ref pod

/-- Two references lead to one pod. -/
def Meet (cl : Cluster) (ns : String) (ref ref' : WorkloadRef) : Prop :=
  ∃ pod, cl.Reaches ns ref pod ∧ cl.Reaches ns ref' pod

section

variable {cl cl' : Cluster} {ns : String} {ref ref' : WorkloadRef} {pod pod' : Pod}

/-- How the cluster answers a provider, as a relation. -/
abbrev Answers (c : TargetCall) (w : Cluster) (r : Answer c) (w' : Cluster) : Prop :=
  answerTarget c w = (r, w')

theorem exec_carryOut {α : Type} {work : Work α} {r : Except Error α} :
    work.run.Exec Answers cl r cl' ↔ cl.carryOut work = (r, cl') := Prog.exec_run

theorem carryOut_named (name : String) :
    (cl.calm.carryOut (podsForWorkload ns ⟨.pod, name⟩)).1 =
      .ok ((cl.pods.get? (key ns name)).map fun p => [p]) := rfl

/-- What the cluster answers is gone on with. -/
theorem carryOut_bind {α β : Type} {x : Work α} {f : α → Work β} {a : α}
    (h : cl.carryOut x = (.ok a, cl')) : cl.carryOut (x >>= f) = cl'.carryOut (f a) :=
  exec_carryOut.mp (Attempt.exec_ok (exec_carryOut.mpr h) (exec_carryOut.mpr rfl))

theorem carryOut_getWorkload (c : Controller) (name : String) :
    cl.calm.carryOut (Work.getWorkload c ns name) =
      (.ok ((cl.workloads c).get? (key ns name)), cl.calm) := by
  cases c <;> rfl

/-- The pods of a workload. -/
def podsOf (cl : Cluster) (ns : String) (w : Workload) : List Pod :=
  match (w.spec.bind (·.selector.matchLabels)).filter (!·.isEmpty) with
  | none => []
  | some labels =>
    (cl.selectPods ns (Kube.selectorText labels)).filter (·.metadata.deletionTimestamp.isNone)

theorem carryOut_selected {c : Controller} (hc : ref.kind.controller? = some c) :
    (cl.calm.carryOut (podsForWorkload ns ref)).1 =
      .ok (((cl.workloads c).get? (key ns ref.name)).map (cl.podsOf ns)) := by
  unfold podsForWorkload
  rw [hc]
  dsimp only
  rw [carryOut_bind (carryOut_getWorkload c ref.name)]
  cases (cl.workloads c).get? (key ns ref.name) with
  | none => rfl
  | some w =>
    rw [Option.map_some]
    unfold podsOf
    dsimp only
    cases (w.spec.bind (·.selector.matchLabels)).filter (!·.isEmpty) <;> rfl

theorem mem_podsOf {w : Workload} : pod ∈ cl.podsOf ns w ↔
    ∃ labels, w.spec.bind (·.selector.matchLabels) = some labels ∧ labels.isEmpty = false ∧
      pod ∈ cl.selectPods ns (Kube.selectorText labels) ∧
      pod.metadata.deletionTimestamp = none := by
  unfold podsOf
  cases w.spec.bind (·.selector.matchLabels) with
  | none => simp
  | some labels => cases h : labels.isEmpty <;> simp [Option.filter, h]

/-- The pods that the cluster answers with are those that the reference leads to. -/
theorem mem_podsForWorkload :
    (∃ pods, (cl.calm.carryOut (podsForWorkload ns ref)).1 = .ok (some pods) ∧ pod ∈ pods) ↔
      cl.Reaches ns ref pod := by
  obtain ⟨kind, name⟩ := ref
  have hworkload : ∀ {c : Controller}, kind.controller? = some c →
      ((∃ pods, (cl.calm.carryOut (podsForWorkload ns ⟨kind, name⟩)).1 = .ok (some pods) ∧
        pod ∈ pods) ↔ cl.Reaches ns ⟨kind, name⟩ pod) := by
    intro c hc
    rw [carryOut_selected hc]
    constructor
    · rintro ⟨pods, hpods, hpod⟩
      obtain ⟨w, hw, rfl⟩ := Option.map_eq_some_iff.mp (Except.ok.inj hpods)
      obtain ⟨labels, hlabels, hne, hsel, hlive⟩ := mem_podsOf.mp hpod
      exact .selected hc hw hlabels hne hsel hlive
    · intro h
      cases h with
      | named => cases hc
      | selected hc' hw hlabels hne hsel hlive =>
        obtain rfl := Option.some.inj (hc.symm.trans hc')
        exact ⟨_, by rw [hw]; rfl, mem_podsOf.mpr ⟨_, hlabels, hne, hsel, hlive⟩⟩
  cases kind with
  | deployment => exact hworkload rfl
  | statefulSet => exact hworkload rfl
  | pod =>
    rw [carryOut_named]
    constructor
    · rintro ⟨pods, hpods, hpod⟩
      obtain ⟨p, hp, rfl⟩ := Option.map_eq_some_iff.mp (Except.ok.inj hpods)
      obtain rfl := List.mem_singleton.mp hpod
      exact .named hp
    · intro h
      cases h with
      | named hp => exact ⟨[pod], by rw [hp]; rfl, List.mem_singleton.mpr rfl⟩
      | selected hc => cases hc

end

/-! ## Pods under their names -/

/-- Pods are stored under their own names, in which there is no slash. -/
structure Indexed (cl : Cluster) : Prop where
  keyed : ∀ {k pod}, (k, pod) ∈ cl.pods.toList →
    k = key (pod.metadata.namespaceName.getD "") pod.name
  plain : ∀ {k pod}, (k, pod) ∈ cl.pods.toList →
    '/' ∉ (pod.metadata.namespaceName.getD "").toList ∧ '/' ∉ pod.name.toList

theorem key_inj {ns ns' name name' : String} (hns : '/' ∉ ns.toList) (hname : '/' ∉ name.toList)
    (h : key ns name = key ns' name') : ns' = ns ∧ name' = name := by
  have hlist : ns.toList ++ '/' :: name.toList = ns'.toList ++ '/' :: name'.toList := by
    simpa [key, toString] using congrArg String.toList h
  obtain ⟨hleft, -, hright⟩ := (List.append_cons_inj_of_notMem hns hname).mp hlist
  exact ⟨String.toList_inj.mp hleft.symm, String.toList_inj.mp hright.symm⟩

namespace Indexed

variable {cl : Cluster} {ns name : String} {ref ref' : WorkloadRef} {pod pod' : Pod}
  (h : cl.Indexed)

include h

theorem found (hp : cl.pods.get? (key ns name) = some pod) :
    pod.metadata.namespaceName.getD "" = ns ∧ pod.name = name := by
  have hmem := SortedMap.mem_of_get? hp
  obtain ⟨hns, hname⟩ := h.plain hmem
  obtain ⟨rfl, rfl⟩ := key_inj hns hname (h.keyed hmem).symm
  exact ⟨rfl, rfl⟩

theorem listed (hp : pod ∈ cl.pods.values) :
    cl.pods.get? (key (pod.metadata.namespaceName.getD "") pod.name) = some pod := by
  obtain ⟨⟨k, pod⟩, hmem, rfl⟩ := List.mem_map.mp hp
  rw [← h.keyed hmem]
  exact SortedMap.get?_of_mem hmem

/-- Whatever reference leads to a pod, it is the one of its name. -/
theorem reached (hp : cl.Reaches ns ref pod) : cl.pods.get? (key ns pod.name) = some pod := by
  cases hp with
  | named hget =>
    obtain ⟨-, rfl⟩ := h.found hget
    exact hget
  | selected _ _ _ _ hsel _ =>
    obtain ⟨hlisted, hwhere⟩ := List.mem_filter.mp hsel
    have hns : pod.metadata.namespaceName.getD "" = ns := by
      simp only [Bool.and_eq_true, decide_eq_true_eq] at hwhere
      exact hwhere.1
    rw [← hns]
    exact h.listed hlisted

theorem eq_of_name_eq (hp : cl.Reaches ns ref pod) (hp' : cl.Reaches ns ref' pod')
    (hname : pod.name = pod'.name) : pod = pod' := by
  have hget := h.reached hp
  rw [hname, h.reached hp'] at hget
  exact (Option.some.inj hget).symm

/-- Two pods that are referred to by name are two. -/
theorem eq_of_meet (hmeet : cl.Meet ns ref ref') (hkind : ref.kind = .pod)
    (hkind' : ref'.kind = .pod) : ref = ref' := by
  obtain ⟨pod, hp, hp'⟩ := hmeet
  cases hp with
  | named hget =>
    cases hp' with
    | named hget' =>
      obtain ⟨-, rfl⟩ := h.found hget
      obtain ⟨-, rfl⟩ := h.found hget'
      rfl
    | selected hc =>
      rw [hkind'] at hc
      cases hc
  | selected hc =>
    rw [hkind] at hc
    cases hc

end Indexed

/-! ## The sidecars of a binding -/

/-- The sidecar runs in one of the pods that the cluster finds behind the target. -/
def Configures (cl : Cluster) (q : Binding) (id : ContainerId) : Prop :=
  ∃ pods, (cl.calm.carryOut q.targetPods).1 = .ok (some pods) ∧ ∃ pod ∈ pods, q.sidecar pod = id

/-- Two targets that are not the same and lead to one pod, and the same container in it. -/
structure Overlap (cl : Cluster) (q q' : Binding) : Prop where
  namespaceName : q.namespaceName = q'.namespaceName
  container : q.container = q'.container
  distinct : q.target ≠ q'.target
  workload : q.target.kind ≠ .pod ∨ q'.target.kind ≠ .pod
  meet : cl.Meet q.namespaceName q.target q'.target

section

variable {cl : Cluster} {q q' : Binding} {id : ContainerId}

theorem configures_iff : cl.Configures q id ↔
    ∃ pod, cl.Reaches q.namespaceName q.target pod ∧ q.sidecar pod = id := by
  unfold Configures Binding.targetPods
  constructor
  · rintro ⟨pods, hpods, pod, hpod, hid⟩
    exact ⟨pod, mem_podsForWorkload.mp ⟨pods, hpods, hpod⟩, hid⟩
  · rintro ⟨pod, hreach, hid⟩
    obtain ⟨pods, hpods, hpod⟩ := mem_podsForWorkload.mpr hreach
    exact ⟨pods, hpods, pod, hpod, hid⟩

/-- Targets that are not the same share a sidecar where they overlap. -/
theorem Indexed.shared_iff (h : cl.Indexed) (hne : q.namespaceName = q'.namespaceName →
      q.container = q'.container → q.target ≠ q'.target) :
    (∃ id, cl.Configures q id ∧ cl.Configures q' id) ↔ cl.Overlap q q' := by
  constructor
  · rintro ⟨id, hq, hq'⟩
    obtain ⟨pod, hp, rfl⟩ := configures_iff.mp hq
    obtain ⟨pod', hp', hid⟩ := configures_iff.mp hq'
    obtain ⟨hns, hname, hcontainer⟩ := ContainerId.mk.inj hid
    rw [hns] at hp'
    obtain rfl := h.eq_of_name_eq hp' hp hname
    have hmeet : cl.Meet q.namespaceName q.target q'.target := ⟨_, hp, hp'⟩
    have hdistinct := hne hns.symm hcontainer.symm
    refine ⟨hns.symm, hcontainer.symm, hdistinct, ?_, hmeet⟩
    by_contra hpods
    obtain ⟨hkind, hkind'⟩ := not_or.mp hpods
    exact hdistinct (h.eq_of_meet hmeet (not_not.mp hkind) (not_not.mp hkind'))
  · intro hoverlap
    obtain ⟨pod, hp, hp'⟩ := hoverlap.meet
    refine ⟨q.sidecar pod, configures_iff.mpr ⟨pod, hp, rfl⟩, configures_iff.mpr ⟨pod, ?_, ?_⟩⟩
    · rw [← hoverlap.namespaceName]
      exact hp'
    · unfold Binding.sidecar
      rw [hoverlap.namespaceName, hoverlap.container]

end

end Cluster
end BridgeOperator
