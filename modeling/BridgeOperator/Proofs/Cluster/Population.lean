import BridgeOperator.Proofs.Cluster.Selection
import BridgeOperator.Proofs.Provider.Selectors
import Mathlib.Data.List.Nodup

/-!
The pods of a workload among all those of its namespace. A workload counts the pods that satisfy its
whole selector, while the query for them carries the labels that the selector asks for and none of
its requirements. What the query brings is therefore what the workload counts exactly as long as the
requirements make no difference for any pod that is there (`owned_iff_none_misjudged`).
-/

namespace BridgeOperator

open Kube (Controller LabelSelector Pod Workload)

def Kube.Pod.labels (p : Pod) : SortedMap String := p.metadata.labels.getD ∅

/-- The selector's labels alone, without its requirements, misjudge a pod with such labels. -/
inductive Kube.LabelSelector.Misjudged (s : LabelSelector) (labels : SortedMap String) : Prop
  /-- It has the labels, but a requirement tells it apart. -/
  | foreign (hasks : s.matchLabels.getD ∅ ≠ ∅)
      (hlabels : ∀ k v, (s.matchLabels.getD ∅).get? k = some v → labels.get? k = some v)
      {r : Kube.Requirement} (hr : r ∈ s.matchExpressions.getD []) (hfails : r.holds labels = false)
  /-- It satisfies the requirements, and there are no labels to look for. -/
  | missed (hasks : s.matchLabels.getD ∅ = ∅)
      (hholds : ∀ r ∈ s.matchExpressions.getD [], r.holds labels = true)

theorem Kube.LabelSelector.not_misjudged_iff {s : LabelSelector} {labels : SortedMap String} :
    ¬ s.Misjudged labels ↔
      (s.holds labels = true ↔ s.matchLabels.getD ∅ ≠ ∅ ∧
        ∀ k v, (s.matchLabels.getD ∅).get? k = some v → labels.get? k = some v) := by
  rw [holds_iff]
  by_cases hasks : s.matchLabels.getD ∅ = ∅
  · have hall : ∀ k v, (s.matchLabels.getD ∅).get? k = some v → labels.get? k = some v := by
      intro k v hentry
      rw [hasks] at hentry
      cases hentry
    constructor
    · intro h
      exact ⟨fun hholds => absurd (.missed hasks hholds.2) h, fun hboth => absurd hasks hboth.1⟩
    · rintro h (⟨hne, -, -, -⟩ | ⟨-, hholds⟩)
      · exact hne hasks
      · exact (h.mp ⟨hall, hholds⟩).1 hasks
  · constructor
    · intro h
      refine ⟨fun hholds => ⟨hasks, hholds.1⟩, fun hboth => ⟨hboth.2, fun r hr => ?_⟩⟩
      by_contra hfails
      exact h (.foreign hasks hboth.2 hr (Bool.eq_false_iff.mpr hfails))
    · rintro h (⟨-, hlabels, hr, hfails⟩ | ⟨hnone, -⟩)
      · rw [(h.mpr ⟨hasks, hlabels⟩).2 _ hr] at hfails
        cases hfails
      · exact hasks hnone

namespace Cluster

/-- The pod is in the namespace and is not being deleted. -/
structure Lives (cl : Cluster) (ns : String) (pod : Pod) : Prop where
  listed : pod ∈ cl.pods.values
  placed : pod.metadata.namespaceName.getD "" = ns
  staying : pod.metadata.deletionTimestamp = none

/-- The pod lives, and the workload counts it as its own by its whole selector. -/
structure Owns (cl : Cluster) (ns : String) (w : Workload) (pod : Pod) : Prop where
  lives : cl.Lives ns pod
  selected : ∃ s, w.spec.map (·.selector) = some s ∧ s.holds pod.labels = true

/-- The labels that the workload asks for can stand in a query. -/
def Askable (w : Workload) : Prop :=
  ∀ s, w.spec.map (·.selector) = some s → PlainLabels (s.matchLabels.getD ∅)

variable {cl : Cluster} {ns : String} {w : Workload} {pod : Pod} {ref : WorkloadRef}
  {c : Controller}

/-- Pods that are stored under their names are listed once. -/
theorem Indexed.nodup_pods (h : cl.Indexed) : cl.pods.values.Nodup := by
  have hkeys : cl.pods.values.map (fun p => key (p.metadata.namespaceName.getD "") p.name) =
      cl.pods.toList.map (·.1) := by
    unfold SortedMap.values
    rw [List.map_map]
    exact List.map_congr_left fun e he => (h.keyed he).symm
  refine List.Nodup.of_map (fun p => key (p.metadata.namespaceName.getD "") p.name) ?_
  rw [hkeys]
  exact cl.pods.nodup_keys

theorem Indexed.nodup_podsOf (h : cl.Indexed) (ns : String) (w : Workload) :
    (cl.podsOf ns w).Nodup := by
  unfold podsOf
  split
  · exact List.nodup_nil
  · exact (h.nodup_pods.filter _).filter _

/-- The pods that are found are those with the labels that the selector asks for, if it asks for
any. -/
theorem mem_podsOf_iff (h : Askable w) : pod ∈ cl.podsOf ns w ↔
    cl.Lives ns pod ∧ ∃ s, w.spec.map (·.selector) = some s ∧ s.matchLabels.getD ∅ ≠ ∅ ∧
      ∀ k v, (s.matchLabels.getD ∅).get? k = some v → pod.labels.get? k = some v := by
  rw [mem_podsOf]
  constructor
  · rintro ⟨labels, hlabels, hne, hsel, hstays⟩
    obtain ⟨spec, hspec, hmatch⟩ := Option.bind_eq_some_iff.mp hlabels
    have hs : w.spec.map (·.selector) = some spec.selector := by rw [hspec]; rfl
    have hdefault : spec.selector.matchLabels.getD ∅ = labels := by rw [hmatch]; rfl
    have hplain := h _ hs
    rw [hdefault] at hplain
    obtain ⟨hlisted, hplaced, hholds⟩ := (mem_selectPods hplain hne).mp hsel
    refine ⟨⟨hlisted, hplaced, hstays⟩, _, hs, ?_, ?_⟩
    · rw [hdefault]
      exact SortedMap.isEmpty_eq_false_iff.mp hne
    · rw [hdefault]
      exact (LabelSelector.holds_iff.mp hholds).1
  · rintro ⟨hlives, s, hs, hne, hlabels⟩
    obtain ⟨spec, hspec, rfl⟩ := Option.map_eq_some_iff.mp hs
    cases hmatch : spec.selector.matchLabels with
    | none => exact absurd (by rw [hmatch]; rfl) hne
    | some labels =>
      have hplain := h _ hs
      rw [hmatch, Option.getD_some] at hne hlabels hplain
      have hne := SortedMap.isEmpty_eq_false_iff.mpr hne
      refine ⟨labels, by rw [hspec]; exact hmatch, hne, ?_, hlives.staying⟩
      exact (mem_selectPods hplain hne).mpr ⟨hlives.listed, hlives.placed,
        LabelSelector.holds_iff.mpr ⟨hlabels, fun r hr => absurd hr List.not_mem_nil⟩⟩

theorem carryOut_workload (hc : ref.kind.controller? = some c)
    (hw : (cl.workloads c).get? (key ns ref.name) = some w) :
    (cl.calm.carryOut (podsForWorkload ns ref)).1 = .ok (some (cl.podsOf ns w)) := by
  rw [carryOut_selected hc, hw]
  rfl

/-- **Pods of a workload.** Each pod is found once, and what is found is what the workload owns
exactly if no pod that lives in the namespace is misjudged by its labels alone. -/
theorem owned_iff_none_misjudged (hindexed : cl.Indexed) (hc : ref.kind.controller? = some c)
    (hw : (cl.workloads c).get? (key ns ref.name) = some w) (hask : Askable w) :
    ∃ pods, (cl.calm.carryOut (podsForWorkload ns ref)).1 = .ok (some pods) ∧ pods.Nodup ∧
      ((∀ pod, pod ∈ pods ↔ cl.Owns ns w pod) ↔
        ∀ s, w.spec.map (·.selector) = some s →
          ∀ pod, cl.Lives ns pod → ¬ s.Misjudged pod.labels) := by
  refine ⟨cl.podsOf ns w, carryOut_workload hc hw, hindexed.nodup_podsOf ns w, ?_⟩
  constructor
  · intro h s hs pod hlives
    rw [LabelSelector.not_misjudged_iff]
    have hpod := h pod
    rw [mem_podsOf_iff hask] at hpod
    constructor
    · intro hholds
      obtain ⟨-, s', hs', hfound⟩ := hpod.mpr ⟨hlives, s, hs, hholds⟩
      obtain rfl := Option.some.inj (hs.symm.trans hs')
      exact hfound
    · intro hfound
      obtain ⟨-, s', hs', hholds⟩ := hpod.mp ⟨hlives, s, hs, hfound⟩
      obtain rfl := Option.some.inj (hs.symm.trans hs')
      exact hholds
  · intro h pod
    rw [mem_podsOf_iff hask]
    constructor
    · rintro ⟨hlives, s, hs, hfound⟩
      exact ⟨hlives, s, hs, (LabelSelector.not_misjudged_iff.mp (h s hs pod hlives)).mpr hfound⟩
    · rintro ⟨hlives, s, hs, hholds⟩
      exact ⟨hlives, s, hs, (LabelSelector.not_misjudged_iff.mp (h s hs pod hlives)).mp hholds⟩

end Cluster

namespace Sample

/-- All of the shop but its canary. -/
def stable : LabelSelector :=
  ⟨some (.ofList [("app", "shop")]), some [⟨"tier", "NotIn", some ["canary"]⟩]⟩

def labelledPod (name : String) (labels : List (String × String)) : Pod where
  metadata :=
    { Kube.Metadata.empty with
      name := some name
      namespaceName := some "default"
      labels := some (.ofList labels) }
  spec := none
  status := none

def regular : Pod := labelledPod "shop-1" [("app", "shop")]
def canary : Pod := labelledPod "canary" [("app", "shop"), ("tier", "canary")]

/-- The deployment of the shop among some pods. -/
def among (pods : List Pod) : Cluster :=
  { Cluster.empty ⟨0, 0⟩ with
    pods := .ofList (pods.map fun p => (Cluster.key "default" p.name, p))
    deployments := .ofList [(Cluster.key "default" "shop", selecting stable)] }

theorem indexed_among {pods : List Pod}
    (h : ∀ p ∈ pods, p.metadata.namespaceName = some "default" ∧ '/' ∉ p.name.toList) :
    (among pods).Indexed where
  keyed he := by
    obtain ⟨p, hp, heq⟩ := List.mem_map.mp (SortedMap.mem_ofList he)
    obtain ⟨rfl, rfl⟩ := Prod.mk.inj heq
    rw [(h p hp).1]
    rfl
  plain he := by
    obtain ⟨p, hp, heq⟩ := List.mem_map.mp (SortedMap.mem_ofList he)
    obtain ⟨rfl, rfl⟩ := Prod.mk.inj heq
    rw [(h p hp).1]
    exact ⟨by decide, (h p hp).2⟩

theorem askable_stable : Cluster.Askable (selecting stable) := by
  rintro s hs e he
  obtain rfl := Option.some.inj hs
  obtain rfl := List.mem_singleton.mp he
  decide

theorem not_misjudged_regular : ¬ stable.Misjudged regular.labels := by
  rintro (⟨-, -, hr, hfails⟩ | ⟨hnone, -⟩)
  · obtain rfl := List.mem_singleton.mp hr
    exact absurd hfails (by decide)
  · exact absurd hnone (by decide)

end Sample

namespace Cluster

open Sample in
theorem owned_iff_none_misjudged_shop : ∃ pods,
    ((among [regular]).calm.carryOut (podsForWorkload "default" ⟨.deployment, "shop"⟩)).1 =
      .ok (some pods) ∧ pods.Nodup ∧
    ∀ pod, pod ∈ pods ↔ (among [regular]).Owns "default" (selecting stable) pod := by
  have hindexed : (among [regular]).Indexed := indexed_among (by decide)
  have hstored : ((among [regular]).workloads .deployment).get? (key "default" "shop") =
      some (selecting stable) := rfl
  obtain ⟨pods, hpods, hnodup, hiff⟩ :=
    @owned_iff_none_misjudged _ "default" _ ⟨.deployment, "shop"⟩ _ hindexed rfl hstored
      askable_stable
  refine ⟨pods, hpods, hnodup, hiff.mpr fun s hs pod hlives => ?_⟩
  obtain rfl := Option.some.inj hs
  obtain rfl := List.mem_singleton.mp hlives.listed
  exact not_misjudged_regular

open Sample in
/-- The canary, which the deployment excludes, is found among its pods. -/
theorem not_always_owned : ¬ ∀ (cl : Cluster) (ns : String) (ref : WorkloadRef) (c : Controller)
    (w : Workload), cl.Indexed → ref.kind.controller? = some c →
      (cl.workloads c).get? (key ns ref.name) = some w → Askable w →
        ∃ pods, (cl.calm.carryOut (podsForWorkload ns ref)).1 = .ok (some pods) ∧ pods.Nodup ∧
          ∀ pod, pod ∈ pods ↔ cl.Owns ns w pod := by
  intro hall
  obtain ⟨pods, hpods, -, howns⟩ := hall (among [regular, canary]) "default"
    ⟨.deployment, "shop"⟩ .deployment (selecting stable) (indexed_among (by decide)) rfl rfl
    askable_stable
  rw [carryOut_workload rfl rfl] at hpods
  obtain rfl := Option.some.inj (Except.ok.inj hpods)
  have hlabels : ∀ k v, (stable.matchLabels.getD ∅).get? k = some v →
      canary.labels.get? k = some v := by
    intro k v hentry
    obtain ⟨rfl, rfl⟩ := Prod.mk.inj (List.mem_singleton.mp (SortedMap.mem_of_get? hentry))
    rfl
  have hfound : canary ∈ (among [regular, canary]).podsOf "default" (selecting stable) :=
    (mem_podsOf_iff askable_stable).mpr ⟨⟨.head _, rfl, rfl⟩, stable, rfl, by decide, hlabels⟩
  obtain ⟨-, s, hs, hholds⟩ := (howns canary).mp hfound
  obtain rfl := Option.some.inj hs
  exact absurd hholds (by decide)

end Cluster
end BridgeOperator
