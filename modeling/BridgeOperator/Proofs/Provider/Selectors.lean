import BridgeOperator.Proofs.Provider.Copies

/-!
The pods of a copy and those of its target. The labels of both follow from the target's template:
a copy marks every value and adds the name of its bridge. Its selector is the target's with marked
values in the equality requirements, while a requirement on a set of values is taken over as it
stands. So a copy and its target each keep to their own pods only for selectors of a certain form
(`Separable`).
-/

namespace BridgeOperator

open Kube (Controller LabelSelector Requirement Workload WorkloadSpec)

/-- The controller of the workload counts the pods that `other` makes as its own. -/
def Kube.Workload.Selects (w other : Workload) : Prop :=
  ∃ s, w.spec.map (·.selector) = some s ∧ s.holds other.podLabels = true

theorem Kube.Workload.selects_iff {w other : Workload} {s : LabelSelector}
    (hselector : w.spec.map (·.selector) = some s) :
    w.Selects other ↔ s.holds other.podLabels = true := by
  constructor
  · rintro ⟨_, hselector', hholds⟩
    cases hselector.symm.trans hselector'
    exact hholds
  · exact fun hholds => ⟨s, hselector, hholds⟩

/-- The pods of the two workloads are kept apart, and the second has its own. -/
structure Kube.Workload.Discerned (base copy : Workload) : Prop where
  own : copy.Selects copy
  base_pods : ¬ copy.Selects base
  copy_pods : ¬ base.Selects copy

theorem Kube.LabelSelector.holds_iff {s : LabelSelector} {labels : SortedMap String} :
    s.holds labels = true ↔
      (∀ k v, (s.matchLabels.getD ∅).get? k = some v → labels.get? k = some v) ∧
        ∀ r ∈ s.matchExpressions.getD [], r.holds labels = true := by
  unfold holds
  rw [Bool.and_eq_true, List.all_eq_true, List.all_eq_true]
  refine and_congr ?_ Iff.rfl
  constructor
  · intro h k v hentry
    exact of_decide_eq_true (h (k, v) (SortedMap.mem_of_get? hentry))
  · intro h e he
    exact decide_eq_true (h e.1 e.2 (SortedMap.get?_of_mem he))

namespace Clone

theorem append_mark_ne (v : String) : v ++ mark ≠ v := by
  intro h
  have hlength := congrArg String.length h
  rw [String.length_append] at hlength
  change v.length + 7 = v.length at hlength
  omega

end Clone

/-! ## Requirements -/

namespace Kube.Requirement

variable {r : Requirement} {labels : SortedMap String}

theorem holds_in (hop : r.operator = "In") :
    r.holds labels = true ↔ ∃ v ∈ r.values.getD [], labels.get? r.key = some v := by
  simp [holds, hop, Option.any_eq_true, and_comm]

theorem holds_notIn (hop : r.operator = "NotIn") :
    r.holds labels = true ↔ ∀ v ∈ r.values.getD [], labels.get? r.key ≠ some v := by
  have hone : r.holds labels = !(labels.get? r.key).any (r.values.getD []).contains := by
    simp [holds, hop]
  rw [hone]
  cases hvalue : labels.get? r.key with
  | none => simp
  | some u =>
    simp only [Option.any_some, Bool.not_eq_true', List.contains_eq_mem, decide_eq_false_iff_not,
      ne_eq, Option.some.injEq]
    exact ⟨fun hu v hv heq => hu (heq ▸ hv), fun h hu => h u hu rfl⟩

theorem holds_exists (hop : r.operator = "Exists") :
    r.holds labels = true ↔ (labels.get? r.key).isSome = true := by
  simp [holds, hop]

theorem holds_doesNotExist (hop : r.operator = "DoesNotExist") :
    r.holds labels = true ↔ labels.get? r.key = none := by
  simp [holds, hop]

theorem operator_of_holds (h : r.holds labels = true) :
    r.operator = "In" ∨ r.operator = "NotIn" ∨ r.operator = "Exists" ∨
      r.operator = "DoesNotExist" := by
  by_contra hnone
  obtain ⟨hin, hnotIn, hexists, hdoesNotExist⟩ : r.operator ≠ "In" ∧ r.operator ≠ "NotIn" ∧
      r.operator ≠ "Exists" ∧ r.operator ≠ "DoesNotExist" := by simpa using hnone
  unfold holds at h
  rw [if_neg hin, if_neg hnotIn, if_neg hexists, if_neg hdoesNotExist] at h
  cases h

/-- A requirement on the target's labels goes for those of the copy as well. A label that has to be
there is still there, but it has another value. -/
structure Survives (bridge : String) (labels : SortedMap String) (r : Requirement) : Prop where
  anyOf : r.operator = "In" → ∃ v ∈ r.values.getD [], Clone.label? bridge labels r.key = some v
  noneOf : r.operator = "NotIn" →
    ∀ v ∈ r.values.getD [], Clone.label? bridge labels r.key ≠ some v
  absent : r.operator = "DoesNotExist" → r.key ≠ Label.duplicationId

theorem holds_copy_iff {bridge : String} {copied : SortedMap String}
    (hcopied : ∀ k, copied.get? k = Clone.label? bridge labels k) (h : r.holds labels = true) :
    r.holds copied = true ↔ r.Survives bridge labels := by
  constructor
  · intro hholds
    refine ⟨fun hop => ?_, fun hop => ?_, fun hop hkey => ?_⟩
    · rw [← hcopied]
      exact (holds_in hop).mp hholds
    · rw [← hcopied]
      exact (holds_notIn hop).mp hholds
    · have hnone := (holds_doesNotExist hop).mp hholds
      rw [hcopied, hkey, Clone.label?, if_pos rfl] at hnone
      cases hnone
  · intro hsurvives
    rcases operator_of_holds h with hop | hop | hop | hop
    · rw [holds_in hop, hcopied]
      exact hsurvives.anyOf hop
    · rw [holds_notIn hop, hcopied]
      exact hsurvives.noneOf hop
    · rw [holds_exists hop, hcopied]
      rw [holds_exists hop] at h
      unfold Clone.label?
      split
      · rfl
      · rwa [Option.isSome_map]
    · rw [holds_doesNotExist hop, hcopied, Clone.label?, if_neg (hsurvives.absent hop),
        (holds_doesNotExist hop).mp h]
      rfl

end Kube.Requirement

/-! ## Selectors -/

namespace Kube.LabelSelector

variable {s : LabelSelector} {labels copied : SortedMap String} {bridge : String}

/-- The selector distinguishes the labels of a copy from those of the target: it asks for the value
of some label, a value it asks for at the key with the name of the bridge is that name, and its
requirements go for the copy. -/
structure Separable (bridge : String) (labels : SortedMap String) (s : LabelSelector) : Prop where
  labelled : ∃ k v, (s.matchLabels.getD ∅).get? k = some v
  named : ∀ v, (s.matchLabels.getD ∅).get? Label.duplicationId = some v → v ++ Clone.mark = bridge
  requirements : ∀ r ∈ s.matchExpressions.getD [], r.Survives bridge labels

theorem get?_cloneSelector (s : LabelSelector) (k : String) :
    ((Binding.cloneSelector s).matchLabels.getD ∅).get? k =
      ((s.matchLabels.getD ∅).get? k).map (· ++ Clone.mark) := by
  unfold Binding.cloneSelector
  cases s.matchLabels with
  | none => rfl
  | some m => exact Clone.get?_markLabels m k

/-- The marked selector holds for the copy's labels. -/
theorem cloneSelector_holds_copy (hcopied : ∀ k, copied.get? k = Clone.label? bridge labels k)
    (h : s.holds labels = true) : (Binding.cloneSelector s).holds copied = true ↔
      (∀ v, (s.matchLabels.getD ∅).get? Label.duplicationId = some v → v ++ Clone.mark = bridge) ∧
        ∀ r ∈ s.matchExpressions.getD [], r.Survives bridge labels := by
  obtain ⟨hlabels, hrequirements⟩ := holds_iff.mp h
  rw [holds_iff]
  refine and_congr ?_ ?_
  · constructor
    · intro hall v hv
      have hentry := hall Label.duplicationId (v ++ Clone.mark) (by rw [get?_cloneSelector, hv]; rfl)
      rw [hcopied, Clone.label?, if_pos rfl] at hentry
      exact (Option.some.inj hentry).symm
    · intro hnamed k v hentry
      rw [get?_cloneSelector] at hentry
      obtain ⟨u, hu, rfl⟩ := Option.map_eq_some_iff.mp hentry
      rw [hcopied, Clone.label?]
      -- The name of the bridge is put in place of a marked value, if there is one at that key.
      split
      · next hk => rw [hnamed u (hk ▸ hu)]
      · rw [hlabels k u hu]
        rfl
  · exact forall₂_congr fun r hr => Requirement.holds_copy_iff hcopied (hrequirements r hr)

/-- The marked selector passes the target's labels only if it asks for no value at all. -/
theorem cloneSelector_holds_base (h : s.holds labels = true) :
    (Binding.cloneSelector s).holds labels = true ↔
      ¬ ∃ k v, (s.matchLabels.getD ∅).get? k = some v := by
  obtain ⟨hlabels, hrequirements⟩ := holds_iff.mp h
  rw [holds_iff]
  constructor
  · rintro ⟨hmarked, -⟩ ⟨k, v, hv⟩
    have hentry := hmarked k (v ++ Clone.mark) (by rw [get?_cloneSelector, hv]; rfl)
    exact Clone.append_mark_ne v (Option.some.inj (hentry.symm.trans (hlabels k v hv)))
  · intro hnone
    refine ⟨fun k v hentry => ?_, hrequirements⟩
    rw [get?_cloneSelector] at hentry
    obtain ⟨u, hu, -⟩ := Option.map_eq_some_iff.mp hentry
    exact absurd ⟨k, u, hu⟩ hnone

/-- The target's own selector passes no copy that the marked one passes. -/
theorem Separable.not_holds_copy (hs : s.Separable bridge labels)
    (hcopied : ∀ k, copied.get? k = Clone.label? bridge labels k) (h : s.holds labels = true) :
    s.holds copied ≠ true := by
  intro hholds
  obtain ⟨k, v, hv⟩ := hs.labelled
  have hentry := (holds_iff.mp hholds).1 k v hv
  rw [hcopied, Clone.label?] at hentry
  split at hentry
  · next hk =>
    refine Clone.append_mark_ne v ?_
    rw [hs.named v (hk ▸ hv)]
    exact Option.some.inj hentry
  · rw [(holds_iff.mp h).1 k v hv] at hentry
    exact Clone.append_mark_ne v (Option.some.inj hentry)

end Kube.LabelSelector

/-! ## Copies -/

namespace Duplicate

variable {b : Binding} {c : Controller} {base copy : Workload} {spec : WorkloadSpec}
  {mappings : List PortMapping}

theorem clone_selects (h : b.clone c base = .ok (copy, mappings)) (hspec : base.spec = some spec)
    (other : Workload) : copy.Selects other ↔
      (Binding.cloneSelector spec.selector).holds other.podLabels = true := by
  obtain ⟨_, template, hspec', -, rfl⟩ := clone_eq_ok h
  cases hspec.symm.trans hspec'
  exact Kube.Workload.selects_iff rfl

theorem exists_clone (c : Controller) (hspec : base.spec = some spec)
    (hcontainer : (spec.template.container? b.container).isSome = true) :
    ∃ copy mappings, b.clone c base = .ok (copy, mappings) := by
  obtain ⟨container, hcontainer⟩ := Option.isSome_iff_exists.mp hcontainer
  unfold Binding.clone Binding.cloneTemplate
  rw [hspec]
  dsimp only
  rw [hcontainer]
  exact ⟨_, _, rfl⟩

/-- **Copies and their pods.** A workload that counts its own pods, and has the container, can be
copied, and the copy and its target keep to their own pods exactly if the selector is separable. -/
theorem discerned_iff_separable (b : Binding) (c : Controller) (hspec : base.spec = some spec)
    (hcontainer : (spec.template.container? b.container).isSome = true)
    (hown : base.Selects base) : ∃ copy mappings, b.clone c base = .ok (copy, mappings) ∧
      (base.Discerned copy ↔ spec.selector.Separable b.bridge base.podLabels) := by
  obtain ⟨copy, mappings, hclone⟩ := exists_clone c hspec hcontainer
  refine ⟨copy, mappings, hclone, ?_⟩
  have hlabel := clone_label hclone
  have hcopy := clone_selects hclone hspec
  have hbase : ∀ other : Workload,
      base.Selects other ↔ spec.selector.holds other.podLabels = true :=
    fun other => Kube.Workload.selects_iff (by rw [hspec]; rfl)
  have hholds := (hbase base).mp hown
  constructor
  · intro hdiscerned
    obtain ⟨hnamed, hrequirements⟩ :=
      (LabelSelector.cloneSelector_holds_copy hlabel hholds).mp ((hcopy copy).mp hdiscerned.own)
    refine ⟨by_contra fun hnone => hdiscerned.base_pods ?_, hnamed, hrequirements⟩
    exact (hcopy base).mpr ((LabelSelector.cloneSelector_holds_base hholds).mpr hnone)
  · intro hseparable
    refine ⟨?_, ?_, ?_⟩
    · refine (hcopy copy).mpr ((LabelSelector.cloneSelector_holds_copy hlabel hholds).mpr ?_)
      exact ⟨hseparable.named, hseparable.requirements⟩
    · intro hselects
      refine (LabelSelector.cloneSelector_holds_base hholds).mp ((hcopy base).mp hselects) ?_
      exact hseparable.labelled
    · intro hselects
      exact hseparable.not_holds_copy hlabel hholds ((hbase copy).mp hselects)

end Duplicate

namespace Sample

/-- The deployment of the shop, with pods of the label `app=shop` that are selected in some way. -/
def selecting (s : LabelSelector) : Workload where
  metadata := .empty
  spec := some {
    replicas := none
    selector := s
    template := {
      metadata := some { Kube.Metadata.empty with labels := some (.ofList [("app", "shop")]) }
      spec := some ⟨[⟨"app", none, none, none, none, none, none, none, []⟩], []⟩ }
    other := [] }
  status := none

def byLabel : LabelSelector :=
  ⟨some (.ofList [("app", "shop")]), some [⟨"app", "Exists", none⟩]⟩

def bySet : LabelSelector := ⟨none, some [⟨"app", "In", some ["shop"]⟩]⟩

theorem byLabel_separable :
    byLabel.Separable first.name (selecting byLabel).podLabels where
  labelled := ⟨"app", "shop", rfl⟩
  named := by
    intro v hv
    cases hv
  requirements := by
    intro r hr
    obtain rfl := List.mem_singleton.mp hr
    exact ⟨nofun, nofun, nofun⟩

end Sample

namespace Duplicate

theorem discerned_iff_separable_shop : ∃ spec copy mappings,
    (Sample.selecting Sample.byLabel).spec = some spec ∧
    (spec.template.container? (Sample.binding Sample.first "shop").container).isSome = true ∧
    (Sample.selecting Sample.byLabel).Selects (Sample.selecting Sample.byLabel) ∧
    (Sample.binding Sample.first "shop").clone .deployment (Sample.selecting Sample.byLabel) =
      .ok (copy, mappings) ∧
    (Sample.selecting Sample.byLabel).Discerned copy := by
  have hown : (Sample.selecting Sample.byLabel).Selects (Sample.selecting Sample.byLabel) :=
    ⟨_, rfl, by decide⟩
  obtain ⟨copy, mappings, hclone, hiff⟩ :=
    discerned_iff_separable (Sample.binding Sample.first "shop") .deployment rfl rfl hown
  exact ⟨_, copy, mappings, rfl, rfl, hown, hclone, hiff.mpr Sample.byLabel_separable⟩

/-- A copy of a deployment that only asks for one of some values selects the deployment's pods. -/
theorem not_always_discerned : ¬ ∀ (b : Binding) (c : Controller) (base : Workload)
    (spec : WorkloadSpec), base.spec = some spec →
      (spec.template.container? b.container).isSome = true →
      (spec.selector.matchLabels.getD ∅ ≠ ∅ ∨ spec.selector.matchExpressions.getD [] ≠ []) →
      base.Selects base →
        ∃ copy mappings, b.clone c base = .ok (copy, mappings) ∧ base.Discerned copy := by
  intro hall
  obtain ⟨copy, mappings, hclone, hdiscerned⟩ := hall (Sample.binding Sample.first "shop")
    .deployment (Sample.selecting Sample.bySet) _ rfl rfl (.inr (by decide)) ⟨_, rfl, by decide⟩
  refine hdiscerned.base_pods ((clone_selects hclone rfl _).mpr ?_)
  decide

end Duplicate
end BridgeOperator
