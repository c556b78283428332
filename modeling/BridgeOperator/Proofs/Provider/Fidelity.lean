import BridgeOperator.Proofs.Provider.Selectors

/-!
What a copy has of its target. A copy is made by changes deep inside the target's spec, so what is
said of it is said of the whole record: apart from the fields that are named, it is the target's
(`Binding.CopyOf`).
-/

namespace BridgeOperator

open Kube (Container Controller Metadata PodTemplate Workload WorkloadSpec)

namespace Clone

/-- An element is put in place of the first one with a property. -/
theorem updateFirst_append {α : Type} {p : α → Bool} {f : α → α} {before after : List α} {a : α}
    (hbefore : ∀ d ∈ before, p d = false) (ha : p a = true) :
    updateFirst p f (before ++ a :: after) = before ++ f a :: after := by
  induction before with
  | nil => simp [updateFirst, ha]
  | cons d before ih =>
    rw [List.cons_append, updateFirst, hbefore d (.head _), ih fun e he => hbefore e (.tail _ he)]
    rfl

end Clone

namespace Binding

variable (b : Binding)

/-- The metadata of a copy: its name and namespace, labels with marked values and two of the
operator's, and the annotations that are not about the one object. There is nothing else. -/
structure CopiesMetadata (base copy : Metadata) : Prop where
  only : copy = { Metadata.empty with
    name := some (b.target.name ++ "-gefyra")
    namespaceName := some b.namespaceName
    labels := copy.labels
    annotations := copy.annotations }
  labels : ∃ labels, copy.labels = some labels ∧ ∀ k, labels.get? k =
    if k = Label.bridge then some b.bridge
    else if k = Label.managedBy then some Label.operator
    else ((base.labels.getD ∅).get? k).map (· ++ "-gefyra")
  annotations : ∀ k, (copy.annotations.getD ∅).get? k =
    if k ∈ Clone.strippedAnnotations then none else (base.annotations.getD ∅).get? k

/-- The first container of the target's name runs Carrier2 and is not probed. It is the same
otherwise, and all the others are where they were. -/
def CopiesContainers (containers copies : List Container) : Prop :=
  ∃ before c after command, containers = before ++ c :: after ∧
    (∀ d ∈ before, d.name ≠ b.container) ∧ c.name = b.container ∧
    copies = before ++ { c with
      image := some b.config.carrierImageRef
      command := some command
      args := none
      livenessProbe := none
      readinessProbe := none
      startupProbe := none } :: after

/-- The pods of a copy have labels of their own, and their containers are copied. -/
structure CopiesTemplate (base copy : PodTemplate) : Prop where
  metadata : ∃ labels, copy.metadata = some { base.metadata.getD .empty with labels } ∧
    ∀ k, (labels.getD ∅).get? k =
      Clone.label? b.bridge ((base.metadata.getD .empty).labels.getD ∅) k
  pods : ∃ pods pods', base.spec = some pods ∧ copy.spec = some pods' ∧
    pods' = { pods with containers := pods'.containers } ∧
    b.CopiesContainers pods.containers pods'.containers

structure CopiesSpec (base copy : WorkloadSpec) : Prop where
  rest : copy = { base with selector := copy.selector, template := copy.template }
  selector : copy.selector = { base.selector with
    matchLabels := base.selector.matchLabels.map (·.mapValues (· ++ "-gefyra")) }
  template : b.CopiesTemplate base.template copy.template

/-- The one workload is a copy of the other, and everything that need not be changed is the
same. -/
structure CopyOf (base copy : Workload) : Prop where
  metadata : b.CopiesMetadata base.metadata copy.metadata
  spec : ∃ spec spec', base.spec = some spec ∧ copy.spec = some spec' ∧ b.CopiesSpec spec spec'
  status : copy.status = none

variable {b} {base : Metadata} {t copy : PodTemplate} {mappings : List PortMapping}

theorem copiesMetadata (b : Binding) (base : Metadata) :
    b.CopiesMetadata base (b.cloneMetadata base) where
  only := rfl
  labels := by
    refine ⟨_, rfl, fun k => ?_⟩
    rw [SortedMap.get?_insert, SortedMap.get?_insert, Clone.get?_markLabels]
    rfl
  annotations := by
    intro k
    let kept := (base.annotations.getD ∅).filter fun k _ => !Clone.strippedAnnotations.contains k
    have hkept : (b.cloneMetadata base).annotations.getD ∅ = kept := by
      show (if kept.isEmpty then none else some kept).getD ∅ = kept
      split
      · next hempty => exact (SortedMap.ext_toList (List.isEmpty_iff.mp hempty)).symm
      · rfl
    rw [hkept, SortedMap.get?_filter]
    cases (base.annotations.getD ∅).get? k <;>
      by_cases hk : k ∈ Clone.strippedAnnotations <;> simp [hk]

theorem copiesContainers {containers : List Container} {c : Container}
    (h : containers.find? (fun c => c.name = b.container) = some c) :
    b.CopiesContainers containers (Clone.updateFirst (fun c => decide (c.name = b.container))
      (b.cloneContainer mappings) containers) := by
  obtain ⟨hname, before, after, rfl, hbefore⟩ := List.find?_eq_some_iff_append.mp h
  exact ⟨before, c, after, _, rfl, by simpa using hbefore, by simpa using hname,
    Clone.updateFirst_append (by simpa using hbefore) hname⟩

theorem copiesTemplate (h : b.cloneTemplate t = .ok (copy, mappings)) :
    b.CopiesTemplate t copy := by
  obtain ⟨pods, container, hpods, hcontainer, -, rfl⟩ := Duplicate.cloneTemplate_eq_ok h
  exact ⟨⟨_, rfl, fun k => Clone.get?_markLabels_insert _ _ k⟩, pods, _, hpods, rfl, rfl,
    copiesContainers hcontainer⟩

end Binding

namespace Duplicate

variable {b : Binding} {c : Controller} {base copy : Workload} {mappings : List PortMapping}

theorem clone_isOk_iff : (∃ made, b.clone c base = .ok made) ↔
    ∃ spec container, base.spec = some spec ∧
      spec.template.container? b.container = some container := by
  constructor
  · rintro ⟨⟨copy, mappings⟩, h⟩
    obtain ⟨spec, template, hspec, htemplate, -⟩ := clone_eq_ok h
    obtain ⟨pods, container, hpods, hcontainer, -⟩ := cloneTemplate_eq_ok htemplate
    exact ⟨spec, container, hspec, Option.bind_eq_some_iff.mpr ⟨pods, hpods, hcontainer⟩⟩
  · rintro ⟨spec, container, hspec, hcontainer⟩
    obtain ⟨copy, mappings, h⟩ :=
      exists_clone c hspec (Option.isSome_iff_exists.mpr ⟨container, hcontainer⟩)
    exact ⟨_, h⟩

theorem copyOf_of_clone (h : b.clone c base = .ok (copy, mappings)) : b.CopyOf base copy := by
  obtain ⟨spec, template, hspec, htemplate, rfl⟩ := clone_eq_ok h
  exact ⟨b.copiesMetadata _, ⟨spec, _, hspec, rfl, rfl, rfl, Binding.copiesTemplate htemplate⟩, rfl⟩

/-- **A copy changes only what it must.** Every workload with the container can be copied, and
whatever is made of it is a copy that has the rest of it as it is. -/
theorem clone_changes_only (b : Binding) (c : Controller) (base : Workload) :
    ((∃ made, b.clone c base = .ok made) ↔ ∃ spec container, base.spec = some spec ∧
      spec.template.container? b.container = some container) ∧
    ∀ copy mappings, b.clone c base = .ok (copy, mappings) → b.CopyOf base copy :=
  ⟨clone_isOk_iff, fun _ _ => copyOf_of_clone⟩

end Duplicate

namespace Sample

def plainContainer (name image : String) : Container :=
  ⟨name, some image, none, some ["-v"], none, some ⟨none, []⟩, none, none, []⟩

/-- A stateful set that bears the operator's labels already and has the container twice. -/
def crowded : Workload where
  metadata := { Metadata.empty with
    uid := some "u1"
    labels := some (.ofList [(Label.bridge, "other"), (Label.managedBy, "helm"), ("app", "shop")])
    annotations := some (.ofList [("deployment.kubernetes.io/revision", "3"), ("team", "web")]) }
  spec := some {
    replicas := some 2
    selector := ⟨some (.ofList [("app", "shop")]), some [⟨"app", "Exists", none⟩]⟩
    template := {
      metadata := some { Metadata.empty with
        labels := some (.ofList [("app", "shop"), (Label.duplicationId, "other")])
        annotations := some (.ofList [("deployment.kubernetes.io/revision", "3")]) }
      spec := some ⟨[plainContainer "proxy" "envoy", plainContainer "app" "shop:1",
        plainContainer "app" "shop:2"], [("volumes", .arr [])]⟩ }
    other := [("serviceName", .str "shop")] }
  status := some ⟨some 1, some 2, none, none, []⟩

end Sample

namespace Duplicate

theorem clone_changes_only_crowded : ∃ copy mappings,
    (Sample.binding Sample.first "shop").clone .statefulSet Sample.crowded = .ok (copy, mappings) ∧
    (Sample.binding Sample.first "shop").CopyOf Sample.crowded copy := by
  obtain ⟨hfound, hcopy⟩ :=
    clone_changes_only (Sample.binding Sample.first "shop") .statefulSet Sample.crowded
  obtain ⟨⟨copy, mappings⟩, hclone⟩ := hfound.mpr ⟨_, Sample.plainContainer "app" "shop:1", rfl, rfl⟩
  exact ⟨copy, mappings, hclone, hcopy copy mappings hclone⟩

end Duplicate
end BridgeOperator
