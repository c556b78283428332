import BridgeOperator.Proofs.Provider.Acceptance
import BridgeOperator.Proofs.Provider.Ports

/-!
What the API server takes. It has limits for the lengths of names and of label values, and it wants
a service to have ports. A copy adds to the names and values of its target, and its service has the
ports of the bridge, so both stay within the limits only where there is room for what is added
(`Duplicate.LeavesRoom`). Validation does not look at that.
-/

namespace BridgeOperator

open Kube (Controller LabelSelector Service ServicePort Workload)

namespace Kube

/-- The values of labels, those at some keys apart, have no more than so many characters. -/
def LabelsFit (limit : ℕ) (apart : List String) (labels : SortedMap String) : Prop :=
  ∀ k v, k ∉ apart → labels.get? k = some v → v.length ≤ limit

structure LabelSelector.Fits (s : LabelSelector) : Prop where
  labels : LabelsFit 63 [] (s.matchLabels.getD ∅)
  requirements : ∀ r ∈ s.matchExpressions.getD [], ∀ v ∈ r.values.getD [], v.length ≤ 63

structure Workload.Fits (w : Workload) : Prop where
  labels : LabelsFit 63 [] (w.metadata.labels.getD ∅)
  podLabels : LabelsFit 63 [] w.podLabels
  selector : ∀ spec, w.spec = some spec → spec.selector.Fits

/-- There is a port, and the ports differ in number and name. -/
structure Service.PortsFit (ports : List ServicePort) : Prop where
  any : ports ≠ []
  numbers : (ports.map (·.port)).Nodup
  names : (ports.map (·.name)).Nodup

structure Service.Fits (s : Service) : Prop where
  name : s.metadata.nameOrEmpty.length ≤ 63
  labels : LabelsFit 63 [] (s.metadata.labels.getD ∅)
  selector : LabelsFit 63 [] ((s.spec.bind (·.selector)).getD ∅)
  ports : Service.PortsFit ((s.spec.bind (·.ports)).getD [])

variable {limit : ℕ} {apart apart' : List String} {labels labels' : SortedMap String} {k v : String}

theorem LabelsFit.mono (h : LabelsFit limit apart labels) (hsub : apart ⊆ apart') :
    LabelsFit limit apart' labels :=
  fun k v hk => h k v fun hmem => hk (hsub hmem)

theorem labelsFit_congr (h : ∀ k, labels'.get? k = labels.get? k) :
    LabelsFit limit apart labels' ↔ LabelsFit limit apart labels := by
  rw [SortedMap.ext_get? h]

theorem labelsFit_empty : LabelsFit limit apart ∅ := fun _ _ _ => nofun

theorem labelsFit_insert : LabelsFit limit apart (labels.insert k v) ↔
    (k ∉ apart → v.length ≤ limit) ∧ LabelsFit limit (k :: apart) labels := by
  unfold LabelsFit
  simp only [SortedMap.get?_insert, List.mem_cons, not_or]
  constructor
  · intro h
    refine ⟨fun hk => h k v hk (if_pos rfl), fun k' v' hk hv => h k' v' hk.2 ?_⟩
    rwa [if_neg hk.1]
  · rintro ⟨hnew, hrest⟩ k' v' hk hv
    split at hv
    · next heq => exact Option.some.inj hv ▸ hnew (heq ▸ hk)
    · next hne => exact hrest k' v' ⟨hne, hk⟩ hv

/-- A mark takes seven characters. -/
theorem labelsFit_markLabels :
    LabelsFit 63 apart (Clone.markLabels labels) ↔ LabelsFit 56 apart labels := by
  have hmark : ∀ v : String, (v ++ Clone.mark).length = v.length + 7 := fun v =>
    String.length_append v Clone.mark
  unfold LabelsFit
  simp only [Clone.get?_markLabels, Option.map_eq_some_iff]
  constructor
  · intro h k v hk hv
    have hlength := h k _ hk ⟨v, hv, rfl⟩
    rw [hmark] at hlength
    omega
  · rintro h k _ hk ⟨v, hv, rfl⟩
    have hlength := h k v hk hv
    rw [hmark]
    omega

end Kube

/-- The server takes what is applied. -/
def TargetCall.WithinLimits : TargetCall → Prop
  | .applyWorkload _ _ w => w.Fits
  | .applyService _ s => s.Fits
  | _ => True

open Kube

namespace Duplicate

/-- There is room for what a copy adds: a mark of seven characters to the values of labels, twelve
characters around the names of the target and the container, and the name of the bridge as the value
of a label. And the bridge or else the container has ports. -/
structure LeavesRoom (b : Binding) (base : Workload) : Prop where
  bridge : b.bridge.length ≤ 63
  name : b.target.name.length + b.container.length ≤ 51
  labels : LabelsFit 56 [Label.managedBy, Label.bridge] (base.metadata.labels.getD ∅)
  podLabels : LabelsFit 56 [Label.duplicationId] base.podLabels
  selector : ∀ spec, base.spec = some spec → LabelsFit 56 [] (spec.selector.matchLabels.getD ∅)
  ports : b.parameters.portMappings ≠ [] ∨ ∃ spec container, base.spec = some spec ∧
    spec.template.container? b.container = some container ∧ container.declaredPorts ≠ []

variable {b : Binding} {c : Controller} {base copy : Workload} {mappings : List PortMapping}

/-! ## Labels -/

theorem labelsFit_cloneMetadata (b : Binding) (m : Metadata) :
    LabelsFit 63 [] ((b.cloneMetadata m).labels.getD ∅) ↔ b.bridge.length ≤ 63 ∧
      LabelsFit 56 [Label.managedBy, Label.bridge] (m.labels.getD ∅) := by
  have hoperator : Label.operator.length ≤ 63 := by decide
  show LabelsFit 63 [] (((Clone.markLabels _).insert _ _).insert _ _) ↔ _
  rw [labelsFit_insert, labelsFit_insert, labelsFit_markLabels]
  simp [hoperator]

theorem clone_labels_fit (h : b.clone c base = .ok (copy, mappings)) :
    LabelsFit 63 [] (copy.metadata.labels.getD ∅) ↔ b.bridge.length ≤ 63 ∧
      LabelsFit 56 [Label.managedBy, Label.bridge] (base.metadata.labels.getD ∅) := by
  obtain ⟨spec, template, -, -, rfl⟩ := clone_eq_ok h
  exact labelsFit_cloneMetadata b base.metadata

theorem clone_podLabels_fit (h : b.clone c base = .ok (copy, mappings)) :
    LabelsFit 63 [] copy.podLabels ↔ b.bridge.length ≤ 63 ∧
      LabelsFit 56 [Label.duplicationId] base.podLabels := by
  have hlabels : ∀ k, copy.podLabels.get? k =
      ((Clone.markLabels base.podLabels).insert Label.duplicationId b.bridge).get? k := fun k =>
    (clone_label h k).trans (Clone.get?_markLabels_insert _ _ k).symm
  rw [labelsFit_congr hlabels, labelsFit_insert, labelsFit_markLabels]
  simp

theorem cloneSelector_fits {selector : LabelSelector} (hfits : selector.Fits) :
    (Binding.cloneSelector selector).Fits ↔ LabelsFit 56 [] (selector.matchLabels.getD ∅) := by
  have hlabels : LabelsFit 63 [] ((selector.matchLabels.map Clone.markLabels).getD ∅) ↔
      LabelsFit 56 [] (selector.matchLabels.getD ∅) := by
    cases selector.matchLabels with
    | none => exact iff_of_true labelsFit_empty labelsFit_empty
    | some labels => exact labelsFit_markLabels
  exact ⟨fun h => hlabels.mp h.labels, fun h => ⟨hlabels.mpr h, hfits.requirements⟩⟩

/-- A copy fits if its target leaves room for the marks. -/
theorem clone_fits (hfits : base.Fits) (h : b.clone c base = .ok (copy, mappings)) :
    copy.Fits ↔ b.bridge.length ≤ 63 ∧
      LabelsFit 56 [Label.managedBy, Label.bridge] (base.metadata.labels.getD ∅) ∧
      LabelsFit 56 [Label.duplicationId] base.podLabels ∧
      ∀ spec, base.spec = some spec → LabelsFit 56 [] (spec.selector.matchLabels.getD ∅) := by
  obtain ⟨spec, template, hspec, -, hcopy⟩ := clone_eq_ok h
  have hselector : (∀ spec', copy.spec = some spec' → spec'.selector.Fits) ↔
      ∀ spec, base.spec = some spec → LabelsFit 56 [] (spec.selector.matchLabels.getD ∅) := by
    rw [hspec, hcopy]
    simp only [Option.some.injEq, forall_eq']
    exact cloneSelector_fits (hfits.selector spec hspec)
  rw [← hselector]
  constructor
  · intro hcopy
    obtain ⟨hbridge, hlabels⟩ := (clone_labels_fit h).mp hcopy.labels
    exact ⟨hbridge, hlabels, ((clone_podLabels_fit h).mp hcopy.podLabels).2, hcopy.selector⟩
  · rintro ⟨hbridge, hlabels, hpods, hselector⟩
    exact ⟨(clone_labels_fit h).mpr ⟨hbridge, hlabels⟩, (clone_podLabels_fit h).mpr ⟨hbridge, hpods⟩,
      hselector⟩

/-! ## The service -/

theorem portsFit_cloneService (h : (mappings.map (·.containerPort)).Nodup) :
    Service.PortsFit (((b.cloneService copy mappings).spec.bind (·.ports)).getD []) ↔
      mappings ≠ [] := by
  -- The number can be read off its decimal digits.
  have hread : ∀ n : ℕ, Nat.ofDigitChars 10 n.repr.toList 0 = n := by
    intro n
    rw [Nat.toList_repr, Nat.ofDigitChars_ten_toDigits]
  have hname : ∀ p q : UInt16, some s!"port-{p.toNat}" = some s!"port-{q.toNat}" → p = q := by
    intro p q hpq
    have hrepr : p.toNat.repr = q.toNat.repr := by simpa using hpq
    rw [← UInt16.toNat_inj, ← hread p.toNat, hrepr, hread]
  simp only [Binding.cloneService, Clone.service, Option.bind_some, Option.getD_some]
  constructor
  · intro hfit hnil
    exact hfit.any (by simp [hnil])
  · intro hany
    refine ⟨by simpa using hany, ?_, ?_⟩ <;> rw [List.map_map]
    · exact h.map fun _ _ => port_injective
    · exact h.map hname

theorem length_serviceName (workload container : String) :
    (Clone.serviceName workload container).length = workload.length + container.length + 12 := by
  have hserviceName : Clone.serviceName workload container =
      workload ++ "-" ++ container ++ "-gefyra" ++ "-svc" := rfl
  have hdash : "-".length = 1 := rfl
  have hmark : "-gefyra".length = 7 := rfl
  have hsuffix : "-svc".length = 4 := rfl
  rw [hserviceName]
  simp only [String.length_append]
  omega

/-- The service of a copy that fits also fits if there is room for its name and it has ports. -/
theorem cloneService_fits (hcopy : copy.Fits) (hbridge : b.bridge.length ≤ 63)
    (hports : (mappings.map (·.containerPort)).Nodup) :
    (b.cloneService copy mappings).Fits ↔
      b.target.name.length + b.container.length ≤ 51 ∧ mappings ≠ [] := by
  have hname : (b.cloneService copy mappings).metadata.nameOrEmpty.length =
      b.target.name.length + b.container.length + 12 := length_serviceName _ _
  have hoperator : Label.operator.length ≤ 63 := by decide
  constructor
  · intro h
    have hlength := h.name
    exact ⟨by omega, (portsFit_cloneService hports).mp h.ports⟩
  · rintro ⟨hroom, hany⟩
    refine ⟨by omega, ?_, ?_, (portsFit_cloneService hports).mpr hany⟩
    · exact labelsFit_insert.mpr ⟨fun _ => hoperator, hcopy.labels.mono (List.nil_subset _)⟩
    · exact labelsFit_insert.mpr ⟨fun _ => hbridge, labelsFit_empty⟩

/-! ## What an install applies -/

theorem clone_mappings (h : b.clone c base = .ok (copy, mappings)) : ∃ spec container,
    base.spec = some spec ∧ spec.template.container? b.container = some container ∧
      mappings = b.effectiveMappings container := by
  obtain ⟨spec, template, hspec, htemplate, -⟩ := clone_eq_ok h
  obtain ⟨pods, container, hpods, hcontainer, hmappings, -⟩ := cloneTemplate_eq_ok htemplate
  exact ⟨spec, container, hspec, Option.bind_eq_some_iff.mpr ⟨pods, hpods, hcontainer⟩, hmappings⟩

/-- The copy and its service fit if there is room for what is added, and only then. -/
theorem fits_iff_leavesRoom (hfits : base.Fits)
    (hports : PortMapping.check b.bridge b.parameters.portMappings false = .ok ())
    (h : b.clone c base = .ok (copy, mappings)) :
    copy.Fits ∧ (b.cloneService copy mappings).Fits ↔ LeavesRoom b base := by
  obtain ⟨spec, container, hspec, hcontainer, rfl⟩ := clone_mappings h
  have hany : b.effectiveMappings container ≠ [] ↔ b.parameters.portMappings ≠ [] ∨
      ∃ spec container, base.spec = some spec ∧
        spec.template.container? b.container = some container ∧ container.declaredPorts ≠ [] := by
    rw [ne_eq, Binding.effectiveMappings_eq_nil, not_and_or]
    refine or_congr_right ⟨fun hne => ⟨spec, container, hspec, hcontainer, hne⟩, ?_⟩
    rintro ⟨spec', container', hspec', hcontainer', hne⟩
    cases hspec.symm.trans hspec'
    cases hcontainer.symm.trans hcontainer'
    exact hne
  have hnodup := b.nodup_effectiveMappings (c := container) hports
  constructor
  · rintro ⟨hcopy, hservice⟩
    obtain ⟨hbridge, hlabels, hpods, hselector⟩ := (clone_fits hfits h).mp hcopy
    obtain ⟨hname, hmappings⟩ := (cloneService_fits hcopy hbridge hnodup).mp hservice
    exact ⟨hbridge, hname, hlabels, hpods, hselector, hany.mp hmappings⟩
  · intro hroom
    have hcopy := (clone_fits hfits h).mpr
      ⟨hroom.bridge, hroom.labels, hroom.podLabels, hroom.selector⟩
    exact ⟨hcopy, (cloneService_fits hcopy hroom.bridge hnodup).mpr
      ⟨hroom.name, hany.mpr hroom.ports⟩⟩

variable {s : Snapshot} {request : Bridge} {peers : List Bridge} {log log' : Log TargetCall}
  {r : Except Error Unit}

/-- An install that finds the target asks for nothing but the copy and its service. -/
theorem Vetted.forall_asked {P : TargetCall → Prop} (hvetted : Vetted s b c base)
    (hclone : b.clone c base = .ok (copy, mappings))
    (hget : P (.getWorkload c b.namespaceName b.target.name))
    (hcopy : P (.applyWorkload c b.namespaceName copy))
    (hservice : P (.applyService b.namespaceName (b.cloneService copy mappings)))
    (hpublish : ∀ n, P (.publish n)) (h : (install b).run.Exec s.Serves [] r log) :
    ∀ x ∈ log, P x.1 := by
  unfold install at h
  rw [hvetted.controller] at h
  have hgot : ∀ {r log}, (Work.getWorkload c b.namespaceName b.target.name).run.Exec s.Serves []
      r log → s.Serves (.getWorkload c b.namespaceName b.target.name) [] r log :=
    Prog.exec_perform.mp
  have hcopied : ∀ {log r log'}, (Work.applyWorkload c b.namespaceName copy).run.Exec s.Serves log
      r log' → s.Serves (.applyWorkload c b.namespaceName copy) log r log' := Prog.exec_perform.mp
  have hserved : ∀ {log r log'},
      (Work.applyService b.namespaceName (b.cloneService copy mappings)).run.Exec s.Serves log
        r log' → s.Serves (.applyService b.namespaceName (b.cloneService copy mappings)) log r log' :=
    Prog.exec_perform.mp
  rcases Attempt.exec_bind.mp h with ⟨found, log₁, hfirst, h⟩ | ⟨e, hfirst, -⟩
  · have hlog₁ := (hgot hfirst).forall_mem hget (List.forall_mem_nil _)
    rw [(hgot hfirst).1 found rfl, hvetted.found] at h
    dsimp only at h
    rw [hclone] at h
    replace h : (Work.applyWorkload c b.namespaceName copy >>= _ : Work Unit).run.Exec s.Serves
      log₁ r log := h
    rcases Attempt.exec_bind.mp h with ⟨_, log₂, hsecond, h⟩ | ⟨e, hsecond, -⟩
    · have hlog₂ := (hcopied hsecond).forall_mem hcopy hlog₁
      rcases Attempt.exec_bind.mp h with ⟨_, log₃, hthird, h⟩ | ⟨e, hthird, -⟩
      · have hlog₃ := (hserved hthird).forall_mem hservice hlog₂
        obtain ⟨_, hlast, -⟩ := Attempt.exec_always.mp h
        obtain ⟨-, rfl⟩ := Prog.exec_perform.mp hlast
        exact List.forall_mem_append.mpr ⟨hlog₃, List.forall_mem_singleton.mpr (hpublish _)⟩
      · exact (hserved hthird).forall_mem hservice hlog₂
    · exact (hcopied hsecond).forall_mem hcopy hlog₁
  · exact (hgot hfirst).forall_mem hget (List.forall_mem_nil _)

/-- Where no call fails, both are applied. -/
theorem Vetted.exec_install (hvetted : Vetted s b c base)
    (hclone : b.clone c base = .ok (copy, mappings)) : ∃ log,
    (install b).run.Exec s.Serves [] (.ok ()) log ∧
      ⟨.applyWorkload c b.namespaceName copy, .ok ()⟩ ∈ log ∧
      ⟨.applyService b.namespaceName (b.cloneService copy mappings), .ok ()⟩ ∈ log := by
  have hfound : s.Serves (.getWorkload c b.namespaceName b.target.name) [] (.ok (some base)) _ :=
    ⟨fun found hfound => by rw [hvetted.found, Except.ok.inj hfound], rfl⟩
  obtain ⟨n, hexec⟩ := Duplicate.exec_install hvetted.controller hclone hfound
    ⟨trivial, rfl⟩ ⟨trivial, rfl⟩ fun n => ⟨trivial, rfl⟩
  exact ⟨_, hexec, by simp, by simp⟩

/-- **What is applied for an accepted bridge stays within the limits if the target leaves room for
what is added.** Validation makes sure of nothing but that the mapped ports differ. -/
theorem within_limits_iff (h : (validate b request peers).run.Exec s.Serves [] (.ok ()) log)
    (hc : b.target.kind.controller? = some c)
    (hbase : s.workload c b.namespaceName b.target.name = some base) (hfits : base.Fits) :
    (∀ r log, (install b).run.Exec s.Serves [] r log → ∀ x ∈ log, x.1.WithinLimits) ↔
      LeavesRoom b base := by
  obtain ⟨c', base', hvetted⟩ := vetted_of_validate h
  cases hc.symm.trans hvetted.controller
  cases hbase.symm.trans hvetted.found
  obtain ⟨⟨copy, mappings⟩, hclone⟩ := hvetted.clones
  rw [← fits_iff_leavesRoom hfits hvetted.ports hclone]
  constructor
  · intro hall
    obtain ⟨log, hinstall, hcopy, hservice⟩ := hvetted.exec_install hclone
    exact ⟨hall _ _ hinstall _ hcopy, hall _ _ hinstall _ hservice⟩
  · rintro ⟨hcopy, hservice⟩ r log hinstall
    exact hvetted.forall_asked hclone trivial hcopy hservice (fun _ => trivial) hinstall

end Duplicate

namespace Sample

/-- The first bridge, with a port of its own. -/
def mapped : Bridge := { first with spec := { first.spec with
  providerParameter := { ProviderParameter.empty with portMappings := [⟨8080, 80⟩] } } }

theorem vetted_mapped :
    Duplicate.Vetted everywhere (binding mapped "shop") .deployment (selecting byLabel) where
  ports := rfl
  controller := rfl
  found := rfl
  clones := Duplicate.clone_isOk_iff.mpr ⟨_, _, rfl, rfl⟩

theorem labelsFit_shop {limit : ℕ} {apart : List String} (h : 4 ≤ limit) :
    LabelsFit limit apart (.ofList [("app", "shop")]) := by
  intro k v _ hv
  obtain ⟨-, rfl⟩ := Prod.mk.inj (List.mem_singleton.mp (SortedMap.mem_of_get? hv))
  exact h

theorem fits_byLabel : (selecting byLabel).Fits where
  labels := labelsFit_empty
  podLabels := labelsFit_shop (by decide)
  selector spec hspec := by
    cases hspec
    exact ⟨labelsFit_shop (by decide), by decide⟩

theorem leavesRoom_mapped :
    Duplicate.LeavesRoom (binding mapped "shop") (selecting byLabel) where
  bridge := by decide
  name := by decide
  labels := labelsFit_empty
  podLabels := labelsFit_shop (by decide)
  selector spec hspec := by
    cases hspec
    exact labelsFit_shop (by decide)
  ports := .inl (by decide)

end Sample

namespace Duplicate

open Sample

theorem within_limits_iff_mapped : ∃ log,
    (validate (binding mapped "shop") mapped []).run.Exec everywhere.Serves [] (.ok ()) log ∧
      (binding mapped "shop").target.kind.controller? = some .deployment ∧
      everywhere.workload .deployment "default" "shop" = some (selecting byLabel) ∧
      (selecting byLabel).Fits ∧
      ∀ r log, (install (binding mapped "shop")).run.Exec everywhere.Serves [] r log →
        ∀ x ∈ log, x.1.WithinLimits := by
  have hvalidate : (validate (binding mapped "shop") mapped []).run.Exec everywhere.Serves []
      (.ok ()) _ := vetted_mapped.exec_validate rfl rfl
  exact ⟨_, hvalidate, rfl, rfl, fits_byLabel,
    (within_limits_iff hvalidate rfl rfl fits_byLabel).mpr leavesRoom_mapped⟩

/-- Neither the bridge nor the container has a port, so the service has none. -/
theorem not_always_within_limits : ¬ ∀ (s : Snapshot) (b : Binding) (request : Bridge)
    (peers : List Bridge) (log : Log TargetCall) (c : Controller) (base : Workload),
    (validate b request peers).run.Exec s.Serves [] (.ok ()) log →
      b.target.kind.controller? = some c →
      s.workload c b.namespaceName b.target.name = some base → base.Fits →
        ∀ r log, (install b).run.Exec s.Serves [] r log → ∀ x ∈ log, x.1.WithinLimits := by
  intro hall
  obtain ⟨⟨copy, mappings⟩, hclone⟩ := vetted_first.clones
  obtain ⟨log, hinstall, -, hservice⟩ := vetted_first.exec_install hclone
  have hfits := hall everywhere (binding first "shop") first [] _ .deployment (selecting byLabel)
    (vetted_first.exec_validate rfl rfl) rfl rfl fits_byLabel _ _ hinstall _ hservice
  obtain ⟨spec, container, hspec, hcontainer, rfl⟩ := clone_mappings hclone
  cases hspec
  cases hcontainer
  exact (portsFit_cloneService (Binding.nodup_effectiveMappings vetted_first.ports)).mp hfits.ports
    (Binding.effectiveMappings_eq_nil.mpr ⟨rfl, rfl⟩)

end Duplicate
end BridgeOperator
