import BridgeOperator.Proofs.Provider.Arrival

/-!
Copies side by side. What an install applies goes by names made from the target workload and the
container, and its service selects pods by the name of the bridge. Two bridges with different
targets can therefore get in each other's way in three respects (`Duplicate.Clash`), and in no
other (`Duplicate.separate_iff_not_clash`).
-/

namespace BridgeOperator

open Kube (Controller Service Workload)

/-! ## What a piece of work asks for -/

/-- Every call is answered in some way and written down. -/
abbrev WrittenDown (c : TargetCall) (calls : List TargetCall) (_ : Answer c)
    (calls' : List TargetCall) : Prop :=
  calls' = calls ++ [c]

/-- Given the right answers, the work makes the call. -/
def Work.Asks {α : Type} (work : Work α) (call : TargetCall) : Prop :=
  ∃ r calls, work.run.Exec WrittenDown [] r calls ∧ call ∈ calls

/-- Work that keeps to some calls asks for no other. -/
theorem Work.Asks.of_keeps {α : Type} {work : Work α} {P : TargetCall → Prop} {call : TargetCall}
    (hkeeps : work.run.Keeps (fun _ c _ _ => P c) () fun _ _ => True) (h : work.Asks call) :
    P call := by
  obtain ⟨r, calls, hexec, hcall⟩ := h
  refine Prog.Exec.invariant (I := fun calls => ∀ c ∈ calls, P c) ?_ hkeeps hexec
    (by simp) call hcall
  rintro φ φ' c answer calls calls' hc rfl hcalls d hd
  rcases List.mem_append.mp hd with hd | hd
  · exact hcalls d hd
  · exact List.mem_singleton.mp hd ▸ hc

/-! ## What is applied -/

/-- The labels of the pods that the workload makes. -/
def Kube.Workload.podLabels (w : Workload) : SortedMap String :=
  ((w.spec.bind (·.template.metadata)).bind (·.labels)).getD ∅

/-- A pod with these labels may be one of the workload: it has the labels the workload gives. -/
def Kube.Workload.Makes (w : Workload) (labels : SortedMap String) : Prop :=
  ∀ k v, w.podLabels.get? k = some v → labels.get? k = some v

/-- The service selects the pods with these labels. -/
def Kube.Service.Selects (s : Service) (labels : SortedMap String) : Prop :=
  ∃ selector, s.spec.bind (·.selector) = some selector ∧
    (Kube.LabelSelector.mk (some selector) none).holds labels = true

namespace Clone

/-- What the pods of a copy bear at a key. -/
def label? (bridge : String) (labels : SortedMap String) (k : String) : Option String :=
  if k = Label.duplicationId then some bridge else (labels.get? k).map (· ++ mark)

theorem get?_markLabels (labels : SortedMap String) (k : String) :
    (markLabels labels).get? k = (labels.get? k).map (· ++ mark) :=
  SortedMap.get?_mapValues _ _ _

theorem get?_markLabels_insert (bridge : String) (labels : SortedMap String) (k : String) :
    ((markLabels labels).insert Label.duplicationId bridge).get? k = label? bridge labels k := by
  unfold label?
  split
  · next hk =>
    rw [hk]
    exact SortedMap.get?_insert_self _ _ _
  · next hk =>
    rw [SortedMap.get?_insert_of_ne _ _ hk]
    exact get?_markLabels _ _

end Clone

namespace Duplicate

variable {x y : Binding} {c : Controller} {base copy : Workload} {mappings : List PortMapping}

/-- A template that is copied has the container, and the copy serves the ports for that one. -/
theorem cloneTemplate_eq_ok {t template : Kube.PodTemplate}
    (h : x.cloneTemplate t = .ok (template, mappings)) : ∃ pods container,
      t.spec = some pods ∧ pods.container? x.container = some container ∧
        mappings = x.effectiveMappings container ∧
        template = {
          metadata := some { t.metadata.getD .empty with
            labels := some ((Clone.markLabels ((t.metadata.getD .empty).labels.getD ∅)).insert
              Label.duplicationId x.bridge) }
          spec := some { pods with
            containers := Clone.updateFirst (fun c => decide (c.name = x.container))
              (x.cloneContainer mappings) pods.containers } } := by
  unfold Binding.cloneTemplate at h
  cases hcontainer : t.container? x.container with
  | none =>
    rw [hcontainer] at h
    cases h
  | some container =>
    obtain ⟨pods, hpods, hfind⟩ := Option.bind_eq_some_iff.mp hcontainer
    rw [hcontainer, hpods] at h
    cases h
    exact ⟨pods, container, hpods, hfind, rfl, rfl⟩

/-- A copy has metadata of its own, and the target's spec with a template of its own. -/
theorem clone_eq_ok (h : x.clone c base = .ok (copy, mappings)) : ∃ spec template,
    base.spec = some spec ∧ x.cloneTemplate spec.template = .ok (template, mappings) ∧
      copy = {
        metadata := x.cloneMetadata base.metadata
        spec := some { spec with selector := Binding.cloneSelector spec.selector, template }
        status := none } := by
  unfold Binding.clone at h
  cases hspec : base.spec with
  | none =>
    rw [hspec] at h
    cases h
  | some spec =>
    rw [hspec] at h
    dsimp only at h
    cases htemplate : x.cloneTemplate spec.template with
    | error e =>
      rw [htemplate] at h
      cases h
    | ok made =>
      rw [htemplate] at h
      cases h
      exact ⟨spec, made.1, rfl, htemplate, rfl⟩

theorem clone_name (h : x.clone c base = .ok (copy, mappings)) :
    copy.metadata.name = some (Clone.workloadName x.target.name) := by
  obtain ⟨spec, template, -, -, rfl⟩ := clone_eq_ok h
  rfl

/-- The pods of a copy bear the target's labels with marked values, and the name of the bridge. -/
theorem clone_label (h : x.clone c base = .ok (copy, mappings)) (k : String) :
    copy.podLabels.get? k = Clone.label? x.bridge base.podLabels k := by
  obtain ⟨spec, template, hspec, htemplate, rfl⟩ := clone_eq_ok h
  have hlabels : base.podLabels = (spec.template.metadata.getD .empty).labels.getD ∅ := by
    unfold Kube.Workload.podLabels
    rw [hspec, Option.bind_some]
    cases spec.template.metadata <;> rfl
  obtain ⟨pods, container, -, -, -, rfl⟩ := cloneTemplate_eq_ok htemplate
  rw [hlabels]
  exact Clone.get?_markLabels_insert _ _ _

theorem clone_podLabels (h : x.clone c base = .ok (copy, mappings)) :
    copy.podLabels.get? Label.duplicationId = some x.bridge :=
  (clone_label h _).trans (if_pos rfl)

/-- The service of a copy selects the pods that bear the name of its bridge. -/
theorem selects_cloneService {labels : SortedMap String} :
    (x.cloneService copy mappings).Selects labels ↔
      labels.get? Label.duplicationId = some x.bridge := by
  have hone : (Kube.LabelSelector.mk (some (.ofList [(Label.duplicationId, x.bridge)])) none).holds
      labels = decide (labels.get? Label.duplicationId = some x.bridge) := by
    show (decide (labels.get? Label.duplicationId = some x.bridge) && true && true) = _
    rw [Bool.and_true, Bool.and_true]
  constructor
  · rintro ⟨selector, hselector, hholds⟩
    cases hselector
    rw [hone] at hholds
    exact of_decide_eq_true hholds
  · intro h
    exact ⟨_, rfl, hone.trans (decide_eq_true h)⟩

/-- What an install asks for: the target, a copy of it, the service in front, and a notice. -/
inductive Call (x : Binding) : TargetCall → Prop
  | target (c : Controller) (ns name : String) : Call x (.getWorkload c ns name)
  | copy {c : Controller} {base copy : Workload} {mappings : List PortMapping} :
    x.target.kind.controller? = some c → x.clone c base = .ok (copy, mappings) →
    Call x (.applyWorkload c x.namespaceName copy)
  | front {c : Controller} {base copy : Workload} {mappings : List PortMapping} :
    x.target.kind.controller? = some c → x.clone c base = .ok (copy, mappings) →
    Call x (.applyService x.namespaceName (x.cloneService copy mappings))
  | notice (n : Kube.Notice) : Call x (.publish n)

theorem install_keeps (x : Binding) :
    (install x).run.Keeps (fun _ c _ _ => Call x c) () fun _ _ => True := by
  unfold install
  cases hc : x.target.kind.controller? with
  | none => exact trivial
  | some c =>
    refine (Attempt.keeps_bind _ _ _).mpr fun found => ⟨(), .target _ _ _, ?_⟩
    cases found with
    | error e => exact trivial
    | ok found =>
      cases found with
      | none => exact trivial
      | some base =>
        refine (Attempt.keeps_bind _ _ _).mpr ?_
        cases hclone : x.clone c base with
        | error e => exact trivial
        | ok made =>
          obtain ⟨copy, mappings⟩ := made
          refine (Attempt.keeps_bind _ _ _).mpr fun applied => ⟨(), .copy hc hclone, ?_⟩
          cases applied with
          | error e => exact trivial
          | ok u =>
            refine (Attempt.keeps_bind _ _ _).mpr fun applied => ⟨(), .front hc hclone, ?_⟩
            cases applied with
            | error e => exact trivial
            | ok u => exact fun _ => ⟨(), .notice _, trivial⟩

variable {ns ns' : String} {w : Workload} {service : Service} {labels : SortedMap String}

theorem asks_copy (h : (install x).Asks (.applyWorkload c ns w)) :
    x.target.kind.controller? = some c ∧ ∃ base mappings, x.clone c base = .ok (w, mappings) := by
  cases h.of_keeps (install_keeps x) with
  | copy hc hclone => exact ⟨hc, _, _, hclone⟩

theorem asks_service (h : (install x).Asks (.applyService ns service)) :
    x.target.kind.controller?.isSome = true ∧
      ∃ copy mappings, service = x.cloneService copy mappings := by
  cases h.of_keeps (install_keeps x) with
  | front hc hclone =>
    rw [hc]
    exact ⟨rfl, _, _, rfl⟩

/-- An install where no call fails, whatever the calls lead to. -/
theorem exec_install {σ : Type} {serves : (c : TargetCall) → σ → Answer c → σ → Prop}
    {s₀ s₁ s₂ s₃ : σ} {s₄ : Kube.Notice → σ} (hc : x.target.kind.controller? = some c)
    (hclone : x.clone c base = .ok (copy, mappings))
    (hget : serves (.getWorkload c x.namespaceName x.target.name) s₀ (.ok (some base)) s₁)
    (hcopy : serves (.applyWorkload c x.namespaceName copy) s₁ (.ok ()) s₂)
    (hservice : serves (.applyService x.namespaceName (x.cloneService copy mappings)) s₂ (.ok ()) s₃)
    (hnotice : ∀ n, serves (.publish n) s₃ () (s₄ n)) :
    ∃ n, (install x).run.Exec serves s₀ (.ok ()) (s₄ n) := by
  let addresses := String.intercalate ", " (x.cloneService copy mappings).upstreams
  let notice :=
    x.progress s!"Duplicate {Clone.workloadName x.target.name} reachable at {addresses}"
  refine ⟨notice, ?_⟩
  unfold install
  rw [hc]
  refine Attempt.exec_ok (a := some base) (Prog.exec_perform.mpr hget) ?_
  dsimp only
  rw [hclone]
  refine Attempt.exec_ok (a := (copy, mappings)) (Attempt.exec_pure.mpr ⟨rfl, rfl⟩) ?_
  refine Attempt.exec_ok (a := ()) (Prog.exec_perform.mpr hcopy) ?_
  refine Attempt.exec_ok (a := ()) (Prog.exec_perform.mpr hservice) ?_
  exact Attempt.exec_always.mpr ⟨(), Prog.exec_perform.mpr (hnotice notice), rfl⟩

/-- An install that finds its target applies a copy of it and a service. -/
theorem asks_install (hc : x.target.kind.controller? = some c)
    (hclone : x.clone c base = .ok (copy, mappings)) :
    (install x).Asks (.applyWorkload c x.namespaceName copy) ∧
      (install x).Asks (.applyService x.namespaceName (x.cloneService copy mappings)) := by
  have hexec : ∃ n, (install x).run.Exec WrittenDown [] (.ok ()) [
      .getWorkload c x.namespaceName x.target.name, .applyWorkload c x.namespaceName copy,
      .applyService x.namespaceName (x.cloneService copy mappings), .publish n] :=
    exec_install hc hclone rfl rfl rfl fun _ => rfl
  obtain ⟨n, hexec⟩ := hexec
  exact ⟨⟨_, _, hexec, by simp⟩, ⟨_, _, hexec, by simp⟩⟩

end Duplicate

/-! ## Names of services -/

/-- Joined by a dash the names of two workloads and containers give one text: they are equal, or the
dash can be taken for one in the other name. -/
inductive Clone.Merges (w c w' c' : String) : Prop
  | same : w = w' → c = c' → Merges w c w' c'
  | longer (part : String) : w = w' ++ "-" ++ part → c' = part ++ "-" ++ c → Merges w c w' c'
  | shorter (part : String) : w' = w ++ "-" ++ part → c = part ++ "-" ++ c' → Merges w c w' c'

section

variable {w c w' c' : String}

theorem Clone.serviceName_inj :
    serviceName w c = serviceName w' c' ↔ w ++ "-" ++ c = w' ++ "-" ++ c' := by
  have hname : ∀ w c : String, serviceName w c = w ++ "-" ++ c ++ (mark ++ "-svc") := by
    intro w c
    apply String.toList_inj.mp
    simp [serviceName, String.toList_append, toString]
  rw [hname, hname, String.append_left_inj]

theorem Clone.Merges.symm (h : Merges w c w' c') : Merges w' c' w c := by
  cases h with
  | same hw hc => exact .same hw.symm hc.symm
  | longer part hw hc => exact .shorter part hw hc
  | shorter part hw hc => exact .longer part hw hc

/-- The name of the one workload begins with that of the other. -/
theorem Clone.merges_of_append {rest : List Char} (hw : w'.toList = w.toList ++ rest)
    (hc : '-' :: c.toList = rest ++ '-' :: c'.toList) : Merges w c w' c' := by
  cases rest with
  | nil =>
    exact .same (String.toList_inj.mp (by simpa using hw.symm))
      (String.toList_inj.mp (by simpa using hc))
  | cons d part =>
    obtain ⟨rfl, hc⟩ := List.cons_eq_cons.mp hc
    refine .shorter (.ofList part) ?_ ?_ <;> apply String.toList_inj.mp
    · simpa using hw
    · simpa using hc

theorem Clone.dashed_eq_iff : w ++ "-" ++ c = w' ++ "-" ++ c' ↔ Merges w c w' c' := by
  constructor
  · intro h
    have hlist : w.toList ++ '-' :: c.toList = w'.toList ++ '-' :: c'.toList := by
      simpa using congrArg String.toList h
    rcases List.append_eq_append_iff.mp hlist with ⟨rest, hw, hc⟩ | ⟨rest, hw, hc⟩
    · exact merges_of_append hw hc
    · exact (merges_of_append hw hc).symm
  · rintro (⟨rfl, rfl⟩ | ⟨part, rfl, rfl⟩ | ⟨part, rfl, rfl⟩) <;> simp only [String.append_assoc]

end

/-- A controller makes one kind of workload, so the name tells its workloads apart. -/
theorem WorkloadRef.eq_of_controller {ref ref' : WorkloadRef} {c : Controller}
    (h : ref.kind.controller? = some c) (h' : ref'.kind.controller? = some c)
    (hname : ref.name = ref'.name) : ref = ref' := by
  obtain ⟨kind, name⟩ := ref
  obtain ⟨kind', name'⟩ := ref'
  obtain rfl : name = name' := hname
  cases kind <;> cases kind' <;> cases h <;> cases h' <;> rfl

/-! ## Two bridges -/

namespace Duplicate

/-- Nothing that one install applies is in the way of the other: copies of one kind differ in name,
services differ in name, and neither service selects a pod of the other copy. -/
structure Separate (x y : Binding) : Prop where
  copies : ∀ c ns ns' w w', (install x).Asks (.applyWorkload c ns w) →
    (install y).Asks (.applyWorkload c ns' w') → w.metadata.name ≠ w'.metadata.name
  services : ∀ ns ns' s s', (install x).Asks (.applyService ns s) →
    (install y).Asks (.applyService ns' s') → s.metadata.name ≠ s'.metadata.name
  first : ∀ c ns ns' s w labels, (install x).Asks (.applyService ns s) →
    (install y).Asks (.applyWorkload c ns' w) → w.Makes labels → ¬ s.Selects labels
  second : ∀ c ns ns' s w labels, (install y).Asks (.applyService ns s) →
    (install x).Asks (.applyWorkload c ns' w) → w.Makes labels → ¬ s.Selects labels

/-- Both bridges make a copy, and the names of the services merge or the bridges have one name. -/
structure Clash (x y : Binding) : Prop where
  first : x.target.kind.controller?.isSome = true
  second : y.target.kind.controller?.isSome = true
  names : Clone.Merges x.target.name x.container y.target.name y.container ∨ x.bridge = y.bridge

/-- A request for a copy has passed the checks of ownership while another bridge holds a target in
the same namespace. -/
structure SideBySide (config : OperatorConfig) (request holder : Bridge) (peers : List Bridge)
    (x y : Binding) : Prop where
  bound : Binding.ofBridge config request = .ok x
  holder_bound : Binding.ofBridge config holder = .ok y
  provider : request.spec.provider = ProviderKind.duplicate.name
  holder_provider : holder.spec.provider = ProviderKind.duplicate.name
  apart : request.Apart holder
  namespaceName : request.spec.targetNamespace = holder.spec.targetNamespace
  listed : holder ∈ peers
  holds : holder.state.holdsTarget = true
  exclusive : request.ensureExclusive peers = .ok ()
  workload : request.ensureWorkloadExclusive peers .duplicate = .ok ()

variable {config : OperatorConfig} {request holder : Bridge} {peers : List Bridge}
  {x y : Binding} {c : Controller} {ns ns' : String} {w : Workload} {service : Service}
  {labels : SortedMap String}

theorem SideBySide.target_ne (h : SideBySide config request holder peers x y) :
    x.target ≠ y.target := by
  intro htarget
  have hnamespace : x.namespaceName = y.namespaceName := by
    obtain ⟨_, -, rfl⟩ := Binding.ofBridge_eq_ok h.bound
    obtain ⟨_, -, rfl⟩ := Binding.ofBridge_eq_ok h.holder_bound
    exact h.namespaceName
  have hsame : request.sameWorkload holder = true :=
    (Bridge.sameWorkload_iff h.bound h.holder_bound).mpr ⟨hnamespace, htarget⟩
  have hfree := Bridge.ensureWorkloadExclusive_eq_ok.mp h.workload holder h.listed
    h.apart.sameObject h.holder_provider hsame
  rw [Bridge.owns, h.holds, Bool.true_or] at hfree
  cases hfree

/-- The service of a bridge selects the pods of a copy if that is for a bridge of the same name. -/
theorem bridge_eq_of_selects (hservice : (install x).Asks (.applyService ns service))
    (hcopy : (install y).Asks (.applyWorkload c ns' w)) (hmakes : w.Makes labels)
    (hselects : service.Selects labels) : x.bridge = y.bridge := by
  obtain ⟨-, copy, mappings, rfl⟩ := asks_service hservice
  obtain ⟨-, base, mappings', hclone⟩ := asks_copy hcopy
  have hx := selects_cloneService.mp hselects
  have hy := hmakes _ _ (clone_podLabels hclone)
  exact Option.some.inj (hx.symm.trans hy)

/-- Bridges that may copy side by side are separate unless they clash. -/
theorem separate_iff_not_clash (h : SideBySide config request holder peers x y) :
    Separate x y ↔ ¬ Clash x y := by
  constructor
  · rintro hseparate ⟨hx, hy, hnames⟩
    obtain ⟨c, hx⟩ := Option.isSome_iff_exists.mp hx
    obtain ⟨c', hy⟩ := Option.isSome_iff_exists.mp hy
    obtain ⟨copy, mappings, hclone, -⟩ := clone_ofContainer x c
    obtain ⟨copy', mappings', hclone', -⟩ := clone_ofContainer y c'
    obtain ⟨-, hservice⟩ := asks_install hx hclone
    obtain ⟨hcopy', hservice'⟩ := asks_install hy hclone'
    rcases hnames with hmerges | hbridge
    · refine hseparate.services _ _ _ _ hservice hservice' (congrArg some ?_)
      exact Clone.serviceName_inj.mpr (Clone.dashed_eq_iff.mpr hmerges)
    · refine hseparate.first _ _ _ _ _ copy'.podLabels hservice hcopy' (fun _ _ => id) ?_
      rw [selects_cloneService, hbridge]
      exact clone_podLabels hclone'
  · intro hclash
    exact {
      copies := by
        intro c ns ns' w w' hw hw' hname
        obtain ⟨hx, base, mappings, hclone⟩ := asks_copy hw
        obtain ⟨hy, base', mappings', hclone'⟩ := asks_copy hw'
        rw [clone_name hclone, clone_name hclone'] at hname
        exact h.target_ne (WorkloadRef.eq_of_controller hx hy
          ((String.append_left_inj _).mp (Option.some.inj hname)))
      services := by
        intro ns ns' s s' hs hs' hname
        obtain ⟨hx, copy, mappings, rfl⟩ := asks_service hs
        obtain ⟨hy, copy', mappings', rfl⟩ := asks_service hs'
        have hmerges := Clone.serviceName_inj.mp (Option.some.inj hname)
        exact hclash ⟨hx, hy, .inl (Clone.dashed_eq_iff.mp hmerges)⟩
      first := by
        intro c ns ns' s w labels hs hw hmakes hselects
        have hy : y.target.kind.controller?.isSome = true := by rw [(asks_copy hw).1]; rfl
        exact hclash ⟨(asks_service hs).1, hy, .inr (bridge_eq_of_selects hs hw hmakes hselects)⟩
      second := by
        intro c ns ns' s w labels hs hw hmakes hselects
        have hx : x.target.kind.controller?.isSome = true := by rw [(asks_copy hw).1]; rfl
        exact hclash ⟨hx, (asks_service hs).1,
          .inr (bridge_eq_of_selects hs hw hmakes hselects).symm⟩ }

end Duplicate

/-! ## A copy of the shop and a request for another -/

namespace Sample

/-- The first bridge has claimed the deployment of the shop. -/
def holder : Bridge := first.pending context

/-- A request for a stateful set of that name. -/
def namedAlike : Bridge := bridge "second" "sts/shop"

def elsewhere : Bridge := bridge "second" "deploy/cart"

def namedAlikeBinding : Binding :=
  ⟨.default, namedAlike.name, namedAlike.reference, namedAlike.spec, ⟨.statefulSet, "shop"⟩⟩

theorem apart_holder (target : String) : (bridge "second" target).Apart holder where
  place := by
    rintro ⟨hname, -⟩
    have hname : "second" = "first" := hname
    simp at hname
  uid := by simp [holder, first, Bridge.pending, bridge, metadata]

theorem sideBySide_elsewhere : Duplicate.SideBySide .default elsewhere holder [holder, elsewhere]
    (binding elsewhere "cart") (binding holder "shop") where
  bound := rfl
  holder_bound := rfl
  provider := rfl
  holder_provider := rfl
  apart := apart_holder _
  namespaceName := rfl
  listed := .head _
  holds := rfl
  exclusive := rfl
  workload := rfl

theorem sideBySide_namedAlike : Duplicate.SideBySide .default namedAlike holder
    [holder, namedAlike] namedAlikeBinding (binding holder "shop") where
  bound := rfl
  holder_bound := rfl
  provider := rfl
  holder_provider := rfl
  apart := apart_holder _
  namespaceName := rfl
  listed := .head _
  holds := rfl
  exclusive := rfl
  workload := rfl

end Sample

namespace Duplicate

theorem separate_iff_not_clash_shop :
    SideBySide .default Sample.elsewhere Sample.holder [Sample.holder, Sample.elsewhere]
      (Sample.binding Sample.elsewhere "cart") (Sample.binding Sample.holder "shop") ∧
    Separate (Sample.binding Sample.elsewhere "cart") (Sample.binding Sample.holder "shop") := by
  refine ⟨Sample.sideBySide_elsewhere,
    (separate_iff_not_clash Sample.sideBySide_elsewhere).mpr ?_⟩
  rintro ⟨-, -, hnames | hbridge⟩
  · cases hnames with
    | same hname => exact absurd hname (by decide)
    | longer part hname =>
      have hlength := congrArg String.length hname
      simp only [String.length_append] at hlength
      change 4 = 4 + 1 + _ at hlength
      omega
    | shorter part hname =>
      have hlength := congrArg String.length hname
      simp only [String.length_append] at hlength
      change 4 = 4 + 1 + _ at hlength
      omega
  · exact absurd hbridge (by decide)

/-- The services of copies of a deployment and of a stateful set of one name are the same. -/
theorem not_always_separate : ¬ ∀ config request holder peers x y,
    SideBySide config request holder peers x y → Separate x y := by
  intro hall
  have hseparate := hall _ _ _ _ _ _ Sample.sideBySide_namedAlike
  obtain ⟨copy, mappings, hclone, -⟩ := clone_ofContainer Sample.namedAlikeBinding .statefulSet
  obtain ⟨copy', mappings', hclone', -⟩ :=
    clone_ofContainer (Sample.binding Sample.holder "shop") .deployment
  obtain ⟨-, hservice⟩ := asks_install rfl hclone
  obtain ⟨-, hservice'⟩ := asks_install rfl hclone'
  exact hseparate.services _ _ _ _ hservice hservice' rfl

end Duplicate
end BridgeOperator
