import BridgeOperator.Proofs.Provider.Fidelity
import BridgeOperator.Provider.Standard

/-!
What validation accepts can be mounted. Validation and install go over the target each on its own,
and an install also fails for reasons that validation never looks at. But where both see the same
pods and workloads, everything in the install that no retry could help is ruled out by a check that
has been passed; whatever else goes wrong has gone wrong in a call (`Snapshot.accepted_mounts`).
-/

namespace BridgeOperator

open Kube (Container Controller Pod Workload)

/-- The call of a workload or of a sidecar has failed with the error. -/
def TargetCall.Fails (e : Error) : (c : TargetCall) → Answer c → Prop
  | .getPod .., r => r = .error e
  | .listPods .., r => r = .error e
  | .getWorkload .., r => r = .error e
  | .applyWorkload .., r => r = .error e
  | .deleteWorkload .., r => r = .error e
  | .getService .., r => r = .error e
  | .applyService .., r => r = .error e
  | .deleteService .., r => r = .error e
  | .readConfig _, r => r = .error e
  | .applyConfig .., r => r = .error e
  | .processAlive _, r => r = .error e
  | .publish _, _ | .external _, _ => False

/-- A retry may help, or it is a call that has failed. -/
def Error.Excused (e : Error) (log : Log TargetCall) : Prop :=
  e.isRetryable = true ∨ ∃ x ∈ log, x.1.Fails e x.2

/-- The pods and the workloads that there are. -/
structure Snapshot where
  pod : String → String → Option Pod
  pods : String → String → List Pod
  workload : Controller → String → String → Option Workload

namespace Snapshot

/-- Every call may fail, and nothing is said about what is not in the snapshot. -/
def Allows (s : Snapshot) : (c : TargetCall) → Answer c → Prop
  | .getPod ns name, r => ∀ found, r = .ok found → found = s.pod ns name
  | .listPods ns selector, r => ∀ found, r = .ok found → found = s.pods ns selector
  | .getWorkload c ns name, r => ∀ found, r = .ok found → found = s.workload c ns name
  | _, _ => True

def Serves (s : Snapshot) (c : TargetCall) (log : Log TargetCall) (r : Answer c)
    (log' : Log TargetCall) : Prop := s.Allows c r ∧ log' = log ++ [⟨c, r⟩]

variable {s : Snapshot} {α β : Type}

/-- Before this snapshot the work comes to a value with the property, or it is excused. -/
structure Gives (s : Snapshot) (work : Work α) (P : α → Prop) : Prop where
  ok : ∀ {log a log'}, work.run.Exec s.Serves log (.ok a) log' → P a
  error : ∀ {log e log'}, work.run.Exec s.Serves log (.error e) log' → e.Excused log'

section

variable {P : α → Prop} {Q : β → Prop}

theorem gives_pure {a : α} (h : P a) : s.Gives (pure a) P where
  ok hexec := by
    obtain ⟨ha, -⟩ := Attempt.exec_pure.mp hexec
    rw [Except.ok.inj ha]
    exact h
  error hexec := nomatch (Attempt.exec_pure.mp hexec).1

theorem gives_lift {v : Except Error α} (hok : ∀ a, v = .ok a → P a)
    (herror : ∀ e, v = .error e → e.isRetryable = true) : s.Gives (liftM v) P where
  ok hexec := hok _ (Attempt.exec_lift.mp hexec).1.symm
  error hexec := .inl (herror _ (Attempt.exec_lift.mp hexec).1.symm)

theorem gives_throw {e : Error} (h : e.isRetryable = true) : s.Gives (throw e) P :=
  gives_lift (v := .error e) nofun fun _ he => Except.error.inj he ▸ h

theorem Gives.bind {x : Work α} {f : α → Work β} (hx : s.Gives x P)
    (hf : ∀ a, P a → s.Gives (f a) Q) : s.Gives (x >>= f) Q where
  ok hexec := by
    obtain ⟨a, log, hfirst, hrest⟩ := Attempt.exec_bind_ok.mp hexec
    exact (hf a (hx.ok hfirst)).ok hrest
  error hexec := by
    rcases Attempt.exec_bind.mp hexec with ⟨a, log, hfirst, hrest⟩ | ⟨e, hfirst, he⟩
    · exact (hf a (hx.ok hfirst)).error hrest
    · rw [Except.error.inj he]
      exact hx.error hfirst

theorem gives_throw_bind {e : Error} {f : α → Work β} (h : e.isRetryable = true) :
    s.Gives (throw e >>= f) Q :=
  (gives_throw (P := fun _ => False) h).bind fun _ => False.elim

end

/-! ## Calls -/

theorem Serves.excused {c : TargetCall} {log log' : Log TargetCall} {r : Answer c} {e : Error}
    (h : s.Serves c log r log') (hr : c.Fails e r) : e.Excused log' := by
  rw [h.2]
  exact .inr ⟨⟨c, r⟩, by simp, hr⟩

theorem Serves.forall_mem {c : TargetCall} {log log' : Log TargetCall} {r : Answer c}
    {P : TargetCall → Prop} (h : s.Serves c log r log') (hc : P c) (hlog : ∀ x ∈ log, P x.1) :
    ∀ x ∈ log', P x.1 := by
  rw [h.2]
  exact List.forall_mem_append.mpr ⟨hlog, List.forall_mem_singleton.mpr hc⟩

section

variable (ns name : String) (c : Controller) (id : ContainerId)

theorem gives_getPod : s.Gives (Work.getPod ns name) (· = s.pod ns name) where
  ok hexec := (Prog.exec_perform.mp hexec).1 _ rfl
  error hexec := (Prog.exec_perform.mp hexec).excused rfl

theorem gives_listPods : s.Gives (Work.listPods ns name) (· = s.pods ns name) where
  ok hexec := (Prog.exec_perform.mp hexec).1 _ rfl
  error hexec := (Prog.exec_perform.mp hexec).excused rfl

theorem gives_getWorkload : s.Gives (Work.getWorkload c ns name) (· = s.workload c ns name) where
  ok hexec := (Prog.exec_perform.mp hexec).1 _ rfl
  error hexec := (Prog.exec_perform.mp hexec).excused rfl

theorem gives_applyWorkload (w : Workload) : s.Gives (Work.applyWorkload c ns w) fun _ => True where
  ok _ := trivial
  error hexec := (Prog.exec_perform.mp hexec).excused rfl

theorem gives_getService : s.Gives (Work.getService ns name) fun _ => True where
  ok _ := trivial
  error hexec := (Prog.exec_perform.mp hexec).excused rfl

theorem gives_applyService (service : Kube.Service) :
    s.Gives (Work.applyService ns service) fun _ => True where
  ok _ := trivial
  error hexec := (Prog.exec_perform.mp hexec).excused rfl

theorem gives_readConfig : s.Gives (Work.readConfig id) fun _ => True where
  ok _ := trivial
  error hexec := (Prog.exec_perform.mp hexec).excused rfl

theorem gives_applyConfig (document logLevel : String) :
    s.Gives (Work.applyConfig id document logLevel) fun _ => True where
  ok _ := trivial
  error hexec := (Prog.exec_perform.mp hexec).excused rfl

theorem gives_processAlive : s.Gives (Work.processAlive id) fun _ => True where
  ok _ := trivial
  error hexec := (Prog.exec_perform.mp hexec).excused rfl

theorem gives_publish (n : Kube.Notice) : s.Gives (Work.publish n) fun _ => True where
  ok _ := trivial
  error hexec := by
    obtain ⟨a, -, he⟩ := Attempt.exec_always.mp hexec
    cases he

end

/-! ## The pods of a target -/

/-- The pods behind a reference; `none` if there is no such workload. -/
def podsFor (s : Snapshot) (ns : String) (target : WorkloadRef) : Option (List Pod) :=
  match target.kind.controller? with
  | none => (s.pod ns target.name).map fun p => [p]
  | some c => (s.workload c ns target.name).map fun w =>
    match (w.spec.bind (·.selector.matchLabels)).filter (!·.isEmpty) with
    | none => []
    | some labels =>
      (s.pods ns (Kube.selectorText labels)).filter (·.metadata.deletionTimestamp.isNone)

theorem gives_podsForWorkload (ns : String) (target : WorkloadRef) :
    s.Gives (podsForWorkload ns target) (· = s.podsFor ns target) := by
  unfold podsForWorkload podsFor
  cases target.kind.controller? with
  | none =>
    refine (gives_getPod ns target.name).bind fun pod hpod => ?_
    rw [← hpod]
    exact gives_pure rfl
  | some c =>
    refine (gives_getWorkload ns target.name c).bind fun w hw => ?_
    dsimp only
    rw [← hw]
    cases w with
    | none => exact gives_pure rfl
    | some w =>
      dsimp only [Option.map_some]
      cases (w.spec.bind (·.selector.matchLabels)).filter (!·.isEmpty) with
      | none => exact gives_pure rfl
      | some labels =>
        refine (gives_listPods ns _).bind fun pods hpods => ?_
        rw [hpods]
        exact gives_pure rfl

end Snapshot

open Snapshot

variable {s : Snapshot} {b : Binding} {request : Bridge} {peers : List Bridge} {pod : Pod}
  {pods : List Pod} {log log' : Log TargetCall}

/-! ## Sidecars -/

namespace Sidecar

/-- Every pod has the container. -/
def Fit (b : Binding) (pods : List Pod) : Prop :=
  ∀ pod ∈ pods, ∃ container, pod.container? b.container = some container

theorem fit_of_checkPods (h : checkPods b pods = .ok ()) : Fit b pods := by
  induction pods with
  | nil => exact fun _ => nofun
  | cons pod rest ih =>
    unfold checkPods at h
    cases hpod : checkPod b pod with
    | error e =>
      rw [hpod] at h
      cases h
    | ok u =>
      rw [hpod] at h
      refine List.forall_mem_cons.mpr ⟨?_, ih h⟩
      unfold checkPod at hpod
      split at hpod
      · cases hpod
      · next container hcontainer => exact ⟨container, hcontainer⟩

theorem fit_of_validate
    (h : (validate b request peers).run.Exec s.Serves log (.ok ()) log') :
    ∃ pods, s.podsFor b.namespaceName b.target = some pods ∧ Fit b pods := by
  unfold validate at h
  obtain ⟨_, _, _, h⟩ := Attempt.exec_bind_ok.mp h
  obtain ⟨_, _, _, h⟩ := Attempt.exec_bind_ok.mp h
  obtain ⟨found, log₁, hfound, h⟩ := Attempt.exec_bind_ok.mp h
  rw [← (gives_podsForWorkload _ _).ok hfound]
  cases found with
  | none => cases (Attempt.exec_lift.mp h).1
  | some pods =>
    refine ⟨pods, rfl, ?_⟩
    cases pods with
    | nil => exact fun _ => nofun
    | cons pod rest => exact fit_of_checkPods (Attempt.exec_lift.mp h).1.symm

theorem gives_renderConfig (h : ∃ container, pod.container? b.container = some container) :
    s.Gives (liftM (b.renderConfig pod) : Work Carrier.Config) fun _ => True := by
  obtain ⟨container, hcontainer⟩ := h
  refine gives_lift (fun _ _ => trivial) fun e he => ?_
  unfold Binding.renderConfig at he
  rw [hcontainer] at he
  cases haddress : pod.status.bind (·.podIP) with
  | none =>
    rw [haddress] at he
    cases he
    rfl
  | some address =>
    rw [haddress] at he
    cases he

theorem gives_currentConfig (b : Binding) (pod : Pod) :
    s.Gives (b.currentConfig pod) fun _ => True :=
  (gives_readConfig _).bind fun _ _ => gives_pure trivial

theorem gives_pods (h : s.podsFor b.namespaceName b.target = some pods) :
    s.Gives b.pods (· = pods) := by
  refine (gives_podsForWorkload _ _).bind fun found hfound => gives_pure ?_
  rw [hfound, h]
  rfl

theorem gives_installEach {total i : Nat} (h : Fit b pods) :
    s.Gives (installEach b total i pods) fun _ => True := by
  induction pods generalizing i with
  | nil => exact gives_pure trivial
  | cons pod rest ih =>
    obtain ⟨hpod, hrest⟩ := List.forall_mem_cons.mp h
    unfold installEach
    split
    · exact gives_throw_bind rfl
    · refine (gives_renderConfig hpod).bind fun desired _ => ?_
      refine (gives_currentConfig b pod).bind fun current _ => ?_
      split
      · refine (gives_publish _).bind fun _ _ => ?_
        exact (gives_applyConfig _ _ _).bind fun _ _ => ih hrest
      · exact ih hrest

theorem gives_readyEach (h : Fit b pods) : s.Gives (readyEach b pods) fun _ => True := by
  induction pods with
  | nil => exact gives_pure trivial
  | cons pod rest ih =>
    obtain ⟨hpod, hrest⟩ := List.forall_mem_cons.mp h
    unfold readyEach
    split
    · exact gives_pure trivial
    · refine (gives_renderConfig hpod).bind fun desired _ => ?_
      refine (gives_currentConfig b pod).bind fun current _ => ?_
      split
      · exact gives_pure trivial
      · refine (gives_processAlive _).bind fun alive _ => ?_
        split
        · exact gives_pure trivial
        · exact ih hrest

section

variable (hpods : s.podsFor b.namespaceName b.target = some pods) (h : Fit b pods)

include hpods h

theorem gives_install : s.Gives (install b) fun _ => True := by
  refine (gives_pods hpods).bind fun found hfound => ?_
  subst hfound
  split
  · exact gives_throw_bind rfl
  · exact gives_installEach h

theorem gives_ready : s.Gives (ready b) fun _ => True := by
  refine (gives_pods hpods).bind fun found hfound => ?_
  subst hfound
  split
  · exact gives_pure trivial
  · exact gives_readyEach h

end

end Sidecar

/-! ## Copies -/

namespace Duplicate

variable {c : Controller} {base : Workload} {made : Workload × List PortMapping}

/-- The ports of the bridge are in order, and there is something to make a copy of. -/
structure Vetted (s : Snapshot) (b : Binding) (c : Controller) (base : Workload) : Prop where
  ports : PortMapping.check b.bridge b.parameters.portMappings false = .ok ()
  controller : b.target.kind.controller? = some c
  found : s.workload c b.namespaceName b.target.name = some base
  clones : ∃ made, b.clone c base = .ok made

theorem vetted_of_validate
    (h : (validate b request peers).run.Exec s.Serves log (.ok ()) log') :
    ∃ c base, Vetted s b c base := by
  unfold validate at h
  obtain ⟨_, _, _, h⟩ := Attempt.exec_bind_ok.mp h
  obtain ⟨_, _, _, h⟩ := Attempt.exec_bind_ok.mp h
  obtain ⟨_, _, hports, h⟩ := Attempt.exec_bind_ok.mp h
  cases hc : b.target.kind.controller? with
  | none =>
    rw [hc] at h
    cases (Attempt.exec_lift.mp h).1
  | some c =>
    rw [hc] at h
    obtain ⟨found, log₁, hfound, h⟩ := Attempt.exec_bind_ok.mp h
    split at h
    · cases (Attempt.exec_lift.mp h).1
    · next spec hspec =>
      obtain ⟨base, rfl, hspec⟩ := Option.bind_eq_some_iff.mp hspec
      refine ⟨c, base, (Attempt.exec_lift.mp hports).1.symm, hc,
        ((gives_getWorkload _ _ _).ok hfound).symm, clone_isOk_iff.mpr ?_⟩
      split at h
      · cases (Attempt.exec_lift.mp h).1
      · next hcontainer =>
        obtain ⟨container, hcontainer⟩ := Option.ne_none_iff_exists'.mp (by simpa using hcontainer)
        exact ⟨spec, container, hspec, hcontainer⟩

/-- Where nobody else has the target, nothing more is asked for. -/
theorem Vetted.exec_validate (h : Vetted s b c base)
    (hexclusive : request.ensureExclusive peers = .ok ())
    (hworkload : request.ensureWorkloadExclusive peers .duplicate = .ok ()) :
    (validate b request peers).run.Exec s.Serves log (.ok ())
      (log ++ [⟨.getWorkload c b.namespaceName b.target.name, .ok (some base)⟩]) := by
  obtain ⟨spec, container, hspec, hcontainer⟩ := clone_isOk_iff.mp h.clones
  refine exec_validate_found hexclusive hworkload h.ports h.controller ⟨fun found hfound => ?_, rfl⟩
    hspec (Option.isSome_iff_exists.mpr ⟨container, hcontainer⟩)
  rw [h.found, Except.ok.inj hfound]

theorem Vetted.gives_install (h : Vetted s b c base) : s.Gives (install b) fun _ => True := by
  obtain ⟨made, hclone⟩ := h.clones
  unfold install
  rw [h.controller]
  refine (gives_getWorkload _ _ _).bind fun found hfound => ?_
  rw [hfound, h.found]
  dsimp only
  rw [hclone]
  refine (gives_applyWorkload _ _ _).bind fun _ _ => ?_
  refine (gives_applyService _ _).bind fun _ _ => ?_
  exact gives_publish _

theorem gives_ready (b : Binding) : s.Gives (ready b) fun _ => True := by
  unfold ready
  cases b.target.kind.controller? with
  | none => exact gives_pure trivial
  | some c =>
    refine (gives_getWorkload _ _ _).bind fun found _ => ?_
    cases found with
    | none => exact gives_pure trivial
    | some w =>
      dsimp only
      split
      · exact gives_pure trivial
      · exact (gives_getService _ _).bind fun _ _ => gives_pure trivial

end Duplicate

/-! ## Both -/

/-- **What validation accepts can be installed.** Whatever goes wrong when an accepted bridge is
mounted or looked at before the same pods and workloads, a retry may help, or a call has failed. -/
theorem Snapshot.accepted_mounts {name : String} {p : Provider}
    (hp : Registry.standard.get? name = some p)
    (h : (p.validate b request peers).run.Exec s.Serves [] (.ok ()) log) :
    (∀ e log, (p.install b).run.Exec s.Serves [] (.error e) log → e.Excused log) ∧
      ∀ e log, (p.ready b).run.Exec s.Serves [] (.error e) log → e.Excused log := by
  have hgives : s.Gives (p.install b) (fun _ => True) ∧ s.Gives (p.ready b) fun _ => True := by
    rcases Registry.get_standard hp with ⟨-, rfl⟩ | ⟨-, rfl⟩
    · obtain ⟨pods, hpods, hfit⟩ := Sidecar.fit_of_validate h
      exact ⟨Sidecar.gives_install hpods hfit, Sidecar.gives_ready hpods hfit⟩
    · obtain ⟨c, base, hvetted⟩ := Duplicate.vetted_of_validate h
      exact ⟨hvetted.gives_install, Duplicate.gives_ready b⟩
  exact ⟨fun _ _ => hgives.1.error, fun _ _ => hgives.2.error⟩

namespace Sample

/-- Every name is that of a workload with the container. -/
def everywhere : Snapshot :=
  ⟨fun _ _ => none, fun _ _ => [], fun _ _ _ => some (selecting byLabel)⟩

theorem vetted_first :
    Duplicate.Vetted everywhere (binding first "shop") .deployment (selecting byLabel) where
  ports := rfl
  controller := rfl
  found := rfl
  clones := Duplicate.clone_isOk_iff.mpr ⟨_, _, rfl, rfl⟩

def forbidden : Error := .kube (.api ⟨"Failure", "not here", "Forbidden", 403⟩)

end Sample

open Sample in
/-- No retry helps where a workload may not be read, and that is nobody's fault here. -/
theorem Snapshot.accepted_mounts_first : ∃ log log',
    Registry.standard.get? "duplicate" = some .duplicate ∧
      (Provider.duplicate.validate (binding first "shop") first []).run.Exec
        everywhere.Serves [] (.ok ()) log ∧
      (Provider.duplicate.install (binding first "shop")).run.Exec
        everywhere.Serves [] (.error forbidden) log' ∧
      forbidden.isRetryable = false ∧ forbidden.Excused log' := by
  have hvalidate : (Provider.duplicate.validate (binding first "shop") first []).run.Exec
      everywhere.Serves [] (.ok ()) _ := vetted_first.exec_validate rfl rfl
  have hget : (Work.getWorkload .deployment "default" "shop").run.Exec everywhere.Serves []
      (.error forbidden) _ := Prog.exec_perform.mpr ⟨fun _ => nofun, rfl⟩
  have hinstall : (Provider.duplicate.install (binding first "shop")).run.Exec
      everywhere.Serves [] (.error forbidden) _ := Attempt.exec_bind.mpr (.inr ⟨_, hget, rfl⟩)
  have hp : Registry.standard.get? "duplicate" = some .duplicate := rfl
  exact ⟨_, _, hp, hvalidate, hinstall, rfl, (accepted_mounts hp hvalidate).1 _ _ hinstall⟩

end BridgeOperator
