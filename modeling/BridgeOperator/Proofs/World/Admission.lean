import BridgeOperator.Proofs.World.Episode
import BridgeOperator.Provider.Standard

/-!
The course of bridges that ask for a copy of a workload: new ones are admitted and wait for their
install or lose it (`Run.admits`, `Run.fails`), deleted ones are torn down (`Run.dismantles`). Two
sample bridges go through it in the runs that show where guarantees hold and where they break.
-/

namespace BridgeOperator

open BridgePass (ofBridge entering)

/-! ## What the provider of copies may meet -/

/-- A workload with one container. -/
def Kube.Workload.ofContainer (name : String) : Workload where
  metadata := .empty
  spec := some {
    replicas := none
    selector := .empty
    template := ⟨none, some ⟨[⟨name, none, none, none, none, none, none, none, []⟩], []⟩⟩
    other := [] }
  status := none

namespace Duplicate

variable {x request : Bridge} {b : Binding} {peers : List Bridge} {c : Kube.Controller}
  {e : Estate} {err : Error}

section

variable (hexclusive : request.ensureExclusive peers = .ok ())
  (hworkload : request.ensureWorkloadExclusive peers .duplicate = .ok ())
  (hports : PortMapping.check b.bridge b.parameters.portMappings false = .ok ())
  (hc : b.target.kind.controller? = some c)

include hexclusive hworkload hports hc

/-- With nobody in the way and nothing wrong with the ports a workload with the container will do. -/
theorem exec_validate_found {σ : Type} {serves : (c : TargetCall) → σ → Answer c → σ → Prop}
    {s s' : σ} {base : Kube.Workload} {spec : Kube.WorkloadSpec}
    (hget : serves (.getWorkload c b.namespaceName b.target.name) s (.ok (some base)) s')
    (hspec : base.spec = some spec)
    (hcontainer : (spec.template.container? b.container).isSome = true) :
    (validate b request peers).run.Exec serves s (.ok ()) s' := by
  unfold validate
  rw [hexclusive, hworkload, hports, hc]
  refine Attempt.exec_ok (a := ()) (Attempt.exec_pure.mpr ⟨rfl, rfl⟩) ?_
  refine Attempt.exec_ok (a := ()) (Attempt.exec_pure.mpr ⟨rfl, rfl⟩) ?_
  refine Attempt.exec_ok (a := ()) (Attempt.exec_pure.mpr ⟨rfl, rfl⟩) ?_
  refine Attempt.exec_ok (a := some base) (Prog.exec_perform.mpr hget) ?_
  rw [Option.bind_some, hspec]
  dsimp only
  rw [if_neg (by simpa using Option.isSome_iff_ne_none.mp hcontainer)]
  exact Attempt.exec_pure.mpr ⟨rfl, rfl⟩

/-- It is the workload that decides, which may be there or not. -/
theorem exec_validate :
    (validate b request peers).run.Exec (Estate.Serves x .look) e (.ok ()) e ∧
      (validate b request peers).run.Exec (Estate.Serves x .look) e
        (.error (b.invalid (.targetNotFound b.target b.namespaceName))) e := by
  constructor
  · have hget : Estate.Serves x .look (.getWorkload c b.namespaceName b.target.name) e
        (.ok (some (.ofContainer b.container))) e := rfl
    exact exec_validate_found hexclusive hworkload hports hc hget rfl
      (by simp [Kube.PodTemplate.container?, Kube.PodSpec.container?])
  · unfold validate
    rw [hexclusive, hworkload, hports, hc]
    refine Attempt.exec_ok (a := ()) (Attempt.exec_pure.mpr ⟨rfl, rfl⟩) ?_
    refine Attempt.exec_ok (a := ()) (Attempt.exec_pure.mpr ⟨rfl, rfl⟩) ?_
    refine Attempt.exec_ok (a := ()) (Attempt.exec_pure.mpr ⟨rfl, rfl⟩) ?_
    exact Attempt.exec_ok (a := none) (Prog.exec_perform.mpr rfl) (.done _ _)

end

/-- The workload is gone by the time of the install. -/
theorem exec_install_missing (hc : b.target.kind.controller? = some c) :
    (install b).run.Exec (Estate.Serves x .mount) e
      (.error (b.fault .duplicate (.targetMissing b.target b.namespaceName))) e := by
  unfold install
  rw [hc]
  exact Attempt.exec_ok (a := none) (Prog.exec_perform.mpr rfl) (.done _ _)

/-- The copy of the target. -/
def copy (b : Binding) (c : Kube.Controller) : Asset :=
  .workload c b.namespaceName (Clone.workloadName b.target.name)

/-- The copy of a workload is known by a name of its own. -/
theorem clone_ofContainer (b : Binding) (c : Kube.Controller) :
    ∃ made mappings, b.clone c (.ofContainer b.container) = .ok (made, mappings) ∧
      made.metadata.nameOrEmpty = Clone.workloadName b.target.name := by
  unfold Binding.clone Kube.Workload.ofContainer Binding.cloneTemplate
  simp only [Kube.PodTemplate.container?, Kube.PodSpec.container?, Option.bind_some,
    List.find?_cons, decide_true]
  exact ⟨_, _, rfl, rfl⟩

/-- The copy is made, and the service in front of it fails. -/
theorem exec_install_half (hc : b.target.kind.controller? = some c) (err : Error) :
    (install b).run.Exec (Estate.Serves x .mount) e (.error err)
      (e.put (copy b c) (some x.writer)) := by
  obtain ⟨made, mappings, hclone, hname⟩ := clone_ofContainer b c
  unfold install copy
  rw [hc, ← hname]
  refine Attempt.exec_ok (a := some (.ofContainer b.container)) (Prog.exec_perform.mpr rfl) ?_
  dsimp only
  rw [hclone]
  refine Attempt.exec_ok (a := (made, mappings)) (Attempt.exec_pure.mpr ⟨rfl, rfl⟩) ?_
  refine Attempt.exec_ok (a := ()) (Prog.exec_perform.mpr (.inl rfl)) ?_
  exact Attempt.exec_bind.mpr (.inr ⟨err, Prog.exec_perform.mpr (.inr ⟨⟨err, rfl⟩, rfl⟩), rfl⟩)

end Duplicate

/-! ## Worlds of given bridges -/

/-- The bridges of a list are stored. -/
def World.ofBridges (l : List Bridge) (e : Estate) : World := ⟨fun a => l.find? (·.address = a), e⟩

namespace World

variable {b b' d : Bridge} {k l : List Bridge} {e : Estate} {st : BridgeStatus}

theorem ofBridges_self (hk : ∀ c ∈ k, c.address ≠ b.address) :
    (ofBridges (k ++ b :: l) e).store b.address = some b := by
  have hfind : k.find? (·.address = b.address) = none := by simpa using hk
  simp [ofBridges, List.find?_append, hfind]

@[simp] theorem ofBridges_head : (ofBridges (b :: l) e).store b.address = some b := by
  simp [ofBridges]

theorem ofBridges_tail {a : Address} (h : b.address ≠ a) :
    (ofBridges (b :: l) e).store a = (ofBridges l e).store a := by
  simp [ofBridges, h]

theorem modify_ofBridges {f : Bridge → Option Bridge} (hk : ∀ c ∈ k, c.address ≠ b.address)
    (hf : f b = some b') (ha : b'.address = b.address) :
    (ofBridges (k ++ b :: l) e).modify b.address f = ofBridges (k ++ b' :: l) e := by
  unfold modify
  rw [ofBridges_self hk]
  unfold ofBridges
  congr 1
  funext a
  by_cases h : a = b.address
  · subst h
    have hfind : k.find? (·.address = b.address) = none := by simpa using hk
    simp [List.find?_append, hfind, hf, ha]
  · simp [List.find?_append, h, ha, Ne.symm h]

theorem having_ofBridges (hk : ∀ c ∈ k, c.address ≠ b.address) :
    (ofBridges (k ++ b :: l) e).having b st =
      ofBridges (k ++ { b with status := some st } :: l) e := by
  rw [← modify_patched (ofBridges_self hk)]
  exact modify_ofBridges hk rfl rfl

theorem mem_of_ofBridges {a : Address} (h : (ofBridges l e).store a = some d) :
    d ∈ l ∧ d.address = a :=
  ⟨List.mem_of_find?_eq_some h, by simpa using List.find?_some h⟩

theorem mem_ofBridges (h : (l.map Bridge.address).Nodup) :
    d ∈ l ↔ ∃ a, (ofBridges l e).store a = some d := by
  constructor
  · intro hd
    refine ⟨d.address, ?_⟩
    induction l with
    | nil => cases hd
    | cons b l ih =>
      obtain ⟨hb, hl⟩ := List.nodup_cons.mp h
      rcases List.mem_cons.mp hd with rfl | hd
      · exact ofBridges_head
      · have hne : b.address ≠ d.address := fun heq => hb (heq ▸ List.mem_map_of_mem hd)
        rw [ofBridges_tail hne]
        exact ih hl hd
  · rintro ⟨a, ha⟩
    exact (mem_of_ofBridges ha).1

/-- New bridges that are told apart by their uids. -/
theorem initial_ofBridges (hnew : ∀ b ∈ l, b.status = none)
    (huid : ∀ b ∈ l, ∀ c ∈ l, b.metadata.uid = c.metadata.uid → b.address = c.address) :
    (ofBridges l e).Initial where
  addressed hb := (mem_of_ofBridges hb).2
  uids := by
    intro a a' b c u hb hc hub huc
    obtain ⟨hbl, rfl⟩ := mem_of_ofBridges hb
    obtain ⟨hcl, rfl⟩ := mem_of_ofBridges hc
    exact huid b hbl c hcl (hub.trans huc.symm)
  status hb := hnew _ (mem_of_ofBridges hb).1

end World

/-! ## Passes over a new bridge -/

section

variable {ctx : BridgeContext} {rule : Rule} {b : Bridge} {binding : Binding} {peers : List Bridge}
  {c : Kube.Controller} {start w : World} {trail : List Move}

/-- What a new bridge meets against which nothing is found. -/
structure Acceptable (ctx : BridgeContext) (rule : Rule) (w : World) (b : Bridge)
    (q : BoundProvider) (peers : List Bridge) : Prop where
  claimed : b.Claimed
  new : b.status = none
  stored : w.store b.address = some b
  provider : b.provider ctx = .ok q
  listed : rule w (alone b) (.answered b.address .listBridges (.ok peers))
  valid : w.Employs b .look (q.provider.validate q.binding b peers) (.ok ()) w

/-- What a new bridge meets that is admitted by the provider of copies. -/
structure Admissible (ctx : BridgeContext) (rule : Rule) (w : World) (b : Bridge)
    (binding : Binding) (c : Kube.Controller) (peers : List Bridge) : Prop where
  claimed : b.Claimed
  new : b.status = none
  stored : w.store b.address = some b
  provider : b.provider ctx = .ok ⟨.duplicate, binding⟩
  controller : binding.target.kind.controller? = some c
  listed : rule w (alone b) (.answered b.address .listBridges (.ok peers))
  exclusive : b.ensureExclusive peers = .ok ()
  workload : b.ensureWorkloadExclusive peers .duplicate = .ok ()
  ports : PortMapping.check binding.bridge binding.parameters.portMappings false = .ok ()

/-- The status a new bridge enters INSTALLING with. -/
def Bridge.admittedStatus (ctx : BridgeContext) (b : Bridge) : BridgeStatus :=
  entering ((ofBridge ctx b).withSpec .initial) .installing none ⟨0, 0⟩

/-- The error of an install that may succeed later. -/
def Error.passing : Error := .internal "service" "unavailable"

/-- The status of a new bridge whose install is to be tried again. -/
def Bridge.pendingStatus (ctx : BridgeContext) (b : Bridge) : BridgeStatus :=
  { b.admittedStatus ctx with message := some s!"install pending: {Error.passing.message}" }

/-- The status of a new bridge whose target is gone by the time of its install. -/
def Bridge.failedStatus (ctx : BridgeContext) (b : Bridge) (binding : Binding) : BridgeStatus :=
  let e := binding.fault .duplicate (.targetMissing binding.target binding.namespaceName)
  entering (b.admittedStatus ctx) .error (some e.message) ⟨0, 0⟩

/-- The status of a new bridge whose install has failed and is to be tried again. -/
def Bridge.awaitingStatus (ctx : BridgeContext) (b : Bridge) (error : Error) : BridgeStatus :=
  { b.admittedStatus ctx with message := some s!"install pending: {error.message}" }

/-- A bridge that has been admitted, with an install that has failed and is to be tried again. -/
def Bridge.awaiting (ctx : BridgeContext) (b : Bridge) (error : Error) : Bridge :=
  { b with status := some (b.awaitingStatus ctx error) }

theorem Admissible.acceptable (h : Admissible ctx rule w b binding c peers) :
    Acceptable ctx rule w b ⟨.duplicate, binding⟩ peers where
  claimed := h.claimed
  new := h.new
  stored := h.stored
  provider := h.provider
  listed := h.listed
  valid :=
    ⟨rfl, (Duplicate.exec_validate h.exclusive h.workload h.ports h.controller).1⟩

theorem Acceptable.exec {q : BoundProvider} (h : Acceptable ctx rule w b q peers)
    (hperm : rule.Permits b) {v : Except Error Action} {w' : World}
    (hnext : ((ofBridge ctx b).fromInstalling (b.admittedStatus ctx)).run.Exec
      (World.Grants rule (fun _ => True) b) (w.having b (b.admittedStatus ctx)) v w') :
    (b.reconcile ctx).run.Exec (World.Grants rule (fun _ => True) b) w v w' := by
  refine exec_live h.claimed (exec_accepted (exec_new h.new) rfl ?_ hnext)
  exact exec_accept hperm ⟨0, 0⟩ h.stored h.provider h.listed h.valid trivial

/-- A bridge that has been admitted, with an install that is to be tried again. -/
def Bridge.pending (ctx : BridgeContext) (b : Bridge) : Bridge :=
  { b with status := some (b.pendingStatus ctx) }

/-- A bridge that has been admitted and found its target gone. -/
def Bridge.failed (ctx : BridgeContext) (b : Bridge) (binding : Binding) : Bridge :=
  { b with status := some (b.failedStatus ctx binding) }

variable {k l : List Bridge} {e : Estate} (hk : ∀ c ∈ k, c.address ≠ b.address)
  (hrun : Run (.programs ctx) rule start trail (.quiet _ (.ofBridges (k ++ b :: l) e)))
  (hperm : rule.Permits b)

include hk hrun hperm

/-- The bridge is admitted, and its install is to be tried again. -/
theorem Run.awaits {q : BoundProvider} {error : Error} {e' : Estate}
    (h : Acceptable ctx rule (.ofBridges (k ++ b :: l) e) b q peers)
    (herror : error.isRetryable = true)
    (hinstall : (q.provider.install q.binding).run.Exec (Estate.Serves b .mount) e (.error error)
      e') : ∃ later, Run (.programs ctx) rule start (later ++ trail)
    (.quiet _ (.ofBridges (k ++ b.awaiting ctx error :: l) e')) ∧
    ∀ m ∈ later, m.OfPass rule (fun _ => True) b := by
  let w : World := .ofBridges (k ++ b :: l) e
  have hemploys : (w.having b (b.admittedStatus ctx)).Employs b .mount
      (q.provider.install q.binding) (.error error)
      ⟨(w.having b (b.admittedStatus ctx)).store, e'⟩ := ⟨rfl, hinstall⟩
  have hpending : ((ofBridge ctx b).fromInstalling (b.admittedStatus ctx)).run.Exec
      (World.Grants rule (fun _ => True) b) (w.having b (b.admittedStatus ctx)) (.ok .retry)
      (.ofBridges (k ++ b.awaiting ctx error :: l) e') := by
    have hstore : (⟨(w.having b (b.awaitingStatus ctx error)).store, e'⟩ : World) =
        .ofBridges (k ++ b.awaiting ctx error :: l) e' := by
      rw [World.having_ofBridges hk]
      rfl
    rw [← hstore, ← World.having_having]
    exact exec_pending hperm h.provider hemploys World.having_store herror rfl trivial
  exact hrun.pass hperm h.stored (h.exec hperm hpending)

variable (h : Admissible ctx rule (.ofBridges (k ++ b :: l) e) b binding c peers)

include h

/-- The bridge is admitted and its copy made, and the install is to be tried again. -/
theorem Run.admits : ∃ later, Run (.programs ctx) rule start (later ++ trail)
    (.quiet _ (.ofBridges (k ++ b.pending ctx :: l)
      (e.put (Duplicate.copy binding c) (some b.writer)))) ∧
    ∀ m ∈ later, m.OfPass rule (fun _ => True) b :=
  Run.awaits hk hrun hperm h.acceptable rfl (Duplicate.exec_install_half h.controller .passing)

/-- The bridge is admitted, and fails for good. -/
theorem Run.fails : ∃ later, Run (.programs ctx) rule start (later ++ trail)
    (.quiet _ (.ofBridges (k ++ b.failed ctx binding :: l) e)) ∧
    ∀ m ∈ later, m.OfPass rule (fun _ => True) b := by
  let w : World := .ofBridges (k ++ b :: l) e
  have hinstall : (w.having b (b.admittedStatus ctx)).Employs b .mount
      (Provider.duplicate.install binding) (.error (binding.fault .duplicate
        (.targetMissing binding.target binding.namespaceName)))
      (w.having b (b.admittedStatus ctx)) :=
    ⟨rfl, Duplicate.exec_install_missing h.controller⟩
  have hfailed : ((ofBridge ctx b).fromInstalling (b.admittedStatus ctx)).run.Exec
      (World.Grants rule (fun _ => True) b) (w.having b (b.admittedStatus ctx)) (.ok .awaitChange)
      (.ofBridges (k ++ b.failed ctx binding :: l) e) := by
    have hagain : (w.having b (b.admittedStatus ctx)).having b (b.failedStatus ctx binding) =
        w.having b (b.failedStatus ctx binding) := World.having_having
    have hstore : w.having b (b.failedStatus ctx binding) =
        .ofBridges (k ++ b.failed ctx binding :: l) e := World.having_ofBridges hk
    rw [← hstore, ← hagain]
    exact exec_failed hperm ⟨0, 0⟩ h.provider hinstall World.having_store rfl trivial
  exact hrun.pass hperm h.stored (h.acceptable.exec hperm hfailed)

end

/-! ## The pass over a deleted bridge -/

/-- The bridge is deleted, and a provider is to take down what it may have installed. -/
structure Bridge.Dismantles (ctx : BridgeContext) (b : Bridge) (q : BoundProvider) : Prop where
  namespaced : ∃ ns, b.metadata.namespaceName = some ns
  deleted : b.metadata.deletionTimestamp.isSome = true
  finalizer : b.metadata.hasFinalizer Bridge.finalizer = true
  installed : b.statusOrInitial.everInstalled = true
  provider : b.applied.provider ctx = .ok q

section

variable {ctx : BridgeContext} {rule : Rule} {start w w' : World} {trail : List Move} {b : Bridge}
  {q : BoundProvider} {r : Except Error Unit}

theorem Bridge.Dismantles.reconcile (h : b.Dismantles ctx q) :
    ∃ next, (b.reconcile ctx).run = .call (.uninstall q) next := by
  obtain ⟨ns, hns⟩ := h.namespaced
  unfold Bridge.reconcile Bridge.remove Bridge.tearDownDeleted Bridge.tearDown
  rw [if_pos h.deleted, hns, h.finalizer, h.installed, h.provider]
  exact ⟨_, rfl⟩

/-- The pass over a deleted bridge, up to the uninstall. -/
theorem Run.dismantles (hrun : Run (.programs ctx) rule start trail (.quiet _ w))
    (hperm : rule.Permits b) (hb : w.store b.address = some b) (h : b.Dismantles ctx q)
    (huninstall : w.Employs b .unmount (q.provider.uninstall q.binding) r w') :
    ∃ s, Run (.programs ctx) rule start (⟨w, alone b, .answered b.address (.uninstall q) r, w'⟩ ::
      ⟨w, fun _ => none, .began b.address, w⟩ :: trail) s := by
  obtain ⟨next, hnext⟩ := h.reconcile
  have hbegan := Run.move hrun (hperm.began w) (Scene.take_single hb)
  have hopens : (Machine.programs ctx).opens b = .call (.uninstall q) next := hnext
  rw [hopens] at hbegan
  have hstep : Step (.programs ctx) (.single _ w b (.call (.uninstall q) next))
      (.answered b.address (.uninstall q) r) (.single _ w' b (next r)) :=
    Scene.answer_single (.call _ next r) huninstall
  have hrule : rule w (Scene.single (.programs ctx) w b (.call (.uninstall q) next)).bridges
      (.answered b.address (.uninstall q) r) := by
    rw [Scene.bridges_single]
    exact hperm.answered w (.uninstall q) r (by simp)
  have hmove := Run.move hbegan hrule hstep
  rw [Scene.bridges_single] at hmove
  exact ⟨_, hmove⟩

end

/-! ## Between the passes -/

section

variable {m : Machine} {rule : Rule} {start : World} {trail : List Move} {b : Bridge}
  {l : List Bridge} {e : Estate} (hrun : Run m rule start trail (.quiet m (.ofBridges (b :: l) e)))

include hrun

theorem Run.edits (spec : BridgeSpec)
    (hrule : rule (.ofBridges (b :: l) e) (fun _ => none) (.edited b.address spec)) :
    Run m rule start (⟨.ofBridges (b :: l) e, fun _ => none, .edited b.address spec,
      .ofBridges ({ b with spec } :: l) e⟩ :: trail)
      (.quiet m (.ofBridges ({ b with spec } :: l) e)) := by
  have hedited : World.modify (.ofBridges (b :: l) e) b.address (fun b => some { b with spec }) =
      .ofBridges ({ b with spec } :: l) e := World.modify_ofBridges (k := []) (by simp) rfl rfl
  rw [← hedited]
  exact hrun.move hrule .edit

theorem Run.amends {metadata : Kube.Metadata} (hsame : b.metadata.SameObject metadata)
    (hrule : rule (.ofBridges (b :: l) e) (fun _ => none) (.amended b.address metadata)) :
    Run m rule start (⟨.ofBridges (b :: l) e, fun _ => none, .amended b.address metadata,
      .ofBridges ({ b with metadata } :: l) e⟩ :: trail)
      (.quiet m (.ofBridges ({ b with metadata } :: l) e)) := by
  have hamended : World.modify (.ofBridges (b :: l) e) b.address
      (fun b => some { b with metadata }) = .ofBridges ({ b with metadata } :: l) e :=
    World.modify_ofBridges (k := []) (by simp) rfl (Bridge.address_amended hsame)
  rw [← hamended]
  exact hrun.move hrule (.amend World.ofBridges_head hsame)

end

/-! ## Sample bridges -/

namespace Sample

/-- The operator as it comes. -/
def context : BridgeContext := ⟨.default, .standard⟩

/-- A request for a copy of a workload. -/
def spec (target : String) : BridgeSpec where
  provider := "duplicate"
  targetNamespace := "default"
  target
  targetContainer := "app"
  providerParameter := .empty
  client := none

def metadata (name : String) : Kube.Metadata :=
  { Kube.Metadata.empty with
    name := some name
    namespaceName := some "gefyra"
    uid := some name
    creationTimestamp := some ⟨0, 0⟩
    finalizers := some [Bridge.finalizer] }

/-- A new bridge. -/
def bridge (name target : String) : Bridge := ⟨metadata name, spec target, none⟩

/-- What a request is about when it reaches the provider of copies. -/
def binding (b : Bridge) (workload : String) : Binding :=
  ⟨.default, b.name, b.reference, b.spec, ⟨.deployment, workload⟩⟩

variable {name target workload : String} {b : Bridge} {rule : Rule} {w : World}
  {peers : List Bridge}

theorem provider_eq (hspec : b.spec = spec target)
    (h : WorkloadRef.parse target = .ok ⟨.deployment, workload⟩) :
    b.provider context = .ok ⟨.duplicate, binding b workload⟩ := by
  have hparse : WorkloadRef.parse b.spec.target = .ok ⟨.deployment, workload⟩ := by
    rw [hspec]
    exact h
  have hworkload : b.workload = .ok ⟨.deployment, workload⟩ := by
    unfold Bridge.workload
    rw [hparse]
  unfold Bridge.provider Binding.ofBridge
  rw [hworkload, hspec]
  show _ = Except.ok (⟨.duplicate, ⟨_, _, _, b.spec, _⟩⟩ : BoundProvider)
  rw [hspec]
  rfl

theorem claimed_bridge : (bridge name target).Claimed := ⟨⟨_, rfl⟩, rfl, by rfl⟩

/-- A new bridge is admissible if nobody stands in its way. -/
theorem admissible (h : WorkloadRef.parse target = .ok ⟨.deployment, workload⟩)
    (hstored : w.store (bridge name target).address = some (bridge name target))
    (hlisted : rule w (alone (bridge name target))
      (.answered (bridge name target).address .listBridges (.ok peers)))
    (hexclusive : (bridge name target).ensureExclusive peers = .ok ())
    (hworkload : (bridge name target).ensureWorkloadExclusive peers .duplicate = .ok ()) :
    Admissible context rule w (bridge name target) (binding (bridge name target) workload)
      .deployment peers where
  claimed := claimed_bridge
  new := rfl
  stored := hstored
  provider := provider_eq rfl h
  controller := rfl
  listed := hlisted
  exclusive := hexclusive
  workload := hworkload
  ports := rfl

theorem parse_shop : WorkloadRef.parse "deploy/shop" = .ok ⟨.deployment, "shop"⟩ := by rfl

theorem parse_cart : WorkloadRef.parse "deploy/cart" = .ok ⟨.deployment, "cart"⟩ := by rfl

/-- Two new bridges for one workload. -/
def first : Bridge := bridge "first" "deploy/shop"
def second : Bridge := bridge "second" "deploy/shop"

def start : World := .ofBridges [first, second] .empty

theorem mem_start {a : Address} (h : start.store a = some b) : b = first ∨ b = second := by
  simpa using (World.mem_of_ofBridges h).1

theorem initial_start : start.Initial := by
  refine World.initial_ofBridges ?_ ?_ <;>
    simp [first, second, bridge, metadata, Bridge.address, Bridge.name]

theorem admissible_first (hlisted : rule start (alone first)
    (.answered first.address .listBridges (.ok [first, second]))) :
    Admissible context rule start first (binding first "shop") .deployment [first, second] :=
  admissible parse_shop World.ofBridges_head hlisted rfl rfl

/-- The first bridge, edited while it holds its target. -/
def edited : Bridge := { first.pending context with spec := spec "deploy/cart" }

/-- The metadata of a bridge that is being deleted. -/
def deletion (name : String) : Kube.Metadata :=
  { metadata name with deletionTimestamp := some ⟨1, 0⟩ }

theorem sameObject_deletion : (metadata name).SameObject (deletion name) :=
  ⟨rfl, rfl, rfl, rfl, rfl⟩

end Sample
end BridgeOperator
