import BridgeOperator.Proofs.Cluster.Selection
import BridgeOperator.Proofs.Provider.Reach
import BridgeOperator.Proofs.World.Exclusion

/-!
Sidecars that two bridges configure. As long as specs are left alone, serial runs keep the targets
of the bridges that hold one apart (`Parted`). Targets are references, and what is configured are
the pods that they lead to. So two bridges share a sidecar where a pod is targeted by its name and
as one of a workload, or as one of two workloads (`Cluster.Overlap`), and nowhere else.
-/

namespace BridgeOperator

/-- Serial runs in which specs are left alone. -/
def Rule.steady : Rule
  | _, _, .edited .. => False
  | w, passes, e => Rule.serial w passes e

theorem Rule.serial_of_steady {w : World} {passes : Address → Option Bridge} {e : Event}
    (h : Rule.steady w passes e) : Rule.serial w passes e := by
  cases e with
  | edited => exact h.elim
  | _ => exact h

theorem permits_steady (b : Bridge) : Rule.steady.Permits b where
  began _ _ := rfl
  answered := (permits_serial b).answered
  ended _ := trivial

theorem steady_listed {l : List Bridge} {e : Estate} (h : (l.map Bridge.address).Nodup)
    (passes : Address → Option Bridge) (a : Address) :
    Rule.steady (.ofBridges l e) passes (.answered a .listBridges (.ok l)) :=
  serial_listed h passes a

/-- No two bridges that hold their targets have the same one. -/
def World.Parted (w : World) : Prop :=
  ∀ a a' b c, a ≠ a' → w.store a = some b → w.store a' = some c → b.state.holdsTarget = true →
    c.state.holdsTarget = true → b.sameTarget c = false

variable {ctx : BridgeContext} {s s' : Scene (.table ctx)} {e : Event}

theorem Turn.spec_unedited {a : Address} {b b' : Bridge} (h : Turn s e a (some b) (some b'))
    (hrule : Rule.steady s.world s.bridges e) : b'.spec = b.spec := by
  cases h with
  | keep => rfl
  | edit _ _ he =>
    rw [he] at hrule
    exact hrule.elim
  | amend => rfl
  | advance => rfl

/-- A bridge that holds its target after an event held it before, or no other bridge that holds a
target has the same one. -/
theorem Serial.parted_from (h : Serial s) (hs : s.Sound)
    (hrule : Rule.steady s.world s.bridges e) (hstep : Step (.table ctx) s e s') {a : Address}
    {b' : Bridge} (hb' : s'.world.store a = some b') (hholds : b'.state.holdsTarget = true) :
    (∃ b, s.world.store a = some b ∧ b.state.holdsTarget = true ∧ b'.spec = b.spec) ∨
      ∀ a' c, a' ≠ a → s'.world.store a' = some c → c.state.holdsTarget = true →
        b'.sameTarget c = false := by
  have hturn := hstep.turn hs a
  rw [hb'] at hturn
  rcases hturn.held hs hholds with
    ⟨b, hb, hbholds, -⟩ | ⟨b, x, st, q, t, hb, hp, -, -, hspec, -⟩
  · rw [hb] at hturn
    exact .inl ⟨b, hb, hbholds, hturn.spec_unedited hrule⟩
  · refine .inr fun a' c hne hc hcholds => ?_
    rw [h.elsewhere (Rule.serial_of_steady hrule) hs hstep (by rw [hp]; nofun) hne] at hc
    rw [Bridge.sameTarget_congr hspec rfl]
    exact h.not_sameTarget hp hne hb hc hcholds

theorem Serial.parted_step (h : Serial s) (hs : s.Sound)
    (hrule : Rule.steady s.world s.bridges e) (hstep : Step (.table ctx) s e s')
    (hparted : s.world.Parted) : s'.world.Parted := by
  intro a a' b' c' hne hb' hc' hbholds hcholds
  rcases h.parted_from hs hrule hstep hb' hbholds with ⟨b, hb, hbheld, hbspec⟩ | halone
  · rcases h.parted_from hs hrule hstep hc' hcholds with ⟨c, hc, hcheld, hcspec⟩ | halone
    · rw [Bridge.sameTarget_congr hbspec hcspec]
      exact hparted a a' b c hne hb hc hbheld hcheld
    · rw [Bridge.sameTarget_comm]
      exact halone a b' hne hb' hbholds
  · exact halone a' c' hne.symm hc' hcholds

theorem Run.parted {start : World} {trail : List Move}
    (hrun : Run (.table ctx) Rule.steady start trail s) (hreg : ctx.registry = .standard)
    (hstart : start.Initial) : s.world.Parted := by
  induction hrun with
  | start =>
    intro a a' b c hne hb hc hbholds
    rw [Bridge.state, hstart.status hb] at hbholds
    cases hbholds
  | move hrun hrule hstep ih =>
    have hserial := hrun.mono fun _ _ _ => Rule.serial_of_steady
    exact (Serial.run hserial hreg hstart).parted_step (hrun.sound hstart) hrule hstep ih

/-! ## What the provider of sidecars may meet -/

section

variable {x request : Bridge} {b : Binding} {peers : List Bridge} {e : Estate}

namespace Sidecar

/-- With nobody in the way and nothing wrong with the ports it is the pod that decides. -/
theorem exec_validate (pod : Kube.Pod) (hexclusive : request.ensureExclusive peers = .ok ())
    (hports : PortMapping.check b.bridge b.parameters.portMappings true = .ok ())
    (hname : b.target.kind = .pod → pod.name = b.target.name)
    (hlive : pod.metadata.deletionTimestamp = none) (hpod : checkPod b pod = .ok ()) :
    (validate b request peers).run.Exec (Estate.Serves x .look) e (.ok ()) e := by
  unfold validate
  rw [hexclusive, hports]
  refine Attempt.exec_ok (a := ()) (Attempt.exec_pure.mpr ⟨rfl, rfl⟩) ?_
  refine Attempt.exec_ok (a := ()) (Attempt.exec_pure.mpr ⟨rfl, rfl⟩) ?_
  refine Attempt.exec_ok (Binding.targetPods_find hlive hname e) ?_
  show (liftM (checkPods b [pod]) : Work Unit).run.Exec _ _ _ _
  rw [checkPods, hpod]
  exact Attempt.exec_pure.mpr ⟨rfl, rfl⟩

/-- The target is gone by the time of the install. -/
theorem exec_install_missing : (install b).run.Exec (Estate.Serves x .mount) e
    (.error (b.fault .carrier2 (.noPods b.target))) e := by
  have hmissing : b.targetPods.run.Exec (Estate.Serves x .mount) e (.ok none) e := by
    unfold Binding.targetPods podsForWorkload
    cases b.target.kind.controller? with
    | none =>
      refine Attempt.exec_ok (a := none) (Prog.exec_perform.mpr ⟨rfl, ?_⟩)
        (Attempt.exec_pure.mpr ⟨rfl, rfl⟩)
      intro pod hpod
      cases hpod
    | some c =>
      refine Attempt.exec_ok (a := none) (Prog.exec_perform.mpr rfl) ?_
      exact Attempt.exec_pure.mpr ⟨rfl, rfl⟩
  have hpods : b.pods.run.Exec (Estate.Serves x .mount) e (.ok []) e :=
    Attempt.exec_ok hmissing (Attempt.exec_pure.mpr ⟨rfl, rfl⟩)
  unfold install
  exact Attempt.exec_ok hpods (.done _ _)

end Sidecar

end

/-! ## A pod and its workload -/

theorem Bridge.provider_awaiting {b : Bridge} {error : Error} :
    (b.awaiting ctx error).provider ctx = b.provider ctx := rfl

namespace Sample

/-- A request for the sidecar of a workload. -/
def sidecarSpec (target : String) : BridgeSpec :=
  { spec target with
    provider := "carrier2"
    providerParameter := ⟨[⟨8080, 8080⟩], none, [], none⟩ }

/-- A bridge to a pod, and one to the workload the pod is of. -/
def toPod : Bridge := ⟨metadata "first", sidecarSpec "pod/shop-1", none⟩
def toWorkload : Bridge := ⟨metadata "second", sidecarSpec "deploy/shop", none⟩

def podBinding : Binding :=
  ⟨.default, toPod.name, toPod.reference, toPod.spec, ⟨.pod, "shop-1"⟩⟩

def workloadBinding : Binding :=
  ⟨.default, toWorkload.name, toWorkload.reference, toWorkload.spec, ⟨.deployment, "shop"⟩⟩

theorem provider_toPod : toPod.provider context = .ok ⟨.sidecar, podBinding⟩ := by rfl

theorem provider_toWorkload : toWorkload.provider context = .ok ⟨.sidecar, workloadBinding⟩ := by
  rfl

/-- The pod, with the sidecar in it. -/
def shopPod : Kube.Pod where
  metadata :=
    { Kube.Metadata.empty with
      name := some "shop-1"
      namespaceName := some "default"
      labels := some (.ofList [("app", "app")]) }
  spec := some ⟨[⟨"app", some "quay.io/gefyra/carrier2", none, none, none, none, none, none, []⟩],
    []⟩
  status := none

/-- The cluster that the pod and its workload are in. -/
def shop : Cluster :=
  { Cluster.empty ⟨0, 0⟩ with
    pods := .ofList [(Cluster.key "default" "shop-1", shopPod)]
    deployments := .ofList [(Cluster.key "default" "shop", .labelled)] }

theorem indexed_shop : shop.Indexed where
  keyed h := by
    obtain ⟨rfl, rfl⟩ := Prod.mk.inj (List.mem_singleton.mp h)
    rfl
  plain h := by
    obtain ⟨rfl, rfl⟩ := Prod.mk.inj (List.mem_singleton.mp h)
    decide

/-- The pod is the one of its name and one of its workload. -/
theorem overlap_shop : shop.Overlap podBinding workloadBinding where
  namespaceName := rfl
  container := rfl
  distinct := by decide
  workload := .inr (by decide)
  meet := by
    have hplain : Cluster.PlainLabels (.ofList [("app", "app")]) := by
      intro e he
      obtain rfl := List.mem_singleton.mp he
      decide
    have hselected : shopPod ∈ shop.selectPods "default"
        (Kube.selectorText (.ofList [("app", "app")])) :=
      (Cluster.mem_selectPods hplain rfl).mpr ⟨.head _, rfl, by decide⟩
    exact ⟨shopPod, .named rfl, .selected rfl rfl rfl rfl hselected rfl⟩

theorem initial_pair : (World.ofBridges [toPod, toWorkload] .empty).Initial := by
  refine World.initial_ofBridges ?_ ?_ <;>
    simp [toPod, toWorkload, metadata, Bridge.address, Bridge.name]

/-- The error both installs end with. -/
def gone (b : Binding) : Error := b.fault .carrier2 (.noPods b.target)

/-- Both bridges are admitted. -/
theorem both_hold : ∃ trail w b c,
    Run (.programs context) Rule.steady (.ofBridges [toPod, toWorkload] .empty) trail
      (.quiet _ w) ∧
    w.store toPod.address = some b ∧ w.store toWorkload.address = some c ∧
    b.state.holdsTarget = true ∧ c.state.holdsTarget = true ∧
    b.provider context = .ok ⟨.sidecar, podBinding⟩ ∧
    c.provider context = .ok ⟨.sidecar, workloadBinding⟩ := by
  let held := toPod.awaiting context (gone podBinding)
  have hfirst : Acceptable context Rule.steady (.ofBridges [toPod, toWorkload] .empty) toPod
      ⟨.sidecar, podBinding⟩ [toPod, toWorkload] :=
    { claimed := ⟨⟨_, rfl⟩, rfl, by rfl⟩
      new := rfl
      stored := World.ofBridges_head
      provider := provider_toPod
      listed := steady_listed (by decide) _ _
      valid := ⟨rfl, Sidecar.exec_validate shopPod rfl rfl (fun _ => rfl) rfl rfl⟩ }
  have hapart : ∀ c ∈ [held], c.address ≠ toWorkload.address := by decide
  have hexclusive : toWorkload.ensureExclusive [held, toWorkload] = .ok () := by
    refine Bridge.ensureExclusive_eq_ok.mpr fun peer hpeer hobject htarget => ?_
    rcases List.mem_pair.mp hpeer with rfl | rfl
    · have hother : toWorkload.sameTarget toPod = false := by rfl
      have hsame : toWorkload.sameTarget held = toWorkload.sameTarget toPod :=
        Bridge.sameTarget_congr rfl rfl
      rw [hsame, hother] at htarget
      cases htarget
    · have hself : toWorkload.sameObject toWorkload = true := by rfl
      rw [hself] at hobject
      cases hobject
  have hsecond : Acceptable context Rule.steady (.ofBridges [held, toWorkload] .empty)
      toWorkload ⟨.sidecar, workloadBinding⟩ [held, toWorkload] :=
    { claimed := ⟨⟨_, rfl⟩, rfl, by rfl⟩
      new := rfl
      stored := World.ofBridges_self (k := [held]) hapart
      provider := provider_toWorkload
      listed := steady_listed (by decide) _ _
      valid := ⟨rfl, Sidecar.exec_validate shopPod hexclusive rfl nofun rfl rfl⟩ }
  obtain ⟨trail, hrun, -⟩ := Run.awaits (k := []) (by simp) .start (permits_steady toPod) hfirst
    rfl Sidecar.exec_install_missing
  obtain ⟨trail', hrun', -⟩ := Run.awaits (k := [held]) hapart hrun (permits_steady toWorkload)
    hsecond rfl Sidecar.exec_install_missing
  exact ⟨_, _, _, _, hrun', World.ofBridges_head, World.ofBridges_self (k := [held]) hapart, rfl,
    rfl, Bridge.provider_awaiting.trans provider_toPod,
    Bridge.provider_awaiting.trans provider_toWorkload⟩

end Sample

/-- Two bridges that hold their targets configure one sidecar exactly if their targets overlap. -/
theorem sidecar_shared_iff_overlap {config : OperatorConfig} {start : World} {trail : List Move}
    {s : Scene (.programs ⟨config, .standard⟩)} (hstart : start.Initial)
    (hrun : Run (.programs ⟨config, .standard⟩) Rule.steady start trail s) {a a' : Address}
    {b c : Bridge} {q r : Binding} (hne : a ≠ a') (hb : s.world.store a = some b)
    (hc : s.world.store a' = some c) (hbholds : b.state.holdsTarget = true)
    (hcholds : c.state.holdsTarget = true)
    (hq : b.provider ⟨config, .standard⟩ = .ok ⟨.sidecar, q⟩)
    (hr : c.provider ⟨config, .standard⟩ = .ok ⟨.sidecar, r⟩) {cl : Cluster} (hcl : cl.Indexed) :
    (∃ id, cl.Configures q id ∧ cl.Configures r id) ↔ cl.Overlap q r := by
  obtain ⟨t, ht, htab⟩ := hrun.tabulated
  rw [← htab.world] at hb hc
  have hparted := ht.parted rfl hstart a a' b c hne hb hc hbholds hcholds
  refine hcl.shared_iff fun hnamespace hcontainer htarget => ?_
  have hsame : b.sameTarget c = true :=
    (Bridge.sameTarget_iff (Bridge.provider_eq_ok hq).1 (Bridge.provider_eq_ok hr).1).mpr
      ⟨hnamespace, htarget, hcontainer⟩
  rw [hparted] at hsame
  cases hsame

open Sample in
theorem sidecar_shared_iff_overlap_shop : ∃ trail w b c,
    Run (.programs context) Rule.steady (.ofBridges [toPod, toWorkload] .empty) trail
      (.quiet _ w) ∧
    w.store toPod.address = some b ∧ w.store toWorkload.address = some c ∧
    b.state.holdsTarget = true ∧ c.state.holdsTarget = true ∧
    ((∃ id, shop.Configures podBinding id ∧ shop.Configures workloadBinding id) ↔
      shop.Overlap podBinding workloadBinding) := by
  obtain ⟨trail, w, b, c, hrun, hb, hc, hbholds, hcholds, hq, hr⟩ := both_hold
  exact ⟨trail, w, b, c, hrun, hb, hc, hbholds, hcholds, sidecar_shared_iff_overlap initial_pair
    hrun (by decide) hb hc hbholds hcholds hq hr indexed_shop⟩

open Sample in
/-- The bridge to the pod and the one to its workload both configure the sidecar of the pod. -/
theorem holders_may_share_sidecar : ¬ ∀ (start : World) (trail : List Move)
    (s : Scene (.programs context)) (a a' : Address) (b c : Bridge) (q r : Binding) (cl : Cluster),
    start.Initial → Run (.programs context) Rule.steady start trail s → a ≠ a' →
    s.world.store a = some b →
    s.world.store a' = some c → b.state.holdsTarget = true → c.state.holdsTarget = true →
    b.provider context = .ok ⟨.sidecar, q⟩ → c.provider context = .ok ⟨.sidecar, r⟩ →
    cl.Indexed → ¬ ∃ id, cl.Configures q id ∧ cl.Configures r id := by
  intro hnever
  obtain ⟨trail, w, b, c, hrun, hb, hc, hbholds, hcholds, hq, hr⟩ := both_hold
  have hshared : ∃ id, shop.Configures podBinding id ∧ shop.Configures workloadBinding id :=
    (indexed_shop.shared_iff fun _ _ => overlap_shop.distinct).mpr overlap_shop
  exact hnever _ trail _ _ _ b c _ _ shop initial_pair hrun (by decide) hb hc hbholds hcholds hq hr
    indexed_shop hshared

end BridgeOperator
