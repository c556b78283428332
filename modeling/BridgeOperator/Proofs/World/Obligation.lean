import BridgeOperator.Proofs.World.Custody

/-!
What is installed is owed an uninstall. From its install on a bridge stays claimed, and its record
goes on naming the spec that was installed, whatever becomes of the passes over it, until the
provider of that spec has been called to take it down.
-/

namespace BridgeOperator

open BridgePass (ofBridge Moment Phase)

/-- Bridges with this spec are given this provider. -/
structure BridgeContext.Mounts (ctx : BridgeContext) (provider : Provider) (spec : BridgeSpec) :
    Prop where
  parsed : ∃ target, WorkloadRef.parse spec.target = .ok target
  found : ctx.registry.get? spec.provider = some provider

section

variable {ctx : BridgeContext} {b : Bridge} {q : BoundProvider} {provider : Provider}
  {spec : BridgeSpec}

theorem Bridge.mounts_of_provider (h : b.provider ctx = .ok q) :
    ctx.Mounts q.provider q.binding.spec := by
  obtain ⟨hbinding, hfound⟩ := provider_eq_ok h
  obtain ⟨target, htarget, -⟩ := Binding.ofBridge_eq_ok hbinding
  rw [provider_spec h]
  exact ⟨⟨target, workload_eq_ok htarget⟩, hfound⟩

theorem BridgeContext.Mounts.bound (h : ctx.Mounts provider spec) (hspec : b.spec = spec) :
    ∃ q, b.provider ctx = .ok q ∧ q.provider = provider ∧ q.binding.spec = spec := by
  subst hspec
  obtain ⟨target, htarget⟩ := h.parsed
  unfold Bridge.provider Binding.ofBridge Bridge.workload Registry.build
  rw [htarget, h.found]
  exact ⟨_, rfl, rfl, rfl⟩

end

namespace BridgeStatus

/-- The status names the spec for which something may be installed. -/
structure Owes (s : BridgeStatus) (spec : BridgeSpec) : Prop where
  recorded : s.lastAppliedSpec = some spec.canonical
  installed : s.everInstalled = true
  decided : s.state ≠ .requested
  present : s.state ≠ .removed

end BridgeStatus

theorem BridgeContext.Mounts.applied {ctx : BridgeContext} {b : Bridge} {provider : Provider}
    {spec : BridgeSpec} (h : ctx.Mounts provider spec) (hb : b.statusOrInitial.Owes spec) :
    ∃ q, b.applied.provider ctx = .ok q ∧ q.provider = provider ∧ q.binding.spec = spec := by
  rw [Bridge.applied_eq hb.recorded]
  exact h.bound rfl

namespace BridgePass

variable {p : BridgePass} {φ : Phase} {s cur st : BridgeStatus} {spec : BridgeSpec}
  {provider : Provider} {m m' : Moment}

/-- The pass is past what there was to take down. -/
def Phase.isRid : Phase → Bool
  | .reopening | .dismissing | .releasing => true
  | _ => false

@[simp] theorem isRid_standing : (p.standing s).isRid = false := by
  unfold standing
  split <;> try rfl
  all_goals split <;> rfl

theorem Phase.isRid_stored (h : φ.isRid = false) : (φ.stored p s).isRid = false := by
  cases φ <;> first | rfl | exact isRid_standing | cases h

theorem Phase.isRid_unstored (h : φ.isRid = false) : φ.unstored.isRid = false := by
  cases φ <;> first | rfl | cases h

section

variable (hm : p.context.Mounts provider spec) (hb : p.bridge.statusOrInitial.Owes spec)

include hm hb

theorem isRid_opening : p.opening.isRid = false := by
  obtain ⟨q, hq, -⟩ := hm.applied hb
  unfold opening
  dsimp only
  split
  · rw [if_pos hb.installed, hq]
    rfl
  · exact isRid_standing

theorem isRid_closing : p.closing.isRid = false := by
  obtain ⟨q, hq, -⟩ := hm.applied hb
  unfold closing
  rw [if_pos hb.installed, hq]
  rfl

theorem isRid_entry : p.entry.isRid = false := by
  unfold entry
  split
  · rfl
  · split
    · split
      · exact isRid_closing hm hb
      · rfl
    · split
      · exact isRid_opening hm hb
      · rfl

end

theorem Phase.Sound.owes_former {q : BoundProvider} (h : φ.Sound p cur)
    (hq : φ.former? = some q) (hm : p.context.Mounts provider spec) (hcur : cur.Owes spec) :
    q.provider = provider ∧ q.binding.spec = spec := by
  obtain ⟨rfl, hformer⟩ := h.former hq
  obtain ⟨q', hq', hprovider, hspec⟩ := hm.applied hcur
  obtain rfl : q' = q := Except.ok.inj (hq'.symm.trans hformer.provider)
  exact ⟨hprovider, hspec⟩

/-- The only way past what there is to take down is the uninstall. -/
theorem Does.isRid {c : BridgeCall} {r : Answer c} (h : Does p m c r m')
    (hφ : m.phase.isRid = false) (hs : m.phase.Sound p cur)
    (hm : p.context.Mounts provider spec) (hcur : cur.Owes spec) :
    m'.phase.isRid = false ∨
      ∃ q, c = .uninstall q ∧ q.provider = provider ∧ q.binding.spec = spec := by
  cases h with
  | now => exact .inl hφ
  | publish => exact .inl hφ
  | sleep => exact .inl hφ
  | claim =>
    obtain rfl : cur = p.bridge.statusOrInitial := hs
    exact .inl (isRid_opening hm hcur)
  | replace former => exact .inr ⟨former, rfl, hs.owes_former rfl hm hcur⟩
  | dismantle former => exact .inr ⟨former, rfl, hs.owes_former rfl hm hcur⟩
  | store => exact .inl (Phase.isRid_stored hφ)
  | lose => exact .inl (Phase.isRid_unstored hφ)
  | release => cases hφ
  | _ => exact .inl rfl

theorem Does.removeFinalizer_phase {ns name : String}
    {r : Answer (BridgeCall.removeFinalizer ns name)}
    (h : Does p m (.removeFinalizer ns name) r m') : m.phase = .releasing := by
  cases h
  rfl

/-- Once it has been INSTALLING, a bridge is known to have been. -/
theorem Advance.everInstalled (h : p.Advance cur φ st) (hk : cur.Kept)
    (hcur : cur.everInstalled = true) : st.everInstalled = true := by
  rw [hk.everInstalled] at hcur
  have hlog : st.stateTransitions.contains BridgeState.installing.text = true := by
    cases h <;> simp [withSpec, hcur]
  rw [BridgeStatus.everInstalled, hlog, Bool.or_true]

/-- A status that owes an uninstall is only followed by such, as long as the pass is not past it. -/
theorem Advance.owes (h : p.Advance cur φ st) (hφ : φ.isRid = false) (hk : cur.Kept)
    (hcur : cur.Owes spec) : st.Owes spec := by
  have hinstalled := h.everInstalled hk hcur.installed
  cases h with
  | reopen => cases hφ
  | accept provider t hs => exact absurd hs hcur.decided
  | reject e t hs => exact absurd hs hcur.decided
  | dismiss => cases hφ
  | note message hs hr => exact ⟨hcur.recorded, hinstalled, hcur.decided, hcur.present⟩
  | _ => exact ⟨hcur.recorded, hinstalled, nofun, nofun⟩

end BridgePass

namespace Move

/-- The provider is called to take down what it has installed for `spec`. -/
def Unmounts (m : Move) (a : Address) (provider : Provider) (spec : BridgeSpec) : Prop :=
  ∃ q r, m.event = .answered a (.uninstall q) r ∧ q.provider = provider ∧ q.binding.spec = spec

end Move

variable {ctx : BridgeContext} {s s' : Scene (.table ctx)} {e : Event} {a : Address}
  {provider : Provider} {spec : BridgeSpec}

/-- The bridge is kept for its uninstall, and the pass over it is not past that. -/
structure Owed (a : Address) (spec : BridgeSpec) (s : Scene (.table ctx)) : Prop where
  stored : ∃ b, s.world.store a = some b ∧ b.Anchored ∧ b.statusOrInitial.Owes spec
  pass : ∀ {x φ}, s.passes a = some (x, φ) → φ.phase.isRid = false

namespace Owed

section

variable (h : Owed a spec s) (hs : s.Sound) (hm : ctx.Mounts provider spec)
  (hstep : Step (.table ctx) s e s')

include h hs hstep

theorem step_stored (hrule : Rule.custody s.world s.bridges e) :
    ∃ b, s'.world.store a = some b ∧ b.Anchored ∧ b.statusOrInitial.Owes spec := by
  obtain ⟨b, hb, hanchored, howes⟩ := h.stored
  have hkeep : ∀ ns name r, e ≠ .answered a (.removeFinalizer ns name) r := by
    rintro ns name r rfl
    cases hstep with
    | answer hp hdoes =>
      have hrid := h.pass hp
      rw [BridgePass.Does.removeFinalizer_phase hdoes] at hrid
      cases hrid
  obtain ⟨b', hb', hanchored'⟩ := hstep.anchored hs hrule hb hanchored hkeep
  refine ⟨b', hb', hanchored', ?_⟩
  have hturn := hstep.turn hs a
  rw [hb, hb'] at hturn
  cases hturn with
  | keep => exact howes
  | edit => exact howes
  | amend => exact howes
  | advance b x φ st r hp he hadv => exact hadv.owes (h.pass hp) (hs.kept hb) howes

include hm

theorem step_pass (hnone : ¬ (Move.of s e s').Unmounts a provider spec) {x : Bridge} {φ : Moment}
    (hp : s'.passes a = some (x, φ)) : φ.phase.isRid = false := by
  obtain ⟨b, hb, -, howes⟩ := h.stored
  have hcourse := hstep.course a
  rw [hp] at hcourse
  generalize hbefore : s.passes a = before at hcourse
  cases hcourse with
  | keep => exact h.pass hbefore
  | take _ he hb' hw =>
    rw [hb] at hb'
    cases hb'
    exact BridgePass.isRid_entry (p := ofBridge ctx x) hm howes
  | answer x φ φ' c r he hdoes hserve =>
    rcases hdoes.isRid (h.pass hbefore) (hs.phase hbefore hb) hm howes with hrid | ⟨q, rfl, hq⟩
    · exact hrid
    · exact absurd ⟨q, r, he, hq⟩ hnone

theorem step (hrule : Rule.custody s.world s.bridges e)
    (hnone : ¬ (Move.of s e s').Unmounts a provider spec) : Owed a spec s' where
  stored := step_stored h hs hstep hrule
  pass := step_pass h hs hm hstep hnone

end

/-- The install is what an uninstall is owed for. -/
theorem installed {q : BoundProvider} {r : Answer (BridgeCall.install q)} {rest : List Move}
    (h : Custody a rest s) (hs : s.Sound)
    (hstep : Step (.table ctx) s (.answered a (.install q) r) s') :
    Owed a q.binding.spec s' ∧ ctx.Mounts q.provider q.binding.spec := by
  cases hstep with
  | @answer _ x φ φ' _ _ w hp hdoes hserve =>
    obtain ⟨hprovider, b, hb, hanchored, hstate, hrecord⟩ := h.mounting hs hp hdoes
    have hstore : w.store = s.world.store :=
      hserve.store_eq (fun _ _ _ => nofun) (fun _ _ => nofun) fun _ _ => nofun
    rw [← Bridge.state_statusOrInitial] at hstate
    refine ⟨⟨⟨b, ?_, hanchored, hrecord, ?_, ?_, ?_⟩, ?_⟩, Bridge.mounts_of_provider hprovider⟩
    · show w.store a = some b
      rw [hstore, hb]
    · exact BridgeStatus.everInstalled_of_holdsTarget (by rw [hstate]; rfl)
    · rw [hstate]
      nofun
    · rw [hstate]
      nofun
    · intro y ψ hp'
      simp only [Function.update_self, Option.some.injEq, Prod.mk.injEq] at hp'
      obtain ⟨rfl, rfl⟩ := hp'
      cases hdoes <;> rfl

theorem run {start : World} {later earlier : List Move} {m : Move} {q : BoundProvider}
    {r : Answer (BridgeCall.install q)}
    (hrun : Run (.table ctx) .custody start (later ++ m :: earlier) s) (hstart : start.Initial)
    (he : m.event = .answered a (.install q) r)
    (hnone : ∀ m' ∈ later, ¬ m'.Unmounts a q.provider q.binding.spec) :
    Owed a q.binding.spec s ∧ ctx.Mounts q.provider q.binding.spec := by
  induction later generalizing s with
  | nil =>
    cases hrun with
    | move hrest hrule hstep =>
      obtain rfl := he
      exact installed (Custody.run hrest hstart) (hrest.sound hstart) hstep
  | cons m' later ih =>
    cases hrun with
    | move hrest hrule hstep =>
      obtain ⟨howed, hmounts⟩ := ih hrest fun m'' hm => hnone m'' (.tail _ hm)
      exact ⟨howed.step (hrest.sound hstart) hmounts hstep hrule (hnone _ (.head _)), hmounts⟩

end Owed

/-- Until it has been taken down, what was installed is on record and the bridge is kept. -/
theorem installed_until_uninstalled {start : World} {later earlier : List Move} {m : Move}
    {s : Scene (.programs ctx)} {q : BoundProvider} {r : Answer (BridgeCall.install q)}
    (hstart : start.Initial)
    (hrun : Run (.programs ctx) .custody start (later ++ m :: earlier) s)
    (he : m.event = .answered a (.install q) r) :
    (∃ m' ∈ later, m'.Unmounts a q.provider q.binding.spec) ∨
      ∃ b, s.world.store a = some b ∧ b.Anchored ∧
        b.statusOrInitial.lastAppliedSpec = some q.binding.spec.canonical := by
  obtain ⟨t, ht, htab⟩ := hrun.tabulated
  by_cases hunmount : ∃ m' ∈ later, m'.Unmounts a q.provider q.binding.spec
  · exact .inl hunmount
  · obtain ⟨howed, -⟩ := Owed.run ht hstart he fun m' hm' h => hunmount ⟨m', hm', h⟩
    obtain ⟨b, hb, hanchored, howes⟩ := howed.stored
    rw [htab.world] at hb
    exact .inr ⟨b, hb, hanchored, howes.recorded⟩

/-- The operator stops after the install of the first bridge, which is then edited. -/
theorem installed_until_uninstalled_shop : ∃ later m earlier s r,
    (World.ofBridges [Sample.first] .empty).Initial ∧
    Run (.programs Sample.context) .custody (.ofBridges [Sample.first] .empty)
      (later ++ m :: earlier) s ∧
    m.event = .answered Sample.first.address (.install Sample.copier) r ∧
    ((∃ m' ∈ later, m'.Unmounts Sample.first.address Sample.copier.provider
        Sample.copier.binding.spec) ∨
      ∃ b, s.world.store Sample.first.address = some b ∧ b.Anchored ∧
        b.statusOrInitial.lastAppliedSpec = some Sample.copier.binding.spec.canonical) := by
  obtain ⟨earlier, e, next, hrun⟩ := Sample.mounts_first
  have hends : Rule.custody (.ofBridges [Sample.admitted] e)
      (Scene.single (.programs Sample.context) (.ofBridges [Sample.admitted] e) Sample.first
        next).bridges (.ended Sample.first.address) := trivial
  have hended := hrun.move hends Scene.leave_single
  have hedited := hended.edits (Sample.spec "deploy/cart") trivial
  exact ⟨[_, _], _, earlier, _, _, Sample.initial_first, hedited, rfl,
    installed_until_uninstalled Sample.initial_first hedited rfl⟩

end BridgeOperator
