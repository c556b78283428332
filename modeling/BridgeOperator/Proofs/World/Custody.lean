import BridgeOperator.Proofs.World.Admission
import BridgeOperator.Proofs.World.Verdict

/-!
What the store says at the moment of an install, when nobody but the operator writes statuses and
its own finalizer. The bridge has been claimed, its record names the spec that is installed, and
the provider has found nothing against that spec since the bridge last became a request. All of
this is written before the install, so it is there to go by if the operator stops in the middle.
-/

namespace BridgeOperator

open BridgePass (ofBridge Moment Phase)

/-- The bridge cannot go before it has been torn down. -/
def Bridge.Anchored (b : Bridge) : Prop := b.metadata.hasFinalizer Bridge.finalizer = true

/-- The teardown finalizer is the operator's alone: others leave it as it is, a bridge that has it
does not vanish, and none can be added to a bridge that is gone. -/
def Rule.custody : Rule
  | w, _, .amended a metadata => ∀ b, w.store a = some b →
    metadata.hasFinalizer Bridge.finalizer = b.metadata.hasFinalizer Bridge.finalizer
  | w, _, .vanished a => ∀ b, w.store a = some b → ¬ b.Anchored
  | w, _, .answered a (.addFinalizer ..) (.ok ()) => ∃ b, w.store a = some b
  | _, _, _ => True

namespace Move

/-- The provider finds nothing against `spec`. -/
def Accepts (m : Move) (a : Address) (spec : BridgeSpec) : Prop :=
  ∃ q request peers, m.event = .answered a (.validate q request peers) (.ok ()) ∧
    request.spec = spec ∧ q.binding.spec = spec

/-- The bridge becomes a request. -/
def Requests (m : Move) (a : Address) : Prop :=
  ∃ b', m.after.store a = some b' ∧ b'.state = .requested ∧
    ∀ b, m.before.store a = some b → b.state ≠ .requested

end Move

/-- `spec` has been accepted since the bridge last became a request. -/
def Vetted (a : Address) (spec : BridgeSpec) : List Move → Prop
  | [] => False
  | m :: rest => m.Accepts a spec ∨ ¬ m.Requests a ∧ Vetted a spec rest

theorem Kube.Metadata.hasFinalizer_addFinalizer (m : Kube.Metadata) (finalizer : String) :
    (m.addFinalizer finalizer).hasFinalizer finalizer = true := by
  simp [hasFinalizer, addFinalizer]

namespace BridgePass

variable {p : BridgePass} {m m' : Moment} {s : BridgeStatus}

/-- The pass is over a live bridge that it has claimed, or found claimed. -/
def Phase.isLive : Phase → Bool
  | .claiming | .dismantling _ | .dismissing | .releasing | .over => false
  | _ => true

theorem anchored_of_entry (h : p.entry.isLive = true) : p.bridge.Anchored := by
  unfold entry at h
  split at h
  · cases h
  · split at h
    · split at h
      · unfold closing at h
        split at h
        · split at h <;> cases h
        · cases h
      · cases h
    · split at h
      · next hfin => exact hfin
      · cases h

/-- Where a pass is live it was live before, unless it has just claimed its bridge. -/
theorem Does.isLive {c : BridgeCall} {r : Answer c} (h : Does p m c r m')
    (hm' : m'.phase.isLive = true) :
    m.phase.isLive = true ∨ (⟨c, r⟩ : Σ c : BridgeCall, Answer c) =
      ⟨.addFinalizer p.namespaceName p.bridge.name, .ok ()⟩ := by
  cases h with
  | now => exact .inl hm'
  | publish => exact .inl hm'
  | sleep => exact .inl hm'
  | claim => exact .inr rfl
  | store φ t s hs => cases φ <;> first | exact .inl rfl | cases hm'
  | lose φ t s e hs => cases φ <;> cases hm'
  | unclaimed => cases hm'
  | dismantle => cases hm'
  | release => cases hm'
  | _ => exact .inl rfl

theorem Does.install_phase {q : BoundProvider} {r : Answer (BridgeCall.install q)}
    (h : Does p m (.install q) r m') : ∃ s, m.phase = .mounting s q := by
  cases h <;> exact ⟨_, rfl⟩

end BridgePass

namespace World

variable {w w' : World} {a a' : Address} {f : Bridge → Option Bridge} {b : Bridge}
  (hb : w.store a = some b) (hanchored : b.Anchored)
  (hf : a = a' → ∃ b', f b = some b' ∧ b'.Anchored)

include hb hanchored hf

theorem anchored_modify : ∃ b', (w.modify a' f).store a = some b' ∧ b'.Anchored := by
  by_cases ha : a = a'
  · obtain ⟨b', hb', h'⟩ := hf ha
    subst ha
    exact ⟨b', by rw [modify_self, hb, Option.bind_some, hb'], h'⟩
  · exact ⟨b, by rw [modify_of_ne ha, hb], hanchored⟩

theorem anchored_settles {α : Type} {r : Except Error α} (h : Settles (w.modify a' f) w r w') :
    ∃ b', w'.store a = some b' ∧ b'.Anchored := by
  rcases h with rfl | ⟨-, rfl⟩
  · exact anchored_modify hb hanchored hf
  · exact ⟨b, hb, hanchored⟩

end World

variable {ctx : BridgeContext} {s s' : Scene (.table ctx)} {e : Event} {a : Address}
  {rest : List Move}

/-- A bridge keeps its finalizer until the pass over it asks for the removal. -/
theorem Step.anchored (h : Step (.table ctx) s e s') (hs : s.Sound)
    (hrule : Rule.custody s.world s.bridges e) {b : Bridge} (hb : s.world.store a = some b)
    (hanchored : b.Anchored) (hkeep : ∀ ns name r, e ≠ .answered a (.removeFinalizer ns name) r) :
    ∃ b', s'.world.store a = some b' ∧ b'.Anchored := by
  cases h with
  | @create b' hf hp hst =>
    have ha : a ≠ b'.address := by
      rintro rfl
      rw [hf.vacant] at hb
      cases hb
    exact ⟨b, by simp only [Function.update_of_ne ha, hb], hanchored⟩
  | edit => exact World.anchored_modify hb hanchored fun _ => ⟨_, rfl, hanchored⟩
  | @amend a' c metadata hc hsame =>
    refine World.anchored_modify hb hanchored fun ha => ⟨_, rfl, ?_⟩
    subst ha
    exact (hrule b hb).trans hanchored
  | vanish =>
    refine World.anchored_modify hb hanchored fun ha => ?_
    subst ha
    exact absurd hanchored (hrule b hb)
  | take => exact ⟨b, hb, hanchored⟩
  | leave => exact ⟨b, hb, hanchored⟩
  | @answer a' x φ φ' c r w hp hgo hserve =>
    by_cases ha : a = a'
    · subst ha
      cases c with
      | patchStatus ns name st =>
        refine World.anchored_settles hb hanchored ?_ hserve
        exact fun _ => ⟨_, rfl, hanchored⟩
      | addFinalizer ns name =>
        refine World.anchored_settles hb hanchored ?_ hserve
        exact fun _ => ⟨_, rfl, Kube.Metadata.hasFinalizer_addFinalizer _ _⟩
      | removeFinalizer ns name => exact absurd rfl (hkeep ns name r)
      | _ =>
        refine ⟨b, ?_, hanchored⟩
        rw [hserve.store_eq (fun _ _ _ => nofun) (fun _ _ => nofun) fun _ _ => nofun]
        exact hb
    · exact ⟨b, by rw [hs.store_of_ne hp hgo hserve ha]; exact hb, hanchored⟩

/-- What the store and the pass say about a bridge that is in the operator's custody. -/
structure Custody (a : Address) (trail : List Move) (s : Scene (.table ctx)) : Prop where
  claimed : ∀ {x φ}, s.passes a = some (x, φ) → φ.phase.isLive = true →
    ∃ b, s.world.store a = some b ∧ b.Anchored
  vetted : ∀ {b}, s.world.store a = some b → b.state.holdsTarget = true →
    ∃ spec : BridgeSpec, b.statusOrInitial.lastAppliedSpec = some spec.canonical ∧
      Vetted a spec trail
  admitted : ∀ {x st q t}, s.passes a = some (x, ⟨.admitted st q, t⟩) → Vetted a x.spec trail

namespace Custody

theorem quiet (w : World) (hw : w.Initial) : Custody a [] (.quiet (.table ctx) w) where
  claimed hp := nomatch hp
  vetted hb hholds := by
    simp [Bridge.state, hw.status hb, BridgeState.holdsTarget] at hholds
  admitted hp := nomatch hp

section

variable (h : Custody a rest s) (hs : s.Sound) (hstep : Step (.table ctx) s e s')

include h hs hstep

theorem step_claimed (hrule : Rule.custody s.world s.bridges e) {x : Bridge} {φ : Moment}
    (hp : s'.passes a = some (x, φ)) (hlive : φ.phase.isLive = true) :
    ∃ b, s'.world.store a = some b ∧ b.Anchored := by
  have hcourse := hstep.course a
  rw [hp] at hcourse
  generalize hbefore : s.passes a = before at hcourse
  cases hcourse with
  | keep _ he =>
    obtain ⟨b, hb, hanchored⟩ := h.claimed hbefore hlive
    exact hstep.anchored hs hrule hb hanchored fun _ _ _ => he _ _
  | take b he hb hw => exact ⟨x, by rw [hw, hb], BridgePass.anchored_of_entry hlive⟩
  | answer x φ φ' c r he hdoes hserve =>
    rcases hdoes.isLive hlive with hbefore' | hclaim
    · obtain ⟨b, hb, hanchored⟩ := h.claimed hbefore hbefore'
      refine hstep.anchored hs hrule hb hanchored fun ns name r' he' => ?_
      rw [he] at he'
      cases he'
      have hover := hdoes.removeFinalizer.2.2
      rw [hover] at hlive
      cases hlive
    · cases hclaim
      rw [he] at hrule
      obtain ⟨b, hb⟩ := hrule
      rcases hserve with hw | ⟨⟨err, herr⟩, -⟩
      · refine ⟨{ b with metadata := b.metadata.addFinalizer Bridge.finalizer }, ?_,
          Kube.Metadata.hasFinalizer_addFinalizer _ _⟩
        rw [hw, hs.pass_address hbefore, World.modify_self, hb]
        rfl
      · cases herr

theorem step_vetted {b' : Bridge} (hb' : s'.world.store a = some b')
    (hholds : b'.state.holdsTarget = true) :
    ∃ spec : BridgeSpec, b'.statusOrInitial.lastAppliedSpec = some spec.canonical ∧
      Vetted a spec (Move.of s e s' :: rest) := by
  have hnot : ¬ (Move.of s e s').Requests a := by
    rintro ⟨c, hc, hrequested, -⟩
    obtain rfl : b' = c := Option.some.inj (hb'.symm.trans hc)
    rw [hrequested] at hholds
    cases hholds
  have hturn := hstep.turn hs a
  rw [hb'] at hturn
  generalize hbefore : s.world.store a = before at hturn
  have hold : ∀ {b : Bridge}, before = some b → b'.status = b.status →
      ∃ spec : BridgeSpec, b'.statusOrInitial.lastAppliedSpec = some spec.canonical ∧
        Vetted a spec (Move.of s e s' :: rest) := by
    intro b hb hst
    have hstate : b'.state = b.state := by unfold Bridge.state; rw [hst]
    have hrecord := Bridge.statusOrInitial_congr hst
    obtain ⟨spec, hspec, hvetted⟩ := h.vetted (hbefore.trans hb) (hstate ▸ hholds)
    exact ⟨spec, hrecord ▸ hspec, .inr ⟨hnot, hvetted⟩⟩
  cases hturn with
  | keep => exact hold rfl rfl
  | create b he ha hf hst hp => simp [Bridge.state, hst, BridgeState.holdsTarget] at hholds
  | edit b spec he => exact hold rfl rfl
  | amend b m hm => exact hold rfl rfl
  | advance b x φ st r hp he hadv =>
    rcases hadv.holdsTarget hholds with ⟨hheld, hrecord⟩ | ⟨q, hφ, -, -, hrecorded⟩
    · rw [b.state_statusOrInitial] at hheld
      obtain ⟨spec, hspec, hvetted⟩ := h.vetted hbefore hheld
      exact ⟨spec, hrecord.trans hspec, .inr ⟨hnot, hvetted⟩⟩
    · obtain ⟨phase, t⟩ := φ
      obtain rfl : phase = .admitted b.statusOrInitial q := hφ
      exact ⟨x.spec, hrecorded, .inr ⟨hnot, h.admitted hp⟩⟩

theorem step_admitted {x : Bridge} {st : BridgeStatus} {q : BoundProvider} {t : Option Instant}
    (hp : s'.passes a = some (x, ⟨.admitted st q, t⟩)) :
    Vetted a x.spec (Move.of s e s' :: rest) := by
  -- a pass that is admitted has found a request, and a request does not become one
  have hlater : ∀ {t}, s.passes a = some (x, ⟨.admitted st q, t⟩) →
      Vetted a x.spec (Move.of s e s' :: rest) := by
    intro t hpass
    refine .inr ⟨?_, h.admitted hpass⟩
    rintro ⟨b', -, -, hother⟩
    obtain ⟨b, hb, -⟩ := h.claimed hpass rfl
    obtain ⟨hcur, hrequested, -⟩ := hs.phase hpass hb
    refine hother b hb ?_
    rw [← Bridge.state_statusOrInitial, hcur, hrequested]
  rcases hstep.admitted hp with ⟨t', hpass⟩ | ⟨peers, t', hpass, he, -⟩
  · exact hlater hpass
  · obtain ⟨b, hb, -⟩ := h.claimed hpass rfl
    obtain ⟨-, -, hprovider⟩ := hs.phase hpass hb
    exact .inl ⟨q, x, peers, he, rfl, Bridge.provider_spec hprovider⟩

theorem step (hrule : Rule.custody s.world s.bridges e) :
    Custody a (Move.of s e s' :: rest) s' where
  claimed := step_claimed h hs hstep hrule
  vetted := step_vetted h hs hstep
  admitted := step_admitted h hs hstep

end

theorem run {start : World} {trail : List Move}
    (hrun : Run (.table ctx) Rule.custody start trail s) (hstart : start.Initial) :
    Custody a trail s := by
  induction hrun with
  | start => exact quiet start hstart
  | move hrun hrule hstep ih => exact step ih (hrun.sound hstart) hstep hrule

/-- What a pass that installs knows. -/
theorem mounting (h : Custody a rest s) (hs : s.Sound) {x : Bridge} {φ φ' : Moment}
    {q : BoundProvider} {r : Answer (BridgeCall.install q)} (hp : s.passes a = some (x, φ))
    (hdoes : BridgePass.Does (ofBridge ctx x) φ (.install q) r φ') :
    x.provider ctx = .ok q ∧ ∃ b, s.world.store a = some b ∧ b.Anchored ∧
      b.state = .installing ∧
      b.statusOrInitial.lastAppliedSpec = some q.binding.spec.canonical := by
  obtain ⟨st, hφ⟩ := hdoes.install_phase
  obtain ⟨b, hb, hanchored⟩ := h.claimed hp (by rw [hφ]; rfl)
  have hsound := hs.phase hp hb
  rw [hφ] at hsound
  obtain ⟨hcur, hstate, hrecorded, hprovider⟩ := hsound
  refine ⟨hprovider, b, hb, hanchored, ?_, ?_⟩
  · rw [← Bridge.state_statusOrInitial, hcur, hstate]
  · rw [hcur, hrecorded, Bridge.provider_spec hprovider]

end Custody

theorem Bridge.mounts {b : Bridge} {q : BoundProvider} (h : b.provider ctx = .ok q)
    (st : BridgeStatus) :
    ∃ next, ((ofBridge ctx b).fromInstalling st).run = .call (.install q) next := by
  unfold BridgePass.fromInstalling BridgePass.installing
  rw [show (ofBridge ctx b).bridge.provider (ofBridge ctx b).context = .ok q from h]
  exact ⟨_, rfl⟩

namespace Sample

/-- How the pass over the first bridge is answered while the operator is its only custodian. -/
def Serves (c : BridgeCall) (w : World) (r : Answer c) (w' : World) : Prop :=
  w.Serves first c r w' ∧ Rule.custody w (alone first) (.answered first.address c r)

/-- The provider the first bridge asks for. -/
def copier : BoundProvider := ⟨.duplicate, binding first "shop"⟩

theorem provider_first : first.provider context = .ok copier := provider_eq rfl parse_shop

/-- The first bridge, admitted. -/
def admitted : Bridge := { first with status := some (first.admittedStatus context) }

/-- The pass over the first bridge, up to its install. -/
theorem steps_first (e : Estate) : ∃ next, (first.reconcile context).run.Steps Serves
    (.ofBridges [first] e) (.call (.install copier) next) (.ofBridges [admitted] e) := by
  have hvalid : (World.ofBridges [first] e).Employs first .look
      (copier.provider.validate copier.binding first [first]) (.ok ()) (.ofBridges [first] e) :=
    ⟨rfl, (Duplicate.exec_validate (c := .deployment) rfl rfl rfl rfl).1⟩
  have hstored : (World.ofBridges [first] e).modify first.address
      (World.patched (first.admittedStatus context)) = .ofBridges [admitted] e :=
    World.modify_ofBridges (k := []) (by simp) rfl rfl
  have hentered : ((ofBridge context first).enter
      ((ofBridge context first).withSpec .initial) .installing none).run.Exec Serves
      (.ofBridges [first] e) (.ok (first.admittedStatus context)) (.ofBridges [admitted] e) := by
    refine Attempt.exec_ok (a := (⟨0, 0⟩ : Instant)) (Attempt.exec_always.mpr
      ⟨_, Prog.exec_perform.mpr ⟨rfl, trivial⟩, rfl⟩) ?_
    refine Attempt.exec_ok (a := ()) (Prog.exec_perform.mpr ⟨.inl hstored.symm, trivial⟩) ?_
    exact Attempt.exec_pure.mpr ⟨rfl, rfl⟩
  have hrequested : ((ofBridge context first).requested .initial).run.Exec Serves
      (.ofBridges [first] e) (.ok (.next (first.admittedStatus context)))
      (.ofBridges [admitted] e) := by
    unfold BridgePass.requested
    rw [show (ofBridge context first).bridge.provider (ofBridge context first).context =
      .ok copier from provider_first]
    refine Attempt.exec_ok (a := [first]) (Prog.exec_perform.mpr ⟨rfl, trivial⟩) ?_
    refine Attempt.exec_ok (a := .ok ()) (Attempt.exec_outcome.mpr
      ⟨_, Prog.exec_perform.mpr ⟨hvalid, trivial⟩, rfl⟩) ?_
    refine Attempt.exec_ok (a := ()) (Attempt.exec_always.mpr
      ⟨_, Prog.exec_perform.mpr ⟨rfl, trivial⟩, rfl⟩) ?_
    refine Attempt.exec_ok hentered ?_
    refine Attempt.exec_ok (a := ()) (Attempt.exec_always.mpr
      ⟨_, Prog.exec_perform.mpr ⟨rfl, trivial⟩, rfl⟩) ?_
    exact Attempt.exec_pure.mpr ⟨rfl, rfl⟩
  have hclaimed : first.Claimed := claimed_bridge
  obtain ⟨next, hnext⟩ := Bridge.mounts provider_first (first.admittedStatus context)
  refine ⟨next, ?_⟩
  rw [hclaimed.reconcile, ← hnext]
  refine Attempt.steps_ok (exec_new rfl) ?_
  exact Attempt.steps_ok hrequested (.refl _ _)

/-- The first bridge installs, and the install is to be tried again. -/
theorem mounts_first : ∃ rest e' next, Run (.programs context) .custody
    (.ofBridges [first] .empty)
    (⟨.ofBridges [admitted] .empty, alone first,
      .answered first.address (.install copier) (.error .passing), .ofBridges [admitted] e'⟩ :: rest)
    (.single _ (.ofBridges [admitted] e') first next) := by
  obtain ⟨next, hsteps⟩ := steps_first .empty
  have hquiet : Run (.programs context) .custody (.ofBridges [first] .empty) [] _ := .start
  have hbegins : Rule.custody (.ofBridges [first] .empty) (fun _ => none)
      (.began first.address) := trivial
  have hbegan := hquiet.move hbegins (Scene.take_single World.ofBridges_head)
  obtain ⟨later, hlater⟩ := hbegan.steps hsteps
  have hinstall : (World.ofBridges [admitted] .empty).Serves first (.install copier)
      (.error .passing) (.ofBridges [admitted] (.put .empty
        (Duplicate.copy copier.binding .deployment) (some first.writer))) := by
    have hhalf : (Duplicate.install copier.binding).run.Exec (Estate.Serves first .mount)
        .empty (.error .passing) _ := Duplicate.exec_install_half rfl .passing
    exact ⟨rfl, hhalf⟩
  have hrule : Rule.custody (.ofBridges [admitted] .empty)
      (Scene.single (.programs context) (.ofBridges [admitted] .empty) first
        (.call (.install copier) next)).bridges
      (.answered first.address (.install copier) (.error .passing)) := trivial
  have hmove := hlater.move hrule (Scene.answer_single (.call _ next _) hinstall)
  rw [Scene.bridges_single] at hmove
  exact ⟨_, _, _, hmove⟩

end Sample

/-- Nothing is installed before the bridge is claimed, the provider has found nothing against the
spec since it was last requested, and all this is stored with INSTALLING. -/
theorem install_claimed_and_vetted {start : World} {m : Move} {s : Scene (.programs ctx)}
    {q : BoundProvider} {r : Answer (BridgeCall.install q)} (hstart : start.Initial)
    (hrun : Run (.programs ctx) .custody start (m :: rest) s)
    (he : m.event = .answered a (.install q) r) :
    (∃ b st, m.before.store a = some b ∧ b.Anchored ∧ b.status = some st ∧
      st.state = .installing ∧ st.lastAppliedSpec = some q.binding.spec.canonical) ∧
    Vetted a q.binding.spec rest := by
  obtain ⟨t, ht, -⟩ := hrun.tabulated
  cases ht with
  | move hrest hrule hstep =>
    have hcustody := Custody.run (a := a) hrest hstart
    obtain rfl := he
    cases hstep with
    | @answer _ x φ φ' _ _ w hp hdoes hserve =>
      obtain ⟨-, b, hb, hanchored, hstate, hrecord⟩ :=
        hcustody.mounting (hrest.sound hstart) hp hdoes
      obtain ⟨spec, hspec, hvetted⟩ := hcustody.vetted hb (by rw [hstate]; rfl)
      rw [hrecord] at hspec
      obtain rfl := BridgeSpec.canonical_injective (Option.some.inj hspec)
      refine ⟨?_, hvetted⟩
      cases hst : b.status with
      | none => simp [Bridge.state, hst] at hstate
      | some st =>
        simp only [Bridge.state, Bridge.statusOrInitial, hst] at hstate hrecord
        exact ⟨b, st, hb, hanchored, hst, hstate, hrecord⟩

theorem install_claimed_and_vetted_shop : ∃ rest m s r,
    (World.ofBridges [Sample.first] .empty).Initial ∧
    Run (.programs Sample.context) .custody (.ofBridges [Sample.first] .empty)
      (m :: rest) s ∧
    m.event = .answered Sample.first.address (.install Sample.copier) r ∧
    (∃ b st, m.before.store Sample.first.address = some b ∧ b.Anchored ∧ b.status = some st ∧
      st.state = .installing ∧
      st.lastAppliedSpec = some Sample.copier.binding.spec.canonical) ∧
    Vetted Sample.first.address Sample.copier.binding.spec rest := by
  obtain ⟨rest, e', next, hrun⟩ := Sample.mounts_first
  exact ⟨rest, _, _, _, Sample.initial_first, hrun, rfl,
    install_claimed_and_vetted Sample.initial_first hrun rfl⟩

end BridgeOperator
