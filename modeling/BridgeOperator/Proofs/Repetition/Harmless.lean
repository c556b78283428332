import BridgeOperator.Proofs.Repetition.Settled

/-!
A pass that is made twice. If the first one comes to an action then the second one, over what the
first one has left, writes nothing, changes nothing and comes to the same action, unless the first
one has activated a bridge whose provider does not stand by it (`repeated_pass_harmless_iff`).
-/

namespace BridgeOperator

open BridgePass (ofBridge)

variable {W : Type} {E : Surroundings W} {s s' : Stage W} {b x : Bridge} {ctx : BridgeContext}
  {st st' : BridgeStatus} {a : Action} {r : Except Error Action}

/-- All that a pass over `x` can come to is the action, with everything as it was: what is stored,
what providers work on, and the statuses that have been written. -/
def Surroundings.Harmless (E : Surroundings W) (ctx : BridgeContext) (x : Bridge) (a : Action)
    (s : Stage W) : Prop :=
  ∀ r s', (x.reconcile ctx).run.Exec E.Serves s r s' ↔ r = .ok a ∧ s' = s

theorem Surroundings.harmless_of_exec
    (h : ∀ r s', (x.reconcile ctx).run.Exec E.Serves s r s' → r = .ok a ∧ s' = s) :
    E.Harmless ctx x a s := by
  intro r s'
  refine ⟨h r s', ?_⟩
  rintro ⟨rfl, rfl⟩
  obtain ⟨r, s', hexec⟩ := E.exists_exec (x.reconcile ctx).run s'
  obtain ⟨rfl, rfl⟩ := h r s' hexec
  exact hexec

namespace Bridge

/-- A live bridge that is claimed, and that need not start over, is taken up where it stands. -/
theorem Heir.reconcile_eq {ns : String} (h : b.Heir x)
    (hlive : b.metadata.deletionTimestamp = none) (hns : b.metadata.namespaceName = some ns)
    (hkept : x.specChanged = true → x.state = .removed) :
    x.reconcile ctx = (ofBridge ctx x).proceed x.statusOrInitial := by
  have hsuper : ¬ (ofBridge ctx x).Superseded := by
    intro hsuper
    have hremoved := hkept hsuper.changed
    rw [← x.state_statusOrInitial] at hremoved
    exact hsuper.present hremoved
  have hclaim : x.ensureFinalizer ns = pure () := by
    have hanchored : x.metadata.hasFinalizer finalizer = true := h.anchored
    unfold ensureFinalizer
    simp [hanchored]
  rw [reconcile_live (h.deletionTimestamp.trans hlive) (h.namespaceName.trans hns), hclaim,
    BridgePass.run_eq, BridgePass.starting_of_not_superseded hsuper]
  rfl

end Bridge

namespace Idle

/-- An install that comes to the same as before is gone on with where it was. -/
theorem exec_install {q : BoundProvider} {v v' : Except Error Unit} {s₁ : Stage W}
    (hinstall : E.after (q.provider.install q.binding) s.rest = (v, s.rest))
    (h : (BridgeWork.install q).run.Exec E.Serves s v' s₁) : v' = v ∧ s₁ = s := by
  obtain ⟨hv, hs₁⟩ : E.Employs (q.provider.install q.binding) s v' s₁ := Prog.exec_perform.mp h
  rw [hinstall] at hv hs₁
  exact ⟨hv, hs₁⟩

/-- What is noted already is not noted again. -/
theorem exec_note {message : String} {v : Except Error Unit} (hnoted : st.message = some message)
    (h : ((ofBridge ctx x).note st message).run.Exec E.Serves s v s') : v = .ok () ∧ s' = s := by
  unfold BridgePass.note at h
  rw [if_neg (not_not.mpr hnoted)] at h
  exact Attempt.exec_pure.mp h

/-- A step that notes a message it finds there is over. -/
theorem exec_note_bind {message : String} {v : Except Error BridgePass.Step}
    (hnoted : st.message = some message)
    (h : (do (ofBridge ctx x).note st message; return .done a : BridgeWork BridgePass.Step).run.Exec
      E.Serves s v s') : v = .ok (.done a) ∧ s' = s := by
  rcases Attempt.exec_bind.mp h with ⟨u, s₁, hnote, hreturn⟩ | ⟨e, hnote, -⟩
  · obtain ⟨-, rfl⟩ := exec_note hnoted hnote
    exact Attempt.exec_pure.mp hreturn
  · cases (exec_note hnoted hnote).1

/-- The step that waits for the provider to come up is over where it has been before. -/
theorem exec_installing (h : Idle E ctx x s.rest a) (hstate : x.state = .installing)
    (hsteady : ∀ q, x.provider ctx = .ok q → E.Steady q) {v : Except Error BridgePass.Step}
    (hexec : ((ofBridge ctx x).installing x.statusOrInitial).run.Exec E.Serves s v s') :
    v = .ok (.done a) ∧ s' = s := by
  unfold BridgePass.installing at hexec
  cases h with
  | terminal hterminal =>
    rw [hstate] at hterminal
    cases hterminal
  | watched hactive =>
    rw [hstate] at hactive
    cases hactive
  | pending q e _ hq hinstall hretry hnoted =>
    rw [show (ofBridge ctx x).bridge.provider (ofBridge ctx x).context = .ok q from hq] at hexec
    obtain ⟨r, s₁, hcall, hrest⟩ := Attempt.exec_outcome_bind.mp hexec
    obtain ⟨rfl, rfl⟩ := exec_install hinstall hcall
    change (if e.isRetryable then _ else _ : BridgeWork BridgePass.Step).run.Exec _ _ _ _ at hrest
    rw [if_pos hretry] at hrest
    exact exec_note_bind hnoted hrest
  | unready q e t t' _ hq hinstall ht hwait hretry hnoted =>
    rw [show (ofBridge ctx x).bridge.provider (ofBridge ctx x).context = .ok q from hq] at hexec
    obtain ⟨r, s₁, hcall, hrest⟩ := Attempt.exec_outcome_bind.mp hexec
    obtain ⟨rfl, rfl⟩ := exec_install hinstall hcall
    -- This wait finds what the noted one has found, so it comes to the same error.
    have hsame : ∀ {r' s₂}, ((ofBridge ctx x).awaitReady q).run.Exec E.Serves s₁ r' s₂ →
        r' = .ok (.error e) ∧ s₂ = s₁ := by
      intro r' s₂ hwait'
      obtain ⟨hr, -, hs⟩ :=
        (hsteady q hq).exec_eq Surroundings.awaits_awaitReady hwait hwait' ht.symm
      exact ⟨hr, hs⟩
    rcases Attempt.exec_bind.mp hrest with ⟨r', s₂, hwait', hrest'⟩ | ⟨e', hwait', -⟩
    swap
    · cases (hsame hwait').1
    obtain ⟨hr, rfl⟩ := hsame hwait'
    cases hr
    change (if e.isRetryable then _ else _ : BridgeWork BridgePass.Step).run.Exec _ _ _ _ at hrest'
    rw [if_pos hretry] at hrest'
    exact exec_note_bind hnoted hrest'

theorem exec_fromInstalling (h : Idle E ctx x s.rest a) (hstate : x.state = .installing)
    (hsteady : ∀ q, x.provider ctx = .ok q → E.Steady q)
    (hexec : ((ofBridge ctx x).fromInstalling x.statusOrInitial).run.Exec E.Serves s r s') :
    r = .ok a ∧ s' = s := by
  rcases Attempt.exec_bind.mp hexec with ⟨v, s₁, hinstalling, hrest⟩ | ⟨e, hinstalling, -⟩
  · obtain ⟨hv, rfl⟩ := h.exec_installing hstate hsteady hinstalling
    cases hv
    exact Attempt.exec_pure.mp hrest
  · cases (h.exec_installing hstate hsteady hinstalling).1

/-- Where the bridge is idle, the pass does nothing. -/
theorem exec_proceed (h : Idle E ctx x s.rest a)
    (hsteady : ∀ q, x.provider ctx = .ok q → E.Steady q)
    (hexec : ((ofBridge ctx x).proceed x.statusOrInitial).run.Exec E.Serves s r s') :
    r = .ok a ∧ s' = s := by
  unfold BridgePass.proceed at hexec
  rw [x.state_statusOrInitial] at hexec
  have hidle := h
  cases h with
  | terminal hterminal =>
    cases hx : x.state with
    | error | removed =>
      rw [hx] at hexec
      exact Attempt.exec_pure.mp hexec
    | _ =>
      rw [hx] at hterminal
      cases hterminal
  | pending _ _ hstate | unready _ _ _ _ hstate =>
    rw [hstate] at hexec
    exact hidle.exec_fromInstalling hstate hsteady hexec
  | watched hstate hintact =>
    rw [hstate] at hexec
    rcases Surroundings.exec_active hsteady hexec with ⟨-, hr, hs'⟩ | ⟨hnot, -⟩
    · exact ⟨hr, hs'⟩
    · exact absurd hintact hnot

end Idle

section

variable {ns : String} (hlive : b.metadata.deletionTimestamp = none)
  (hns : b.metadata.namespaceName = some ns) (hsteady : ∀ q, b.provider ctx = .ok q → E.Steady q)

include hlive hns hsteady

/-- **A bridge at rest is left at rest.** -/
theorem Stage.Rests.harmless (h : s.Rests E ctx b a) :
    ∃ x, s.store b.address = some x ∧ E.Harmless ctx x a s := by
  obtain ⟨x, hx, hheir, hkept, hidle⟩ := h
  refine ⟨x, hx, Surroundings.harmless_of_exec fun r s' hexec => ?_⟩
  rw [hheir.reconcile_eq hlive hns hkept] at hexec
  exact hidle.exec_proceed (fun q hq => hsteady q (hheir.provider.symm.trans hq)) hexec

omit hlive hns hsteady in
/-- Entering a state leaves something in writing. -/
theorem Surroundings.written_enter {state : BridgeState} {message : Option String}
    (h : ((ofBridge ctx x).enter st state message).run.Exec E.Serves s (.ok st') s') :
    s.written.length < s'.written.length := by
  obtain ⟨t, h⟩ := exec_now_bind.mp h
  obtain ⟨u, s₁, hrecord, hreturn⟩ := Attempt.exec_bind_ok.mp h
  obtain ⟨-, rfl⟩ := Attempt.exec_pure.mp hreturn
  obtain ⟨f, -, rfl | ⟨⟨e, he⟩, -⟩⟩ : E.Serves (.patchStatus _ _ _) s (.ok ()) s' :=
    Prog.exec_perform.mp hrecord
  · exact Nat.lt_succ_self _
  · cases he

/-- Where the provider of an active bridge does not stand by it, the next pass is not harmless. -/
theorem Stage.Stands.intact_of_harmless (h : s.Stands b st) (hst : st.state = .active)
    (hx : s.store b.address = some x) (hharmless : E.Harmless ctx x a s) :
    E.Intact ctx b s.rest := by
  obtain ⟨y, hy, hheir, hsame, hstate, -⟩ := h.stored
  obtain rfl : y = x := Option.some.inj (hy.symm.trans hx)
  obtain ⟨r, s', hexec⟩ := E.exists_exec (y.reconcile ctx).run s
  obtain ⟨rfl, rfl⟩ := (hharmless r s').mp hexec
  rw [hheir.reconcile_eq hlive hns fun hchanged => absurd hchanged (by simp [hsame])] at hexec
  unfold BridgePass.proceed at hexec
  rw [y.state_statusOrInitial, hstate, hst] at hexec
  have hsteady' : ∀ q, y.provider ctx = .ok q → E.Steady q :=
    fun q hq => hsteady q (hheir.provider.symm.trans hq)
  rcases Surroundings.exec_active hsteady' hexec with ⟨⟨q, hq, hcheck⟩, -⟩ | ⟨-, ⟨e, he⟩ | hdrift⟩
  · exact ⟨q, hheir.provider.symm.trans hq, hcheck⟩
  · cases he
  · obtain ⟨st', s₁, henter, hrest⟩ := Attempt.exec_bind_ok.mp hdrift
    have hmore := Surroundings.written_enter henter
    have hkept := Surroundings.exec_written hrest
    omega

end

/-- **A repeated pass is harmless** after every pass that comes to an action, whatever state that
pass has begun in and however it has ended, with one exception. A pass that begins in INSTALLED,
with its spec unchanged, asks its provider for nothing: the next one is harmless if and only if the
provider can be had then, and does not find a drift in time. -/
theorem repeated_pass_harmless_iff (hlive : b.metadata.deletionTimestamp = none)
    (hstored : s.store b.address = some b) (hsteady : ∀ q, b.provider ctx = .ok q → E.Steady q)
    (hpass : (b.reconcile ctx).run.Exec E.Serves s (.ok a) s') :
    ∃ x, s'.store b.address = some x ∧ (E.Harmless ctx x a s' ↔
      (b.state = .installed → b.specChanged = false → E.Intact ctx b s'.rest)) := by
  have hplaced : ∃ ns, b.metadata.namespaceName = some ns := by
    cases hns : b.metadata.namespaceName with
    | some ns => exact ⟨ns, rfl⟩
    | none =>
      rw [Bridge.reconcile_nowhere hlive hns] at hpass
      cases (Prog.exec_pure.mp hpass).1
  obtain ⟨ns, hns⟩ := hplaced
  cases Surroundings.ends_of_reconcile hlive hstored hsteady hpass with
  | rests a hasked hrests =>
    obtain ⟨x, hx, hharmless⟩ := hrests.harmless hlive hns hsteady
    refine ⟨x, hx, iff_of_true hharmless fun hstate hsame => ?_⟩
    rw [hasked hstate] at hsame
    cases hsame
  | activated st hstate hsame hst hactive =>
    obtain ⟨x, hx, -⟩ := hst.stored
    refine ⟨x, hx, fun hharmless _ _ => ?_, fun hintact => ?_⟩
    · exact hst.intact_of_harmless hlive hns hsteady hactive hx hharmless
    · obtain ⟨y, hy, hharmless⟩ :=
        (hst.rests_intact hactive (hintact hstate hsame)).harmless hlive hns hsteady
      obtain rfl : y = x := Option.some.inj (hy.symm.trans hx)
      exact hharmless

/-! ## A bridge whose provider comes up, and one whose provider does not -/

namespace Surroundings

section

variable (E s ctx b st)

/-- A status may always be stored. -/
theorem exec_enter (state : BridgeState) (message : Option String) :
    ∃ st' s', ((ofBridge ctx b).enter st state message).run.Exec E.Serves s (.ok st') s' ∧
      s'.rest = s.rest := by
  let st' := BridgePass.entering st state message ⟨0, 0⟩
  let s' := (s.put st').modify b.address (World.patched st')
  have hrecord : ((ofBridge ctx b).record st').run.Exec E.Serves s (.ok ()) s' :=
    Prog.exec_perform.mpr ⟨_, .inl rfl, .inl rfl⟩
  refine ⟨st', s', exec_now_bind.mpr ⟨⟨0, 0⟩, ?_⟩, rfl⟩
  exact Attempt.exec_ok hrecord (Attempt.exec_pure.mpr ⟨rfl, rfl⟩)

theorem exec_installed : ∃ s', ((ofBridge ctx b).installed st).run.Exec E.Serves s
    (.ok (.requeue ctx.config.bridgeInterval)) s' ∧ s'.rest = s.rest := by
  obtain ⟨st', s', henter, hrest⟩ := exec_enter E s b ctx st .active none
  refine ⟨s', Attempt.exec_ok henter (exec_publish_bind.mpr ?_), hrest⟩
  exact Attempt.exec_pure.mpr ⟨rfl, rfl⟩

end

theorem exec_fromInstalling {q : BoundProvider} {d : Nat} {w : W} (hq : b.provider ctx = .ok q)
    (hsteady : E.Steady q)
    (hinstall : E.after (q.provider.install q.binding) s.rest = (.ok (), w))
    (hcheck : E.check q ctx.config.readinessTimeout w = .finished d (.ok true)) :
    ∃ s', ((ofBridge ctx b).fromInstalling st).run.Exec E.Serves s
      (.ok (.requeue ctx.config.bridgeInterval)) s' ∧ s'.rest = w := by
  let s₀ : Stage W := { s with rest := w }
  have hmount : (BridgeWork.install q).run.Exec E.Serves s (.ok ()) s₀ :=
    Prog.exec_perform.mpr ⟨by rw [hinstall], by rw [hinstall]⟩
  have hfound : (BridgeWork.checkReady q ctx.config.readinessTimeout).Exec E.Serves s₀
      (.finished d (.ok true)) s₀ :=
    Prog.exec_perform.mpr (hsteady.checks_iff.mpr ⟨hcheck.symm, rfl⟩)
  obtain ⟨st₁, s₁, henter, hrest₁⟩ := exec_enter E s₀ b ctx st .installed none
  obtain ⟨s', hinstalled, hrest⟩ := exec_installed E s₁ b ctx st₁
  have hinstalling : ((ofBridge ctx b).installing st).run.Exec E.Serves s (.ok (.next st₁)) s₁ := by
    unfold BridgePass.installing
    rw [show (ofBridge ctx b).bridge.provider (ofBridge ctx b).context = .ok q from hq]
    refine Attempt.exec_outcome_bind.mpr ⟨.ok (), s₀, hmount, ?_⟩
    refine Attempt.exec_ok (BridgePass.exec_awaitReady hfound) ?_
    exact Attempt.exec_ok henter (exec_publish_bind.mpr (Attempt.exec_pure.mpr ⟨rfl, rfl⟩))
  exact ⟨s', Attempt.exec_ok hinstalling hinstalled, hrest.trans hrest₁⟩

namespace Sample

open BridgeOperator.Sample (spec metadata parse_shop)

/-- An empty cluster with an outside provider that is ready once it has installed something. -/
def answer : (c : TargetCall) → Bool → Answer c × Bool
  | .external .install, _ => (.ok true, true)
  | .external .ready, up => (.ok up, up)
  | .external .uninstall, up => (.ok up, false)
  | .external (.validate _), up => (.ok true, up)
  | .getPod .., up | .getWorkload .., up | .getService .., up | .readConfig _, up => (.ok none, up)
  | .listPods .., up => (.ok [], up)
  | .applyWorkload .., up | .applyService .., up | .applyConfig .., up => (.ok (), up)
  | .deleteWorkload .., up | .deleteService .., up | .processAlive _, up => (.ok false, up)
  | .publish _, up => ((), up)

def outside : Surroundings Bool := ⟨answer, fun _ _ => 0⟩

def context : BridgeContext :=
  ⟨.default, SortedMap.ofList [("duplicate", .external .duplicate)]⟩

/-- A claimed bridge without a record of its spec. -/
def shop (state : BridgeState) : Bridge :=
  ⟨metadata "shop", spec "deploy/shop", some { BridgeStatus.initial with state }⟩

/-- Where the provider has installed nothing yet. -/
def before (state : BridgeState) : Stage Bool where
  store := Function.update (fun _ => none) (shop state).address (some (shop state))
  rest := false
  written := []

theorem stored_before (state : BridgeState) :
    (before state).store (shop state).address = some (shop state) := by
  simp [before]

theorem provider_shop {state : BridgeState} {q : BoundProvider}
    (h : (shop state).provider context = .ok q) : q.provider = .external .duplicate := by
  have hfound := (Bridge.provider_eq_ok h).2
  exact (Option.some.inj hfound).symm

theorem steady_shop (state : BridgeState) :
    ∀ q, (shop state).provider context = .ok q → outside.Steady q := by
  intro q hq
  obtain ⟨provider, binding⟩ := q
  obtain rfl : provider = .external .duplicate := provider_shop hq
  exact ⟨fun r => ⟨(), fun w => rfl, trivial⟩, fun w => rfl⟩

/-- From INSTALLING to ACTIVE. -/
theorem exec_installing_shop : ∃ s', ((shop .installing).reconcile context).run.Exec
    outside.Serves (before .installing) (.ok (.requeue context.config.bridgeInterval)) s' ∧
      s'.rest = true := by
  have hq : (shop .installing).provider context =
      .ok ⟨.external .duplicate, BridgeOperator.Sample.binding (shop .installing) "shop"⟩ := rfl
  exact exec_fromInstalling hq (steady_shop _ _ hq) rfl rfl

/-- From INSTALLED to ACTIVE. -/
theorem exec_installed_shop : ∃ s', ((shop .installed).reconcile context).run.Exec
    outside.Serves (before .installed) (.ok (.requeue context.config.bridgeInterval)) s' ∧
      s'.rest = false := by
  exact exec_installed outside (before .installed) (shop .installed) context
    (shop .installed).statusOrInitial

end Sample
end Surroundings

open Surroundings.Sample in
/-- A bridge that is installed by the first pass is left alone by the second one. -/
theorem repeated_pass_harmless_shop : ∃ s' x,
    ((shop .installing).reconcile context).run.Exec outside.Serves (before .installing)
      (.ok (.requeue context.config.bridgeInterval)) s' ∧
    s'.store (shop .installing).address = some x ∧
    outside.Harmless context x (.requeue context.config.bridgeInterval) s' := by
  obtain ⟨s', hexec, -⟩ := exec_installing_shop
  obtain ⟨x, hx, hiff⟩ :=
    repeated_pass_harmless_iff rfl (stored_before _) (steady_shop _) hexec
  exact ⟨s', x, hexec, hx, hiff.mpr nofun⟩

open Surroundings.Sample in
/-- A bridge that is recorded as INSTALLED although its provider is not ready: the first pass calls
it ACTIVE, and the second one finds a drift and starts to reinstall it. -/
theorem repeated_pass_not_always_harmless : ¬ ∀ (W : Type) (E : Surroundings W)
    (ctx : BridgeContext) (b : Bridge) (s s' : Stage W) (a : Action),
    b.metadata.deletionTimestamp = none → s.store b.address = some b →
    (∀ q, b.provider ctx = .ok q → E.Steady q) →
    (b.reconcile ctx).run.Exec E.Serves s (.ok a) s' →
    ∃ x, s'.store b.address = some x ∧ E.Harmless ctx x a s' := by
  intro hall
  obtain ⟨s', hexec, hrest⟩ := exec_installed_shop
  have hsteady := steady_shop .installed
  obtain ⟨x, hx, hharmless⟩ :=
    hall _ _ _ _ _ _ _ rfl (stored_before .installed) hsteady hexec
  have hends := Surroundings.ends_of_reconcile rfl (stored_before .installed) hsteady hexec
  generalize ha : Action.requeue context.config.bridgeInterval = a at hends hharmless
  cases hends with
  | rests a hasked => cases hasked rfl
  | activated st _ _ hst hactive =>
    obtain ⟨q, hq, hcheck⟩ := hst.intact_of_harmless rfl rfl hsteady hactive hx hharmless
    refine hcheck 0 ?_
    obtain ⟨provider, binding⟩ := q
    obtain rfl : provider = .external .duplicate := provider_shop hq
    rw [hrest]
    rfl

end BridgeOperator
