import BridgeOperator.Proofs.Repetition.Stage
import BridgeOperator.Proofs.World.Custody

/-!
What a pass leaves behind. If it comes to an action then the bridge rests: for each way in which a
pass may end, `Idle` holds what keeps the next one from doing anything. The one exception is a pass
that begins in INSTALLED, which activates the bridge without asking its provider (`Stage.Ends`).
-/

namespace BridgeOperator

open BridgePass (entering ofBridge)

/-- What passes read of a status is this. -/
structure BridgeStatus.SeenAs (st seen : BridgeStatus) : Prop where
  state : seen.state = st.state
  lastAppliedSpec : seen.lastAppliedSpec = st.lastAppliedSpec
  message : ∀ m, st.message = some m → seen.message = some m

namespace Bridge

/-- The bridge as the operator may have left it: claimed, and with another status. -/
structure Heir (b x : Bridge) : Prop where
  spec : x.spec = b.spec
  metadata : x.metadata = { b.metadata with finalizers := x.metadata.finalizers }
  anchored : x.Anchored

/-- If the status names a spec, it is that of the bridge. -/
def Fresh (b : Bridge) (st : BridgeStatus) : Prop :=
  ∀ text, st.lastAppliedSpec = some text → text = b.spec.canonical

variable {b x : Bridge} {ctx : BridgeContext}

theorem Heir.eq (h : b.Heir x) : x = { b with
    metadata := { b.metadata with finalizers := x.metadata.finalizers }, status := x.status } := by
  rw [← h.metadata, ← h.spec]

theorem Heir.provider (h : b.Heir x) : x.provider ctx = b.provider ctx := by
  rw [h.eq]
  rfl

theorem Heir.namespaceName (h : b.Heir x) :
    x.metadata.namespaceName = b.metadata.namespaceName := by
  rw [h.metadata]

theorem Heir.deletionTimestamp (h : b.Heir x) :
    x.metadata.deletionTimestamp = b.metadata.deletionTimestamp := by
  rw [h.metadata]

end Bridge

variable {W α : Type} {E : Surroundings W} {s s' : Stage W} {b : Bridge} {ctx : BridgeContext}
  {st st' st₀ : BridgeStatus}

/-- The provider of the bridge can be had, and its check finds no drift. -/
def Surroundings.Intact (E : Surroundings W) (ctx : BridgeContext) (b : Bridge) (w : W) : Prop :=
  ∃ q, b.provider ctx = .ok q ∧
    ∀ d, E.check q ctx.config.readinessTimeout w ≠ .finished d (.ok false)

theorem Surroundings.intact_of_ready {q : BoundProvider} {w : W} (hq : b.provider ctx = .ok q)
    (hready : (E.after (q.provider.ready q.binding) w).1 = .ok true) : E.Intact ctx b w := by
  refine ⟨q, hq, fun d hcheck => ?_⟩
  unfold check at hcheck
  split at hcheck
  · have hfalse := (Timed.finished.inj hcheck).2
    rw [hready] at hfalse
    cases hfalse
  · cases hcheck

/-- A bridge about which a pass does nothing, and the action it comes to. -/
inductive Idle (E : Surroundings W) (ctx : BridgeContext) (x : Bridge) (w : W) : Action → Prop
  | terminal (h : x.state.isTerminal = true) : Idle E ctx x w .awaitChange
  /-- Its install has not come through yet, and this has been noted. -/
  | pending (q : BoundProvider) (e : Error) (hstate : x.state = .installing)
    (hq : x.provider ctx = .ok q)
    (hinstall : E.after (q.provider.install q.binding) w = (.error e, w))
    (hretry : e.isRetryable = true)
    (hnoted : x.statusOrInitial.message = some s!"install pending: {e.message}") :
    Idle E ctx x w .retry
  /-- It has been installed, but waiting for readiness does not help, and this has been noted. -/
  | unready (q : BoundProvider) (e : Error) (t t' : Stage W) (hstate : x.state = .installing)
    (hq : x.provider ctx = .ok q)
    (hinstall : E.after (q.provider.install q.binding) w = (.ok (), w)) (ht : t.rest = w)
    (hwait : ((ofBridge ctx x).awaitReady q).run.Exec E.Serves t (.ok (.error e)) t')
    (hretry : e.isRetryable = true)
    (hnoted : x.statusOrInitial.message = some "waiting for provider readiness") :
    Idle E ctx x w (.requeue ctx.config.bridgeInterval)
  /-- Traffic is bridged, and no drift is found. -/
  | watched (hstate : x.state = .active) (hintact : E.Intact ctx x w) :
    Idle E ctx x w (.requeue ctx.config.bridgeInterval)

namespace Stage

/-- What is stored of the bridge shows this status to a pass. -/
def Shows (s : Stage W) (b : Bridge) (st : BridgeStatus) : Prop :=
  ∃ x, s.store b.address = some x ∧ b.Heir x ∧ st.SeenAs x.statusOrInitial

theorem Shows.of_store (h : s.Shows b st) (hs : s'.store = s.store) : s'.Shows b st := by
  unfold Shows
  rw [hs]
  exact h

/-- What is stored of the bridge is up to date with its spec. -/
structure Stands (s : Stage W) (b : Bridge) (st : BridgeStatus) : Prop where
  shows : s.Shows b st
  fresh : b.Fresh st

/-- What is stored of the bridge is idle, with this action. -/
def Rests (s : Stage W) (E : Surroundings W) (ctx : BridgeContext) (b : Bridge) (a : Action) :
    Prop :=
  ∃ x, s.store b.address = some x ∧ b.Heir x ∧ (x.specChanged = true → x.state = .removed) ∧
    Idle E ctx x s.rest a

theorem Stands.stored (h : s.Stands b st) :
    ∃ x, s.store b.address = some x ∧ b.Heir x ∧ x.specChanged = false ∧ x.state = st.state ∧
      ∀ m, st.message = some m → x.statusOrInitial.message = some m := by
  obtain ⟨x, hx, hheir, hseen⟩ := h.shows
  refine ⟨x, hx, hheir, Bridge.specChanged_eq_false.mpr fun text htext => ?_, ?_, hseen.message⟩
  · rw [hheir.spec]
    exact h.fresh text (hseen.lastAppliedSpec ▸ htext)
  · rw [← x.state_statusOrInitial]
    exact hseen.state

theorem Stands.rests {a : Action} (h : s.Stands b st)
    (hidle : ∀ x, b.Heir x → x.state = st.state →
      (∀ m, st.message = some m → x.statusOrInitial.message = some m) → Idle E ctx x s.rest a) :
    s.Rests E ctx b a := by
  obtain ⟨x, hx, hheir, hsame, hstate, hmessage⟩ := h.stored
  refine ⟨x, hx, hheir, fun hchanged => ?_, hidle x hheir hstate hmessage⟩
  rw [hsame] at hchanged
  cases hchanged

theorem Stands.rests_terminal (h : s.Stands b st) (hst : st.state.isTerminal = true) :
    s.Rests E ctx b .awaitChange :=
  h.rests fun _ _ hstate _ => .terminal (hstate ▸ hst)

theorem Stands.rests_pending {q : BoundProvider} {e : Error} (h : s.Stands b st)
    (hst : st.state = .installing) (hnoted : st.message = some s!"install pending: {e.message}")
    (hq : b.provider ctx = .ok q) (hretry : e.isRetryable = true)
    (hinstall : E.after (q.provider.install q.binding) s.rest = (.error e, s.rest)) :
    s.Rests E ctx b .retry := by
  refine h.rests fun x hheir hstate hmessage => ?_
  exact .pending q e (hstate.trans hst) (hheir.provider.trans hq) hinstall hretry
    (hmessage _ hnoted)

theorem Stands.rests_unready {q : BoundProvider} {e : Error} {t t' : Stage W} (h : s.Stands b st)
    (hst : st.state = .installing) (hnoted : st.message = some "waiting for provider readiness")
    (hq : b.provider ctx = .ok q) (hretry : e.isRetryable = true)
    (hinstall : E.after (q.provider.install q.binding) s.rest = (.ok (), s.rest))
    (ht : t.rest = s.rest)
    (hwait : ((ofBridge ctx b).awaitReady q).run.Exec E.Serves t (.ok (.error e)) t') :
    s.Rests E ctx b (.requeue ctx.config.bridgeInterval) := by
  refine h.rests fun x hheir hstate hmessage => ?_
  exact .unready q e t t' (hstate.trans hst) (hheir.provider.trans hq) hinstall ht hwait hretry
    (hmessage _ hnoted)

theorem Stands.rests_intact (h : s.Stands b st) (hst : st.state = .active)
    (hintact : E.Intact ctx b s.rest) :
    s.Rests E ctx b (.requeue ctx.config.bridgeInterval) := by
  obtain ⟨q, hq, hcheck⟩ := hintact
  refine h.rests fun x hheir hstate _ => ?_
  exact .watched (hstate.trans hst) ⟨q, hheir.provider.trans hq, hcheck⟩

end Stage

namespace BridgePass

/-- Where a pass goes on from a request. -/
def fromRequest (p : BridgePass) (st : BridgeStatus) : BridgeWork Action := do
  match ← p.requested st with
  | .done a => return a
  | .next st => p.fromInstalling st

/-- Where a pass goes on from a status. -/
def proceed (p : BridgePass) (st : BridgeStatus) : BridgeWork Action :=
  match st.state with
  | .requested => p.fromRequest st
  | .installing => p.fromInstalling st
  | .installed => p.installed st
  | .active => p.active st
  | .error | .removed => pure .awaitChange

variable {p : BridgePass}

theorem run_eq : p.run = p.starting >>= p.proceed := rfl

theorem starting_of_superseded (h : p.Superseded) :
    p.starting = p.restart p.bridge.statusOrInitial := by
  unfold starting
  simp [h.changed, h.state, h.present]

theorem starting_of_not_superseded (h : ¬ p.Superseded) :
    p.starting = pure p.bridge.statusOrInitial := by
  unfold starting
  refine if_neg fun hc => h ?_
  simp only [ne_eq, Bool.and_eq_true, decide_eq_true_eq] at hc
  exact ⟨hc.1.1, hc.1.2, hc.2⟩

theorem specChanged_of_not_superseded (h : ¬ p.Superseded)
    (hrequested : p.bridge.state ≠ .requested) (hremoved : p.bridge.state ≠ .removed) :
    p.bridge.specChanged = false := by
  rw [← p.bridge.state_statusOrInitial] at hrequested hremoved
  exact Bool.eq_false_iff.mpr fun hchanged => h ⟨hchanged, hrequested, hremoved⟩

end BridgePass

namespace Surroundings

/-! ## Parts of a pass -/

theorem exec_publish_bind {n : Kube.Notice} {f : Unit → BridgeWork α} {r : Except Error α} :
    (BridgeWork.publish n >>= f).run.Exec E.Serves s r s' ↔ (f ()).run.Exec E.Serves s r s' := by
  refine Attempt.exec_always_bind.trans ⟨?_, fun h => ⟨(), s, Prog.exec_perform.mpr rfl, h⟩⟩
  rintro ⟨u, s₁, hpublish, hrest⟩
  obtain rfl : s₁ = s := Prog.exec_perform.mp hpublish
  exact hrest

theorem exec_now_bind {f : Instant → BridgeWork α} {r : Except Error α} :
    (BridgeWork.now >>= f).run.Exec E.Serves s r s' ↔
      ∃ t, (f t).run.Exec E.Serves s r s' := by
  refine Attempt.exec_always_bind.trans ⟨?_, fun ⟨t, h⟩ => ⟨t, s, Prog.exec_perform.mpr rfl, h⟩⟩
  rintro ⟨t, s₁, hnow, hrest⟩
  obtain rfl : s₁ = s := Prog.exec_perform.mp hnow
  exact ⟨t, hrest⟩

/-- ACTIVE comes to nothing, unless the provider finds a drift or cannot be had. -/
theorem exec_active {r : Except Error Action}
    (hsteady : ∀ q, b.provider ctx = .ok q → E.Steady q)
    (h : ((ofBridge ctx b).active st).run.Exec E.Serves s r s') :
    (E.Intact ctx b s.rest ∧ r = .ok (.requeue ctx.config.bridgeInterval) ∧ s' = s) ∨
      (¬ E.Intact ctx b s.rest ∧ ((∃ e, r = .error e) ∨
        (do let st ← (ofBridge ctx b).enter st .installing (some "reinstalling after drift")
            (ofBridge ctx b).fromInstalling st).run.Exec E.Serves s r s')) := by
  unfold BridgePass.active at h
  rcases Attempt.exec_bind.mp h with ⟨q, s₁, hprovider, hrest⟩ | ⟨e, hprovider, he⟩
  · obtain ⟨hq, rfl⟩ := Attempt.exec_lift.mp hprovider
    obtain ⟨v, s₂, hcheck, hgo⟩ := Attempt.exec_outcome_bind.mp hrest
    obtain ⟨r', s₃, hready, hvalue⟩ := Prog.exec_bind.mp hcheck
    obtain ⟨hr', rfl⟩ := (hsteady q hq.symm).checks_iff.mp (Prog.exec_perform.mp hready)
    have hsound : (∀ d, r' ≠ .finished d (.ok false)) →
        (pure (.requeue ctx.config.bridgeInterval) : BridgeWork Action).run.Exec E.Serves s₂ r
          s' → (E.Intact ctx b s₃.rest ∧ r = .ok (.requeue ctx.config.bridgeInterval) ∧
            s' = s₂) := by
      intro hne hreturn
      obtain ⟨hr, hs'⟩ := Attempt.exec_pure.mp hreturn
      exact ⟨⟨q, hq.symm, hr' ▸ hne⟩, hr, hs'⟩
    rcases r' with _ | ⟨d, e | _ | _⟩
    · obtain ⟨rfl, rfl⟩ := Prog.exec_pure.mp hvalue
      exact .inl (hsound nofun hgo)
    · obtain ⟨rfl, rfl⟩ := Prog.exec_pure.mp hvalue
      exact .inl (hsound nofun hgo)
    · obtain ⟨rfl, rfl⟩ := Prog.exec_pure.mp hvalue
      refine .inr ⟨?_, .inr (exec_publish_bind.mp hgo)⟩
      rintro ⟨q', hq', hne⟩
      obtain rfl : q = q' := Except.ok.inj (hq.trans hq')
      exact hne d hr'.symm
    · obtain ⟨rfl, rfl⟩ := Prog.exec_pure.mp hvalue
      exact .inl (hsound nofun hgo)
  · obtain ⟨hq, -⟩ := Attempt.exec_lift.mp hprovider
    refine .inr ⟨?_, .inl ⟨e, he⟩⟩
    rintro ⟨q, hq', -⟩
    cases hq.trans hq'

theorem exec_tearDown {r : Except Error Unit}
    (h : (b.tearDown ctx).run.Exec E.Serves s r s') : s'.store = s.store := by
  rcases Attempt.exec_bind.mp h with ⟨former, s₁, hprovider, huninstall⟩ | ⟨e, hprovider, -⟩
  · obtain ⟨-, rfl⟩ := Attempt.exec_lift.mp hprovider
    obtain ⟨-, hs'⟩ : E.Employs (former.provider.uninstall former.binding) s₁ r s' :=
      Prog.exec_perform.mp huninstall
    rw [hs']
  · obtain ⟨-, rfl⟩ := Attempt.exec_lift.mp hprovider
    rfl

end Surroundings

/-! ## Statuses that have been stored -/

namespace Stage

/-- A status is stored, whole or as a merge patch; only a spec that it names must not get lost. -/
theorem Shows.recorded (hshows : s.Shows b st₀)
    (hspec : st.lastAppliedSpec.or st₀.lastAppliedSpec = st.lastAppliedSpec)
    (h : ((ofBridge ctx b).record st).run.Exec E.Serves s (.ok ()) s') :
    s'.Shows b st ∧ s'.rest = s.rest := by
  obtain ⟨x, hx, hheir, hseen⟩ := hshows
  obtain ⟨f, hf, rfl | ⟨⟨e, he⟩, -⟩⟩ : E.Serves (.patchStatus _ _ st) s (.ok ()) s' :=
    Prog.exec_perform.mp h
  · have hstored : ((s.put st).modify b.address f).store b.address = f x := by
      rw [store_modify]
      exact congrArg (Option.bind · f) hx
    rcases hf with rfl | rfl
    · exact ⟨⟨_, hstored, ⟨hheir.spec, hheir.metadata, hheir.anchored⟩, rfl, rfl, fun _ => id⟩, rfl⟩
    · refine ⟨⟨_, hstored, ⟨hheir.spec, hheir.metadata, hheir.anchored⟩, rfl, ?_, ?_⟩, rfl⟩
      · show st.lastAppliedSpec.or x.statusOrInitial.lastAppliedSpec = _
        rw [hseen.lastAppliedSpec, hspec]
      · intro m hm
        show st.message.or _ = _
        rw [hm]
        rfl
  · cases he

/-- A state is entered. -/
theorem Shows.entered {state : BridgeState} {message : Option String} (hshows : s.Shows b st₀)
    (hspec : st.lastAppliedSpec.or st₀.lastAppliedSpec = st.lastAppliedSpec)
    (h : ((ofBridge ctx b).enter st state message).run.Exec E.Serves s (.ok st') s') :
    ∃ t, st' = entering st state message t ∧ s'.Shows b st' ∧ s'.rest = s.rest := by
  obtain ⟨t, h⟩ := Surroundings.exec_now_bind.mp h
  obtain ⟨u, s₁, hrecord, hreturn⟩ := Attempt.exec_bind_ok.mp h
  obtain ⟨hst, rfl⟩ := Attempt.exec_pure.mp hreturn
  cases hst
  exact ⟨t, rfl, hshows.recorded hspec hrecord⟩

/-- A state is entered, and this is told. -/
theorem Shows.announced {state : BridgeState} {message : Option String} {n : Kube.Notice}
    {f : BridgeStatus → α} {v : α} (hshows : s.Shows b st₀)
    (hspec : st.lastAppliedSpec.or st₀.lastAppliedSpec = st.lastAppliedSpec)
    (h : (do
      let st' ← (ofBridge ctx b).enter st state message
      BridgeWork.publish n
      return f st' : BridgeWork α).run.Exec E.Serves s (.ok v) s') :
    ∃ t, v = f (entering st state message t) ∧ s'.Shows b (entering st state message t) ∧
      s'.rest = s.rest := by
  obtain ⟨st', s₁, henter, htell⟩ := Attempt.exec_bind_ok.mp h
  obtain ⟨t, rfl, hshows, hrest⟩ := hshows.entered hspec henter
  have hreturn := Surroundings.exec_publish_bind.mp htell
  obtain ⟨hv, rfl⟩ := Attempt.exec_pure.mp hreturn
  cases hv
  exact ⟨t, rfl, hshows, hrest⟩

theorem Stands.entered {state : BridgeState} {message : Option String} (hst : s.Stands b st)
    (h : ((ofBridge ctx b).enter st state message).run.Exec E.Serves s (.ok st') s') :
    st'.state = state ∧ s'.Stands b st' ∧ s'.rest = s.rest := by
  obtain ⟨t, rfl, hshows, hrest⟩ := hst.shows.entered Option.or_self h
  exact ⟨rfl, ⟨hshows, hst.fresh⟩, hrest⟩

/-- A message is stored, unless it is already there. -/
theorem Stands.noted {message : String} (hst : s.Stands b st)
    (h : ((ofBridge ctx b).note st message).run.Exec E.Serves s (.ok ()) s') :
    s'.Stands b { st with message := some message } ∧ s'.rest = s.rest := by
  unfold BridgePass.note at h
  split at h
  · have hspec : st.lastAppliedSpec.or st.lastAppliedSpec = st.lastAppliedSpec := Option.or_self
    let noted : BridgeStatus := { st with message := some message }
    obtain ⟨hshows, hrest⟩ := (hst.shows.recorded hspec h : s'.Shows b noted ∧ _)
    exact ⟨⟨hshows, hst.fresh⟩, hrest⟩
  · next hsame =>
    obtain ⟨-, rfl⟩ := Attempt.exec_pure.mp h
    have hst' : { st with message := some message } = st := by rw [← not_not.mp hsame]
    exact ⟨hst'.symm ▸ hst, rfl⟩

/-- A message is stored, and the step is over. -/
theorem Stands.noted_done {message : String} {a : Action} {v : BridgePass.Step}
    (hst : s.Stands b st)
    (h : (do (ofBridge ctx b).note st message; return .done a : BridgeWork BridgePass.Step).run.Exec
      E.Serves s (.ok v) s') :
    v = .done a ∧ s'.Stands b { st with message := some message } ∧ s'.rest = s.rest := by
  obtain ⟨u, s₁, hnote, hreturn⟩ := Attempt.exec_bind_ok.mp h
  obtain ⟨hv, rfl⟩ := Attempt.exec_pure.mp hreturn
  cases hv
  exact ⟨rfl, hst.noted hnote⟩

end Stage

/-! ## Steps that end well -/

/-- How a step ends: the pass goes on from a status, or it is over and the bridge rests. -/
inductive Stage.Comes (E : Surroundings W) (ctx : BridgeContext) (b : Bridge)
    (Q : BridgeStatus → Prop) (s : Stage W) : BridgePass.Step → Prop
  | next (st : BridgeStatus) (h : s.Stands b st) (hQ : Q st) : s.Comes E ctx b Q (.next st)
  | done (a : Action) (h : s.Rests E ctx b a) : s.Comes E ctx b Q (.done a)

namespace Stage

variable {Q : BridgeStatus → Prop} {v : BridgePass.Step}

theorem Shows.failed {reason : String} {e : Error} (hshows : s.Shows b st₀)
    (hspec : st.lastAppliedSpec.or st₀.lastAppliedSpec = st.lastAppliedSpec) (hfresh : b.Fresh st)
    (h : ((ofBridge ctx b).fail st reason e).run.Exec E.Serves s (.ok v) s') :
    s'.Comes E ctx b Q v := by
  obtain ⟨t, rfl, hshows', -⟩ := hshows.announced hspec h
  have hst : s'.Stands b (entering st .error (some e.message) t) := ⟨hshows', hfresh⟩
  exact .done _ (hst.rests_terminal rfl)

theorem fresh_withSpec (st : BridgeStatus) : b.Fresh ((ofBridge ctx b).withSpec st) :=
  fun _ htext => (Option.some.inj htext).symm

theorem withSpec_or : ((ofBridge ctx b).withSpec st).lastAppliedSpec.or st₀.lastAppliedSpec =
    ((ofBridge ctx b).withSpec st).lastAppliedSpec := rfl

theorem Shows.rejected {e : Error} (hshows : s.Shows b st)
    (h : ((ofBridge ctx b).reject st e).run.Exec E.Serves s (.ok v) s') :
    s'.Comes E ctx b Q v :=
  hshows.failed withSpec_or (fresh_withSpec st) h

theorem Shows.validated {kind : ProviderKind} (hshows : s.Shows b st)
    (h : ((ofBridge ctx b).validated st kind).run.Exec E.Serves s (.ok v) s') :
    s'.Comes E ctx b (·.state = .installing) v := by
  have henter := Surroundings.exec_publish_bind.mp h
  obtain ⟨t, rfl, hshows', -⟩ := hshows.announced withSpec_or henter
  exact .next _ ⟨hshows', fresh_withSpec st⟩ rfl

theorem Shows.requested (hshows : s.Shows b st)
    (h : ((ofBridge ctx b).requested st).run.Exec E.Serves s (.ok v) s') :
    s'.Comes E ctx b (·.state = .installing) v := by
  unfold BridgePass.requested at h
  split at h
  · split at h
    · cases (Prog.exec_pure.mp h).1
    · exact hshows.rejected h
  · next q hq =>
    obtain ⟨peers, s₁, hlist, hrest⟩ := Attempt.exec_bind_ok.mp h
    obtain rfl : s₁ = s := Prog.exec_perform.mp hlist
    obtain ⟨r, s₂, hvalidate, hrest⟩ := Attempt.exec_outcome_bind.mp hrest
    obtain ⟨-, hs₂⟩ : E.Employs (q.provider.validate q.binding b peers) s₁ r s₂ :=
      Prog.exec_perform.mp hvalidate
    have hshows₂ : s₂.Shows b st := hshows.of_store (by rw [hs₂])
    cases r with
    | ok u => exact hshows₂.validated hrest
    | error e =>
      change (if e.isRetryable then _ else _ : BridgeWork BridgePass.Step).run.Exec _ _ _ _
        at hrest
      split at hrest
      · cases (Prog.exec_pure.mp hrest).1
      · exact hshows₂.rejected hrest

theorem Stands.failed {reason : String} {e : Error} (hst : s.Stands b st)
    (h : ((ofBridge ctx b).fail st reason e).run.Exec E.Serves s (.ok v) s') :
    s'.Comes E ctx b Q v :=
  hst.shows.failed Option.or_self hst.fresh h

theorem Stands.installed {a : Action} (hst : s.Stands b st)
    (h : ((ofBridge ctx b).installed st).run.Exec E.Serves s (.ok a) s') :
    a = .requeue ctx.config.bridgeInterval ∧ s'.rest = s.rest ∧
      ∃ st', s'.Stands b st' ∧ st'.state = .active := by
  obtain ⟨t, rfl, hshows, hsame⟩ := hst.shows.announced Option.or_self h
  exact ⟨rfl, hsame, _, ⟨hshows, hst.fresh⟩, rfl⟩

/-- How a pass over the bridge ends. The one that activates it has not asked its provider. -/
inductive Ends (E : Surroundings W) (ctx : BridgeContext) (b : Bridge) (s : Stage W) :
    Action → Prop
  | rests (a : Action) (hasked : b.state = .installed → b.specChanged = true)
    (h : s.Rests E ctx b a) : s.Ends E ctx b a
  | activated (st : BridgeStatus) (hstate : b.state = .installed) (hsame : b.specChanged = false)
    (h : s.Stands b st) (hst : st.state = .active) :
    s.Ends E ctx b (.requeue ctx.config.bridgeInterval)

/-- Starting over ends with a request. -/
theorem Shows.restarted (hshows : s.Shows b st)
    (h : ((ofBridge ctx b).restart st).run.Exec E.Serves s (.ok st') s') :
    st'.state = .requested ∧ s'.Shows b st' := by
  have hentered : ∀ {s₁ : Stage W}, s₁.store = s.store →
      ((ofBridge ctx b).enter st .requested (some "spec changed")).run.Exec E.Serves s₁ (.ok st')
        s' → st'.state = .requested ∧ s'.Shows b st' := by
    intro s₁ hs₁ henter
    obtain ⟨t, rfl, hshows', -⟩ := (hshows.of_store hs₁).entered Option.or_self henter
    exact ⟨rfl, hshows'⟩
  unfold BridgePass.restart at h
  split at h
  · obtain ⟨r, s₁, hteardown, hrest⟩ := Attempt.exec_outcome_bind.mp h
    have hs₁ := Surroundings.exec_tearDown hteardown
    cases r with
    | ok u => exact hentered hs₁ hrest
    | error e => exact hentered hs₁ (Surroundings.exec_publish_bind.mp hrest)
  · exact hentered rfl h

/-! ## A pass that comes to an action -/

section

variable {a : Action} (hsteady : ∀ q, b.provider ctx = .ok q → E.Steady q)

include hsteady

theorem Stands.installing (hst : s.Stands b st) (hstate : st.state = .installing)
    (h : ((ofBridge ctx b).installing st).run.Exec E.Serves s (.ok v) s') :
    s'.Comes E ctx b (fun st' => st'.state = .installed ∧ ∃ q, b.provider ctx = .ok q ∧
      (E.after (q.provider.ready q.binding) s'.rest).1 = .ok true) v := by
  unfold BridgePass.installing at h
  split at h
  · split at h
    · cases (Prog.exec_pure.mp h).1
    · exact hst.failed h
  · next q hq =>
    obtain ⟨r, s₁, hinstall, hrest⟩ := Attempt.exec_outcome_bind.mp h
    obtain ⟨hr, hs₁⟩ : E.Employs (q.provider.install q.binding) s r s₁ :=
      Prog.exec_perform.mp hinstall
    -- The next pass will begin with this install, and it will come to the same.
    have hagain : E.after (q.provider.install q.binding) s₁.rest = (r, s₁.rest) := by
      rw [hs₁, (hsteady q hq).install, hr]
    have hst₁ : s₁.Stands b st := ⟨hst.shows.of_store (by rw [hs₁]), hst.fresh⟩
    cases r with
    | error e =>
      change (if e.isRetryable then _ else _ : BridgeWork BridgePass.Step).run.Exec _ _ _ _
        at hrest
      split at hrest
      · next hretry =>
        obtain ⟨rfl, hnoted, hsame⟩ := hst₁.noted_done hrest
        rw [← hsame] at hagain
        exact .done _ (hnoted.rests_pending hstate rfl hq hretry hagain)
      · exact hst₁.failed hrest
    | ok u =>
      obtain ⟨r, s₂, hwait, hrest⟩ := Attempt.exec_bind_ok.mp hrest
      obtain ⟨-, rfl, -⟩ := (hsteady q hq).exec_eq Surroundings.awaits_awaitReady hwait hwait rfl
      cases r with
      | ok u =>
        have hready := (hsteady q hq).ready_of_awaitReady hwait
        obtain ⟨t, rfl, hshows, hsame⟩ := hst₁.shows.announced Option.or_self hrest
        exact .next _ ⟨hshows, hst₁.fresh⟩ ⟨rfl, q, hq, hsame ▸ hready⟩
      | error e =>
        change (if e.isRetryable then _ else _ : BridgeWork BridgePass.Step).run.Exec _ _ _ _
          at hrest
        split at hrest
        · next hretry =>
          obtain ⟨rfl, hnoted, hsame⟩ := hst₁.noted_done hrest
          rw [← hsame] at hagain
          exact .done _ (hnoted.rests_unready hstate rfl hq hretry hagain hsame.symm hwait)
        · exact hst₁.failed hrest

theorem Stands.fromInstalling (hst : s.Stands b st) (hstate : st.state = .installing)
    (h : ((ofBridge ctx b).fromInstalling st).run.Exec E.Serves s (.ok a) s') :
    s'.Rests E ctx b a := by
  obtain ⟨v, s₁, hinstalling, hrest⟩ := Attempt.exec_bind_ok.mp h
  cases hst.installing hsteady hstate hinstalling with
  | done a' hrests =>
    obtain ⟨ha, rfl⟩ := Attempt.exec_pure.mp hrest
    cases ha
    exact hrests
  | next st' hst' hQ =>
    obtain ⟨-, q, hq, hready⟩ := hQ
    obtain ⟨rfl, hsame, st'', hst'', hactive⟩ := hst'.installed hrest
    exact hst''.rests_intact hactive (Surroundings.intact_of_ready hq (hsame ▸ hready))

theorem Stands.active (hst : s.Stands b st) (hstate : st.state = .active)
    (h : ((ofBridge ctx b).active st).run.Exec E.Serves s (.ok a) s') :
    s'.Rests E ctx b a := by
  rcases Surroundings.exec_active hsteady h with ⟨hintact, ha, rfl⟩ | ⟨-, ⟨e, he⟩ | hdrift⟩
  · cases ha
    exact hst.rests_intact hstate hintact
  · cases he
  · obtain ⟨st', s₁, henter, hrest⟩ := Attempt.exec_bind_ok.mp hdrift
    obtain ⟨hstate', hst', -⟩ := hst.entered henter
    exact hst'.fromInstalling hsteady hstate' hrest

theorem Shows.fromRequest (hshows : s.Shows b st)
    (h : ((ofBridge ctx b).fromRequest st).run.Exec E.Serves s (.ok a) s') :
    s'.Rests E ctx b a := by
  obtain ⟨v, s₁, hstep, hrest⟩ := Attempt.exec_bind_ok.mp h
  cases hshows.requested hstep with
  | next st' hst' hstate => exact hst'.fromInstalling hsteady hstate hrest
  | done a' hrests =>
    obtain ⟨ha, rfl⟩ := Attempt.exec_pure.mp hrest
    cases ha
    exact hrests

/-- From the status that is stored. -/
theorem Shows.proceeded (hshows : s.Shows b b.statusOrInitial)
    (hsuper : ¬ (ofBridge ctx b).Superseded)
    (h : ((ofBridge ctx b).proceed b.statusOrInitial).run.Exec E.Serves s (.ok a) s') :
    s'.Ends E ctx b a := by
  have hsame : b.state ≠ .requested → b.state ≠ .removed → b.specChanged = false :=
    BridgePass.specChanged_of_not_superseded hsuper
  have hst : b.state ≠ .requested → b.state ≠ .removed → s.Stands b b.statusOrInitial :=
    fun hrequested hremoved =>
      ⟨hshows, Bridge.specChanged_eq_false.mp (hsame hrequested hremoved)⟩
  unfold BridgePass.proceed at h
  rw [b.state_statusOrInitial] at h
  cases hb : b.state <;> rw [hb] at hsame hst h
  case requested => exact .rests a (hb ▸ nofun) (hshows.fromRequest hsteady h)
  case installing =>
    have hst := hst nofun nofun
    exact .rests a (hb ▸ nofun) (hst.fromInstalling hsteady (b.state_statusOrInitial.trans hb) h)
  case installed =>
    obtain ⟨rfl, -, st', hst', hactive⟩ := (hst nofun nofun).installed h
    exact .activated st' hb (hsame nofun nofun) hst' hactive
  case active =>
    have hst := hst nofun nofun
    exact .rests a (hb ▸ nofun) (hst.active hsteady (b.state_statusOrInitial.trans hb) h)
  case error =>
    obtain ⟨ha, rfl⟩ := Attempt.exec_pure.mp h
    cases ha
    refine .rests _ (hb ▸ nofun) ((hst nofun nofun).rests_terminal ?_)
    rw [b.state_statusOrInitial, hb]
    rfl
  case removed =>
    obtain ⟨ha, rfl⟩ := Attempt.exec_pure.mp h
    cases ha
    obtain ⟨x, hx, hheir, hseen⟩ := hshows
    have hremoved : x.state = .removed := by
      rw [← x.state_statusOrInitial, hseen.state, b.state_statusOrInitial, hb]
    exact .rests _ (hb ▸ nofun)
      ⟨x, hx, hheir, fun _ => hremoved, .terminal (by rw [hremoved]; rfl)⟩

theorem Shows.run (hshows : s.Shows b b.statusOrInitial)
    (h : (ofBridge ctx b).run.run.Exec E.Serves s (.ok a) s') : s'.Ends E ctx b a := by
  rw [BridgePass.run_eq] at h
  obtain ⟨st, s₁, hstart, hgo⟩ := Attempt.exec_bind_ok.mp h
  by_cases hsuper : (ofBridge ctx b).Superseded
  · rw [BridgePass.starting_of_superseded hsuper] at hstart
    obtain ⟨hstate, hshows₁⟩ := hshows.restarted hstart
    unfold BridgePass.proceed at hgo
    rw [hstate] at hgo
    exact .rests a (fun _ => hsuper.changed) (hshows₁.fromRequest hsteady hgo)
  · rw [BridgePass.starting_of_not_superseded hsuper] at hstart
    obtain ⟨hst, rfl⟩ := Attempt.exec_pure.mp hstart
    cases hst
    exact hshows.proceeded hsteady hsuper hgo

end

end Stage

namespace Bridge

theorem reconcile_nowhere (hlive : b.metadata.deletionTimestamp = none)
    (hns : b.metadata.namespaceName = none) :
    b.reconcile ctx = throw (.validation b.name (.noNamespace kind)) := by
  unfold reconcile resume
  rw [hlive, hns]
  rfl

theorem reconcile_live {ns : String} (hlive : b.metadata.deletionTimestamp = none)
    (hns : b.metadata.namespaceName = some ns) :
    b.reconcile ctx = (do b.ensureFinalizer ns; (ofBridge ctx b).run) := by
  unfold reconcile resume ofBridge
  rw [hlive, hns]
  rfl

end Bridge

namespace Surroundings

/-- The bridge is claimed before anything else is done. -/
theorem shows_of_ensureFinalizer {ns : String} (hstored : s.store b.address = some b)
    (hns : b.metadata.namespaceName = some ns)
    (h : (b.ensureFinalizer ns).run.Exec E.Serves s (.ok ()) s') :
    s'.Shows b b.statusOrInitial := by
  have haddress : b.address = ⟨ns, b.name⟩ := by rw [Bridge.address, hns, Option.getD_some]
  have hseen : b.statusOrInitial.SeenAs b.statusOrInitial := ⟨rfl, rfl, fun _ => id⟩
  unfold Bridge.ensureFinalizer at h
  split at h
  · obtain rfl | ⟨⟨e, he⟩, -⟩ : Settles (s.modify ⟨ns, b.name⟩ World.claimed) s (.ok ()) s' :=
      Prog.exec_perform.mp h
    · rw [← haddress]
      refine ⟨_, Stage.store_modify.trans (congrArg (Option.bind · World.claimed) hstored), ?_,
        hseen⟩
      exact ⟨rfl, rfl, Kube.Metadata.hasFinalizer_addFinalizer _ _⟩
    · cases he
  · next hclaimed =>
    obtain ⟨-, rfl⟩ := Attempt.exec_pure.mp h
    refine ⟨b, hstored, ⟨rfl, rfl, ?_⟩, hseen⟩
    simpa [Bridge.Anchored] using hclaimed

/-- **A pass over a live bridge that comes to an action** has left the bridge at rest, unless it has
only activated it. -/
theorem ends_of_reconcile {a : Action} (hlive : b.metadata.deletionTimestamp = none)
    (hstored : s.store b.address = some b) (hsteady : ∀ q, b.provider ctx = .ok q → E.Steady q)
    (h : (b.reconcile ctx).run.Exec E.Serves s (.ok a) s') : s'.Ends E ctx b a := by
  cases hns : b.metadata.namespaceName with
  | none =>
    rw [Bridge.reconcile_nowhere hlive hns] at h
    cases (Prog.exec_pure.mp h).1
  | some ns =>
    rw [Bridge.reconcile_live hlive hns] at h
    obtain ⟨u, s₁, hclaim, hrun⟩ := Attempt.exec_bind_ok.mp h
    exact (shows_of_ensureFinalizer hstored hns hclaim).run hsteady hrun

end Surroundings
end BridgeOperator
