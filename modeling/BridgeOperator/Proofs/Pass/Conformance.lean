import BridgeOperator.Proofs.Pass.Protocol
import BridgeOperator.Proofs.Poll

/-!
Reconciling a bridge keeps to the table of passes. There is one lemma for each part of a pass, in
the order in which the parts are built from one another; `Leads` and `Started` say what a part
leaves to the next one.
-/

namespace BridgeOperator
namespace BridgePass

variable {p : BridgePass} {φ : Phase} {t : Option Instant}

theorem keeps_now {Q : Except Error Instant → Moment → Prop}
    (h : ∀ t', Q (.ok t') ⟨φ, some t'⟩) : BridgeWork.now.run.Keeps (Does p) ⟨φ, t⟩ Q :=
  (Attempt.keeps_always _ Q).mpr fun t' => ⟨_, .now φ t t', h t'⟩

theorem keeps_publish (n : Kube.Notice) {Q : Except Error Unit → Moment → Prop} {m : Moment}
    (h : Q (.ok ()) m) : (BridgeWork.publish n).run.Keeps (Does p) m Q :=
  (Attempt.keeps_always _ Q).mpr fun r => ⟨m, .publish m n r, h⟩

theorem keeps_record {s : BridgeStatus} {Q : Except Error Unit → Moment → Prop}
    (hs : φ.pending p t = some s) (hok : Q (.ok ()) ⟨φ.stored p s, t⟩)
    (herr : ∀ e, Q (.error e) ⟨φ.unstored, t⟩) : (p.record s).run.Keeps (Does p) ⟨φ, t⟩ Q := by
  intro r
  cases r with
  | ok u => exact ⟨_, .store φ t s hs, hok⟩
  | error e => exact ⟨_, .lose φ t s e hs, herr e⟩

theorem keeps_enter {s : BridgeStatus} {state : BridgeState} {message : Option String}
    {Q : Except Error BridgeStatus → Moment → Prop}
    (hs : ∀ now, φ.pending p (some now) = some (entering s state message now))
    (hok : ∀ now, Q (.ok (entering s state message now))
      ⟨φ.stored p (entering s state message now), some now⟩)
    (herr : ∀ now e, Q (.error e) ⟨φ.unstored, some now⟩) :
    (p.enter s state message).run.Keeps (Does p) ⟨φ, t⟩ Q := by
  unfold enter
  rw [Attempt.keeps_bind]
  refine keeps_now fun now => ?_
  show (_ >>= _ : BridgeWork BridgeStatus).run.Keeps _ _ _
  rw [Attempt.keeps_bind]
  exact keeps_record (hs now) (hok now) (herr now)

/-- How a step may leave a pass: where it goes on from the status it ends with, or anywhere. -/
def Leads (p : BridgePass) (state : BridgeState) : Except Error Step → Moment → Prop
  | .ok (.next s), m => m.phase = p.standing s ∧ s.state = state
  | .ok (.done _), _ => True
  | .error _, _ => True

theorem keeps_fail {s : BridgeStatus} {reason : String} {e : Error} {state : BridgeState} :
    (p.fail s reason e).run.Keeps (Does p) ⟨.failing s e, t⟩ (p.Leads state) := by
  unfold fail
  rw [Attempt.keeps_bind]
  refine keeps_enter (fun _ => rfl) (fun now => ?_) (fun _ _ => trivial)
  show (_ >>= _ : BridgeWork Step).run.Keeps _ _ _
  rw [Attempt.keeps_bind]
  exact keeps_publish _ trivial

theorem keeps_validated {s : BridgeStatus} {provider : BoundProvider} :
    (p.validated s provider.provider.kind).run.Keeps (Does p) ⟨.admitted s provider, t⟩
      (p.Leads .installing) := by
  unfold validated
  rw [Attempt.keeps_bind]
  refine keeps_publish _ ?_
  show (_ >>= _ : BridgeWork Step).run.Keeps _ _ _
  rw [Attempt.keeps_bind]
  refine keeps_enter (fun _ => rfl) (fun now => ?_) (fun _ _ => trivial)
  show (_ >>= _ : BridgeWork Step).run.Keeps _ _ _
  rw [Attempt.keeps_bind]
  exact keeps_publish _ ⟨rfl, rfl⟩

theorem keeps_requested {s : BridgeStatus} (hs : s.state = .requested) :
    (p.requested s).run.Keeps (Does p) ⟨p.standing s, t⟩ (p.Leads .installing) := by
  unfold requested standing
  rw [hs]
  cases p.bridge.provider p.context with
  | error e =>
    cases he : e.isRetryable with
    | true => simp only [he]; exact trivial
    | false =>
      simp only [he]
      exact keeps_fail
  | ok provider =>
    show (_ >>= _ : BridgeWork Step).run.Keeps _ _ _
    rw [Attempt.keeps_bind]
    intro r
    cases r with
    | error e => exact ⟨_, .unlisted s provider t e, trivial⟩
    | ok peers =>
      refine ⟨_, .list s provider t peers, ?_⟩
      show (_ >>= _ : BridgeWork Step).run.Keeps _ _ _
      rw [Attempt.keeps_bind, Attempt.keeps_outcome]
      intro r
      cases r with
      | ok _ => exact ⟨_, .accept s provider peers t, keeps_validated⟩
      | error e =>
        cases he : e.isRetryable with
        | true =>
          refine ⟨_, .postpone s provider peers t e he, ?_⟩
          show (if e.isRetryable then _ else _ : BridgeWork Step).run.Keeps _ _ _
          rw [if_pos he]
          exact trivial
        | false =>
          refine ⟨_, .reject s provider peers t e he, ?_⟩
          show (if e.isRetryable then _ else _ : BridgeWork Step).run.Keeps _ _ _
          rw [if_neg (by simp [he])]
          exact keeps_fail

/-- The message of a bridge whose provider has yet to report ready. -/
def pending : String := "waiting for provider readiness"

/-- What waiting for readiness leaves behind. -/
def Awaited (s : BridgeStatus) : Waited → Moment → Prop
  | .ended (.ok ()), m => m.phase = .settling s
  | .ended (.error e), m => m.phase = if e.isRetryable then .noting s pending else .failing s e
  | .overflowed, _ => True

/-- Once the checks are used up, all that is left is to note it. -/
theorem keeps_pollFor (s : BridgeStatus) (provider : BoundProvider) (interval timeout : Nat)
    {expired : Error} (hexp : expired.isRetryable = true) (fuel elapsed : Nat) :
    (pollFor (BridgeWork.checkReady provider) BridgeWork.sleep interval expired timeout fuel
      elapsed).Keeps (Does p)
      ⟨if fuel = 0 then .noting s pending else .waiting s provider, t⟩ (Awaited s) := by
  have hexpired : ∀ t', Awaited s (.ended (.error expired)) ⟨.noting s pending, t'⟩ := fun t' => by
    simp [Awaited, hexp]
  induction fuel generalizing elapsed with
  | zero => exact hexpired t
  | succ fuel ih =>
    have hagain : ∀ (r : Timed (Except Error Bool)) (ended : Nat), ∃ m,
        Does p ⟨.waiting s provider, t⟩ (.ready provider (timeout - elapsed)) r m ∧
        (pollAgain BridgeWork.sleep interval expired timeout
          (pollFor (BridgeWork.checkReady provider) BridgeWork.sleep interval expired timeout fuel)
          ended).Keeps (Does p) m (Awaited s) := by
      intro r ended
      refine pollAgain_elim (motive := fun again => ∃ m,
        Does p ⟨.waiting s provider, t⟩ (.ready provider (timeout - elapsed)) r m ∧
        again.Keeps (Does p) m (Awaited s)) _ _ _ _ _ _ ?_ ?_ fun resumed => ?_
      · exact ⟨_, .poll s provider t _ r, trivial⟩
      · exact ⟨_, .expire s provider t _ r pending, hexpired t⟩
      · refine ⟨_, .poll s provider t _ r, fun r' => ?_⟩
        cases fuel with
        | zero => exact ⟨_, .expireAsleep s provider t interval r' pending, ih resumed⟩
        | succ fuel => exact ⟨_, .sleep _ interval r', ih resumed⟩
    intro r
    rcases r with _ | ⟨took, e | _ | _⟩
    · exact ⟨_, .expire s provider t _ _ pending, hexpired t⟩
    · cases he : e.isRetryable with
      | true =>
        obtain ⟨m, hm, hk⟩ := hagain (.finished took (.error e)) (elapsed + took)
        refine ⟨m, hm, ?_⟩
        show Prog.Keeps _ (if e.isRetryable then _ else _) _ _
        rw [if_pos he]
        exact hk
      | false =>
        refine ⟨_, .broken s provider t _ took e he, ?_⟩
        show Prog.Keeps _ (if e.isRetryable then _ else _) _ _
        rw [if_neg (by simp [he])]
        show Awaited s (.ended (.error e)) _
        simp [Awaited, he]
    · exact hagain (.finished took (.ok false)) (elapsed + took)
    · exact ⟨_, .ready s provider t _ took, rfl⟩

theorem keeps_awaitReady (s : BridgeStatus) (provider : BoundProvider) :
    (p.awaitReady provider).run.Keeps (Does p) ⟨.waiting s provider, t⟩
      fun r m => ∃ waited, r = waited.result ∧ Awaited s waited m := by
  have hexp : (Error.timeout
      s!"{provider.provider.kind.name} provider did not report ready").isRetryable = true := rfl
  have h := keeps_pollFor (p := p) (t := t) s provider p.context.config.readinessPoll
    p.context.config.readinessTimeout hexp
    (checkBound p.context.config.readinessTimeout p.context.config.readinessPoll) 0
  rw [if_neg (checkBound_ne_zero _ _)] at h
  exact (Prog.keeps_bind _ _ _).mpr (h.mono fun waited m hm => ⟨waited, rfl, hm⟩)

/-- Readiness that is there at the first check is not waited for. -/
theorem exec_awaitReady {σ : Type} {serves : (c : BridgeCall) → σ → Answer c → σ → Prop}
    {provider : BoundProvider} {took : Nat} {x x' : σ}
    (h : (BridgeWork.checkReady provider p.context.config.readinessTimeout).Exec serves x
      (.finished took (.ok true)) x') :
    (p.awaitReady provider).run.Exec serves x (.ok (.ok ())) x' :=
  Prog.exec_bind.mpr ⟨_, x', exec_pollUntil_ready h, .done _ _⟩

theorem keeps_note {s : BridgeStatus} {message : String} {a : Action} {state : BridgeState} :
    (p.note s message >>= fun _ => pure (.done a) : BridgeWork Step).run.Keeps (Does p)
      ⟨.noting s message, t⟩ (p.Leads state) := by
  rw [Attempt.keeps_bind]
  unfold note
  split
  · exact keeps_record rfl trivial fun _ => trivial
  · exact trivial

theorem keeps_installing {s : BridgeStatus} (hs : s.state = .installing) :
    (p.installing s).run.Keeps (Does p) ⟨p.standing s, t⟩ (p.Leads .installed) := by
  unfold installing standing
  rw [hs]
  cases p.bridge.provider p.context with
  | error e =>
    cases he : e.isRetryable with
    | true => simp only [he]; exact trivial
    | false =>
      simp only [he]
      exact keeps_fail
  | ok provider =>
    show (_ >>= _ : BridgeWork Step).run.Keeps _ _ _
    rw [Attempt.keeps_bind, Attempt.keeps_outcome]
    intro r
    cases r with
    | error e =>
      cases he : e.isRetryable with
      | true =>
        refine ⟨_, .mountLater s provider t e s!"install pending: {e.message}" he, ?_⟩
        show (if e.isRetryable then _ else _ : BridgeWork Step).run.Keeps _ _ _
        rw [if_pos he]
        exact keeps_note
      | false =>
        refine ⟨_, .unmounted s provider t e he, ?_⟩
        show (if e.isRetryable then _ else _ : BridgeWork Step).run.Keeps _ _ _
        rw [if_neg (by simp [he])]
        exact keeps_fail
    | ok _ =>
      refine ⟨_, .mount s provider t, ?_⟩
      show (_ >>= _ : BridgeWork Step).run.Keeps _ _ _
      rw [Attempt.keeps_bind]
      refine (keeps_awaitReady s provider).mono fun r m ⟨waited, hr, hm⟩ => ?_
      subst hr
      obtain ⟨φ, t'⟩ := m
      rcases waited with (e | _) | _
      · obtain rfl : φ = if e.isRetryable then .noting s pending else .failing s e := hm
        show (if e.isRetryable then _ else _ : BridgeWork Step).run.Keeps _ _ _
        cases he : e.isRetryable with
        | true => exact keeps_note
        | false => exact keeps_fail
      · obtain rfl : φ = .settling s := hm
        show (_ >>= _ : BridgeWork Step).run.Keeps _ _ _
        rw [Attempt.keeps_bind]
        refine keeps_enter (fun _ => rfl) (fun now => ?_) (fun _ _ => trivial)
        show (_ >>= _ : BridgeWork Step).run.Keeps _ _ _
        rw [Attempt.keeps_bind]
        exact keeps_publish _ ⟨rfl, rfl⟩
      · exact trivial

/-- A pass that takes up a status anywhere ends as it likes. -/
def Ends : Except Error Action → Moment → Prop := fun _ _ => True

theorem keeps_installed {s : BridgeStatus} (hs : s.state = .installed) :
    (p.installed s).run.Keeps (Does p) ⟨p.standing s, t⟩ Ends := by
  unfold installed standing
  rw [hs, Attempt.keeps_bind]
  refine keeps_enter (fun _ => rfl) (fun now => ?_) (fun _ _ => trivial)
  show (_ >>= _ : BridgeWork Action).run.Keeps _ _ _
  rw [Attempt.keeps_bind]
  exact keeps_publish _ trivial

theorem keeps_fromInstalling {s : BridgeStatus} (hs : s.state = .installing) :
    (p.fromInstalling s).run.Keeps (Does p) ⟨p.standing s, t⟩ Ends := by
  unfold fromInstalling
  rw [Attempt.keeps_bind]
  refine (keeps_installing hs).mono fun r m hm => ?_
  obtain ⟨φ, t'⟩ := m
  rcases r with _ | s' | a
  · exact trivial
  · obtain ⟨rfl, hs'⟩ : φ = p.standing s' ∧ s'.state = .installed := hm
    exact keeps_installed hs'
  · exact trivial

theorem keeps_active {s : BridgeStatus} (hs : s.state = .active) :
    (p.active s).run.Keeps (Does p) ⟨p.standing s, t⟩ Ends := by
  unfold active standing
  rw [hs, Attempt.keeps_bind]
  cases p.bridge.provider p.context with
  | error e => exact trivial
  | ok provider =>
    show (_ >>= _ : BridgeWork Action).run.Keeps _ _ _
    rw [Attempt.keeps_bind, Attempt.keeps_outcome]
    intro r
    rcases r with _ | ⟨elapsed, e | _ | _⟩
    · exact ⟨_, .intact s provider t _ _, trivial⟩
    · exact ⟨_, .intact s provider t _ _, trivial⟩
    · refine ⟨_, .drift s provider t _ elapsed, ?_⟩
      show (_ >>= _ : BridgeWork Action).run.Keeps _ _ _
      rw [Attempt.keeps_bind]
      refine keeps_publish _ ?_
      show (_ >>= _ : BridgeWork Action).run.Keeps _ _ _
      rw [Attempt.keeps_bind]
      exact keeps_enter (fun _ => rfl) (fun now => keeps_fromInstalling rfl) fun _ _ => trivial
    · exact ⟨_, .intact s provider t _ _, trivial⟩

/-- Where the pass goes on once it has decided whether to start over. -/
def Started (p : BridgePass) : Except Error BridgeStatus → Moment → Prop
  | .ok s, m => m.phase = p.standing s
  | .error _, _ => True

theorem keeps_starting : p.starting.run.Keeps (Does p) ⟨p.opening, t⟩ p.Started := by
  have hreopen : (p.enter p.bridge.statusOrInitial .requested (some "spec changed")).run.Keeps
      (Does p) ⟨.reopening, t⟩ p.Started :=
    keeps_enter (fun _ => rfl) (fun _ => rfl) fun _ _ => trivial
  have hwarn : ∀ e : Error, (p.bridge.warn Reason.uninstallFailed
        s!"Previous installation not removed: {e.message}" >>= fun _ =>
      p.enter p.bridge.statusOrInitial .requested (some "spec changed")).run.Keeps
      (Does p) ⟨.reopening, t⟩ p.Started := by
    intro e
    rw [Attempt.keeps_bind]
    exact keeps_publish _ hreopen
  unfold starting opening
  by_cases hc : (p.bridge.specChanged && p.bridge.statusOrInitial.state ≠ .requested
      && p.bridge.statusOrInitial.state ≠ .removed) = true
  · simp only [if_pos hc]
    unfold restart
    by_cases hi : p.bridge.statusOrInitial.everInstalled = true
    · simp only [if_pos hi]
      show (_ >>= _ : BridgeWork BridgeStatus).run.Keeps _ _ _
      rw [Attempt.keeps_bind, Attempt.keeps_outcome]
      unfold Bridge.tearDown
      rw [Attempt.keeps_bind]
      cases p.bridge.applied.provider p.context with
      | error e => exact hwarn e
      | ok former =>
        intro r
        refine ⟨_, .replace former t r, ?_⟩
        cases r with
        | ok _ => exact hreopen
        | error e => exact hwarn e
    · simp only [if_neg hi]
      exact hreopen
  · simp only [if_neg hc]
    rfl

theorem keeps_run : p.run.run.Keeps (Does p) ⟨p.opening, t⟩ Ends := by
  unfold run
  rw [Attempt.keeps_bind]
  refine keeps_starting.mono fun r m hm => ?_
  obtain ⟨φ, t'⟩ := m
  cases r with
  | error e => exact trivial
  | ok s =>
    obtain rfl : φ = p.standing s := hm
    simp only [Attempt.andThen]
    cases hs : s.state with
    | requested =>
      show (_ >>= _ : BridgeWork Action).run.Keeps _ _ _
      rw [Attempt.keeps_bind]
      refine (keeps_requested hs).mono fun r m hm => ?_
      obtain ⟨φ, t'⟩ := m
      rcases r with _ | s' | a
      · exact trivial
      · obtain ⟨rfl, hs'⟩ : φ = p.standing s' ∧ s'.state = .installing := hm
        exact keeps_fromInstalling hs'
      · exact trivial
    | installing => exact keeps_fromInstalling hs
    | installed => exact keeps_installed hs
    | active => exact keeps_active hs
    | error => exact trivial
    | removed => exact trivial

theorem keeps_tearDownDeleted {b : Bridge} {ctx : BridgeContext} :
    (b.tearDownDeleted ctx).run.Keeps (Does (ofBridge ctx b)) ⟨(ofBridge ctx b).closing, t⟩
      (fun _ m => m.phase = .dismissing) := by
  unfold Bridge.tearDownDeleted
  have hwarn : ∀ e : Error, (b.warn Reason.uninstallFailed
      s!"Uninstall failed ({e.kind}): {e.message}").run.Keeps (Does (ofBridge ctx b))
      ⟨.dismissing, t⟩ (fun _ m => m.phase = .dismissing) := fun _ => keeps_publish _ rfl
  by_cases hi : b.statusOrInitial.everInstalled = true
  · simp only [if_pos hi]
    show (_ >>= _ : BridgeWork Unit).run.Keeps _ _ _
    rw [Attempt.keeps_bind, Attempt.keeps_outcome]
    unfold Bridge.tearDown
    rw [Attempt.keeps_bind]
    cases hq : b.applied.provider ctx with
    | error e =>
      have hclosing : (ofBridge ctx b).closing = .dismissing := by simp [closing, ofBridge, hi, hq]
      rw [hclosing]
      exact hwarn e
    | ok former =>
      have hclosing : (ofBridge ctx b).closing = .dismantling former := by
        simp [closing, ofBridge, hi, hq]
      rw [hclosing]
      intro r
      refine ⟨_, .dismantle former t r, ?_⟩
      cases r with
      | ok _ => rfl
      | error e => exact hwarn e
  · have hclosing : (ofBridge ctx b).closing = .dismissing := by simp [closing, ofBridge, hi]
    simp only [if_neg hi]
    exact hclosing

theorem keeps_remove {b : Bridge} {ctx : BridgeContext} {namespaceName : String}
    (hns : b.metadata.namespaceName = some namespaceName)
    (hfin : b.metadata.hasFinalizer Bridge.finalizer = true) :
    (b.remove ctx).run.Keeps (Does (ofBridge ctx b)) ⟨(ofBridge ctx b).closing, t⟩ Ends := by
  have hname : (ofBridge ctx b).namespaceName = namespaceName := by simp [ofBridge, hns]
  unfold Bridge.remove
  rw [hns]
  simp only [hfin, Bool.not_true, Bool.false_eq_true, if_false]
  show (_ >>= _ : BridgeWork Action).run.Keeps _ _ _
  rw [Attempt.keeps_bind]
  refine keeps_tearDownDeleted.mono fun r m hm => ?_
  obtain ⟨φ, t'⟩ := m
  obtain rfl : φ = .dismissing := hm
  cases r with
  | error e => exact trivial
  | ok _ =>
    show (_ >>= _ : BridgeWork Action).run.Keeps _ _ _
    rw [Attempt.keeps_bind]
    refine keeps_now fun now => ?_
    show (_ >>= _ : BridgeWork Action).run.Keeps _ _ _
    rw [Attempt.keeps_bind, Attempt.keeps_outcome]
    have hpending : Phase.pending (ofBridge ctx b) .dismissing (some now) =
        some (b.statusOrInitial.transition .removed (some "bridge removed") now) := rfl
    intro r
    have hremoved : Does (ofBridge ctx b) ⟨.dismissing, some now⟩
        (.patchStatus namespaceName b.name
          (b.statusOrInitial.transition .removed (some "bridge removed") now)) r
        ⟨.releasing, some now⟩ := by
      cases r with
      | ok u =>
        have h := Does.store (p := ofBridge ctx b) .dismissing (some now) _ hpending
        rw [hname] at h
        exact h
      | error e =>
        have h := Does.lose (p := ofBridge ctx b) .dismissing (some now) _ e hpending
        rw [hname] at h
        exact h
    refine ⟨_, hremoved, ?_⟩
    show (_ >>= _ : BridgeWork Action).run.Keeps _ _ _
    rw [Attempt.keeps_bind]
    refine keeps_publish _ ?_
    show (_ >>= _ : BridgeWork Action).run.Keeps _ _ _
    rw [Attempt.keeps_bind, Attempt.keeps_outcome]
    intro r'
    have h := Does.release (p := ofBridge ctx b) (some now) r'
    rw [hname] at h
    cases r' with
    | ok _ => exact ⟨_, h, trivial⟩
    | error _ => exact ⟨_, h, trivial⟩

theorem keeps_resume {b : Bridge} {ctx : BridgeContext} {namespaceName : String}
    (hns : b.metadata.namespaceName = some namespaceName) :
    (b.resume ctx).run.Keeps (Does (ofBridge ctx b))
      ⟨if b.metadata.hasFinalizer Bridge.finalizer then (ofBridge ctx b).opening else .claiming, t⟩
      Ends := by
  have hpass : (⟨ctx, b, namespaceName⟩ : BridgePass) = ofBridge ctx b := by simp [ofBridge, hns]
  have hname : (ofBridge ctx b).namespaceName = namespaceName := by simp [ofBridge, hns]
  unfold Bridge.resume Bridge.ensureFinalizer
  rw [hns]
  show (_ >>= _ : BridgeWork Action).run.Keeps _ _ _
  rw [Attempt.keeps_bind, hpass]
  by_cases hfin : b.metadata.hasFinalizer Bridge.finalizer = true
  · simp only [hfin, Bool.not_true, Bool.false_eq_true, if_false, if_true]
    exact keeps_run
  · simp only [hfin, Bool.not_false, if_true, Bool.false_eq_true, if_false]
    intro r
    cases r with
    | ok _ =>
      have h := Does.claim (p := ofBridge ctx b) t
      rw [hname] at h
      exact ⟨_, h, keeps_run⟩
    | error e =>
      have h := Does.unclaimed (p := ofBridge ctx b) t e
      rw [hname] at h
      exact ⟨_, h, trivial⟩

/-- Reconciling a bridge does what the table of passes allows, whatever it is answered. -/
theorem reconcile_keeps (b : Bridge) (ctx : BridgeContext) :
    (b.reconcile ctx).run.Keeps (Does (ofBridge ctx b)) ⟨(ofBridge ctx b).entry, none⟩ Ends := by
  have hentry : (ofBridge ctx b).entry =
      if b.metadata.namespaceName.isNone then .over
      else if b.metadata.deletionTimestamp.isSome then
        if b.metadata.hasFinalizer Bridge.finalizer then (ofBridge ctx b).closing else .over
      else if b.metadata.hasFinalizer Bridge.finalizer then (ofBridge ctx b).opening
      else .claiming := rfl
  rw [hentry]
  unfold Bridge.reconcile
  cases hns : b.metadata.namespaceName with
  | none =>
    unfold Bridge.remove Bridge.resume
    rw [hns]
    split <;> exact trivial
  | some namespaceName =>
    simp only [Option.isNone_some, Bool.false_eq_true, if_false]
    by_cases hdel : b.metadata.deletionTimestamp.isSome = true
    · simp only [if_pos hdel]
      by_cases hfin : b.metadata.hasFinalizer Bridge.finalizer = true
      · simp only [if_pos hfin]
        exact keeps_remove hns hfin
      · unfold Bridge.remove
        rw [hns]
        simp only [hfin, Bool.not_false, if_true]
        exact trivial
    · simp only [if_neg hdel]
      exact keeps_resume hns

end BridgePass
end BridgeOperator
