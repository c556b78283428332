import BridgeOperator.Proofs.Pass.Loop
import BridgeOperator.Proofs.World.Admission

/-!
The shape of a pass, read off the log of its calls: which states it writes one after the other,
what it asks for at the end, and how far it comes when nothing goes wrong. Every step writes one
state at most, and where the pass goes on that is the next one in the lifecycle.
-/

namespace BridgeOperator

namespace BridgeCall

/-- The state that is written by a call. -/
def writes? : BridgeCall → Option BridgeState
  | patchStatus _ _ s => some s.state
  | _ => none

def isCheck : BridgeCall → Bool
  | ready .. => true
  | _ => false

/-- A provider reports ready in time. -/
def saysReady : (c : BridgeCall) → Answer c → Bool
  | ready .., .finished _ (.ok true) => true
  | _, _ => false

/-- The answer is not an error, and it has come in time. -/
def succeeds : (c : BridgeCall) → Answer c → Bool
  | listBridges, .error _ | patchStatus .., .error _ | addFinalizer .., .error _
  | removeFinalizer .., .error _ | validate .., .error _ | install _, .error _
  | uninstall _, .error _ | ready .., .late | ready .., .finished _ (.error _) => false
  | _, _ => true

end BridgeCall

namespace Log

/-- The states that are written, in order. -/
def written (w : Log BridgeCall) : List BridgeState := w.filterMap (·.1.writes?)

/-- The changes of state that are written, if the first one is from `x`. -/
def walk (x : BridgeState) (w : Log BridgeCall) : List (BridgeState × BridgeState) :=
  (x :: w.written).zip w.written

/-- The last state. -/
def last (x : BridgeState) (w : Log BridgeCall) : BridgeState := w.written.getLastD x

def checks (w : Log BridgeCall) : Bool := w.any (·.1.isCheck)

def saysReady (w : Log BridgeCall) : Bool := w.any fun e => e.1.saysReady e.2

def succeeds (w : Log BridgeCall) : Bool := w.all fun e => e.1.succeeds e.2

variable {w w' : Log BridgeCall} {x y : BridgeState}

@[simp] theorem written_append : (w ++ w').written = w.written ++ w'.written :=
  List.filterMap_append ..

@[simp] theorem checks_append : (w ++ w').checks = (w.checks || w'.checks) := List.any_append ..

@[simp] theorem saysReady_append : (w ++ w').saysReady = (w.saysReady || w'.saysReady) :=
  List.any_append ..

@[simp] theorem succeeds_append : (w ++ w').succeeds = (w.succeeds && w'.succeeds) :=
  List.all_append ..

theorem walk_append (h : w.written = [y]) : walk x (w ++ w') = (x, y) :: walk y w' := by
  simp [walk, h]

theorem last_append (h : w.written = [y]) : last x (w ++ w') = last y w' := by
  rw [last, written_append, h]
  exact List.getLastD_cons

theorem checks_of_saysReady (h : w.saysReady = true) : w.checks = true := by
  obtain ⟨⟨c, r⟩, hmem, hready⟩ := List.any_eq_true.mp h
  refine List.any_eq_true.mpr ⟨⟨c, r⟩, hmem, ?_⟩
  cases c <;> first | rfl | cases hready

theorem not_saysReady (h : w.checks = false) : w.saysReady = false := by
  cases hready : w.saysReady with
  | false => rfl
  | true => exact absurd (checks_of_saysReady hready) (by simp [h])

end Log

/-- The lifecycle: which state may be written over which by a pass that does not start over. -/
inductive BridgeState.Edge : BridgeState → BridgeState → Prop
  | admitted : Edge .requested .installing
  | rejected : Edge .requested .error
  | pending : Edge .installing .installing
  | mounted : Edge .installing .installed
  | failed : Edge .installing .error
  | activated : Edge .installed .active
  | drifted : Edge .active .installing

/-- The state a step leads to if the pass goes on from it. -/
def BridgeState.next? : BridgeState → Option BridgeState
  | .requested => some .installing
  | .installing => some .installed
  | .installed => some .active
  | .active => some .installing
  | .error | .removed => none

theorem BridgeState.Edge.ne_requested {x y : BridgeState} (h : x.Edge y) : y ≠ .requested := by
  rintro rfl
  cases h

/-- How many steps there may be from a state. -/
def BridgeState.steps (due : Bool) : BridgeState → Nat
  | .requested => 4
  | .installing => 3
  | .installed => 2
  | .active => if due then 4 else 1
  | .error | .removed => 1

theorem BridgeState.edge_of_next {x y : BridgeState} (h : x.next? = some y) : x.Edge y := by
  cases x <;> cases h <;> constructor

theorem BridgeState.steps_of_next {x y : BridgeState} {due : Bool} (h : x.next? = some y)
    (hdue : x = .active → due = true) : y.steps false < x.steps due := by
  cases x <;> cases h <;> simp_all [steps]

theorem BridgeState.steps_le (x : BridgeState) (due : Bool) : x.steps due ≤ 4 := by
  cases x <;> cases due <;> decide

theorem BridgeState.next_not_terminal {x y : BridgeState} (h : x.next? = some y) :
    y.isTerminal = false := by
  cases x <;> cases h <;> rfl

namespace BridgePass

variable (p : BridgePass)

/-- What a pass that has come to an end in a state asks for. -/
structure Rests (a : Action) (x : BridgeState) : Prop where
  awaits : a = .awaitChange ↔ x.isTerminal = true
  requeues : x.isTerminal = false →
    a = .retry ∨ a = .requeue p.context.config.bridgeInterval

/-- Nothing goes wrong: there is a provider, every call succeeds, and if there is a readiness
check, then one is answered with yes. -/
structure Smooth (w : Log BridgeCall) : Prop where
  provider : ∃ q, p.bridge.provider p.context = .ok q
  succeeds : w.succeeds = true
  ready : w.checks = true → w.saysReady = true

/-- At most one state is written, and ACTIVE is only left by a pass that was due to look. -/
def Writes (due : Bool) (x : BridgeState) (w : Log BridgeCall) : Prop :=
  w.written = [] ∨ ∃ y, w.written = [y] ∧ x.Edge y ∧ (x = .active → due = true)

/-- What a step may do from a state. If nothing goes wrong, the pass goes on, or has no further to
go. -/
inductive Stepped (due : Bool) (x : BridgeState) :
    Except Error Step → Log BridgeCall → Prop
  | next (s : BridgeStatus) (w : Log BridgeCall) : w.written = [s.state] →
    x.next? = some s.state → (x = .active → due = true) →
    (x = .installing ∨ w.saysReady = false) → Stepped due x (.ok (.next s)) w
  | done (a : Action) (w : Log BridgeCall) :
    Writes due x w → p.Rests a (w.last x) →
    (p.Smooth w → x.isTerminal = true ∨
      x = .active ∧ w.written = [] ∧ a = .requeue p.context.config.bridgeInterval) →
    Stepped due x (.ok (.done a)) w
  | error (e : Error) (w : Log BridgeCall) :
    Writes due x w → ¬ p.Smooth w →
    Stepped due x (.error e) w

variable {p} {due : Bool} {x : BridgeState} {s : BridgeStatus} {w w' : Log BridgeCall}
  {a : Action}

theorem Smooth.left (h : p.Smooth (w ++ w')) (hw' : w'.checks = false) : p.Smooth w where
  provider := h.provider
  succeeds := by
    have hall := h.succeeds
    rw [Log.succeeds_append, Bool.and_eq_true] at hall
    exact hall.1
  ready hw := by
    have hready := h.ready (by simp [hw])
    rw [Log.saysReady_append, Bool.or_eq_true] at hready
    refine hready.resolve_right fun hlater => ?_
    rw [Log.checks_of_saysReady hlater] at hw'
    cases hw'

theorem Smooth.right (h : p.Smooth (w ++ w')) (hw : w.saysReady = false ∨ w'.checks = false) :
    p.Smooth w' where
  provider := h.provider
  succeeds := by
    have hall := h.succeeds
    rw [Log.succeeds_append, Bool.and_eq_true] at hall
    exact hall.2
  ready hw' := by
    have hready := h.ready (by simp [hw'])
    rw [Log.saysReady_append, Bool.or_eq_true] at hready
    refine hready.resolve_left fun hearlier => ?_
    rcases hw with hw | hw
    · rw [hw] at hearlier
      cases hearlier
    · rw [hw] at hw'
      cases hw'

theorem not_smooth_of_provider {e : Error} (h : p.bridge.provider p.context = .error e) :
    ¬ p.Smooth w := by
  rintro ⟨⟨q, hq⟩, -, -⟩
  rw [h] at hq
  cases hq

theorem not_smooth_of_succeeds (h : w.succeeds = false) : ¬ p.Smooth w := by
  intro hsmooth
  rw [hsmooth.succeeds] at h
  cases h

theorem rests_awaitChange (h : x.isTerminal = true) : p.Rests .awaitChange x :=
  ⟨by simp [h], by simp [h]⟩

theorem rests_retry (h : x.isTerminal = false) : p.Rests .retry x :=
  ⟨by simp [h, Action.retry], fun _ => .inl rfl⟩

theorem rests_interval (h : x.isTerminal = false) :
    p.Rests (.requeue p.context.config.bridgeInterval) x :=
  ⟨by simp [h], fun _ => .inr rfl⟩

/-- What a notice leaves in the log. -/
theorem yields_publish {n : Kube.Notice} {Q : Except Error Unit → Log BridgeCall → Prop}
    (h : ∀ w, w.written = [] → w.checks = false → Q (.ok ()) w) :
    (BridgeWork.publish n).run.Yields Q := fun _ => h _ rfl rfl

/-- What storing a status leaves in the log. -/
theorem yields_record {Q : Except Error Unit → Log BridgeCall → Prop}
    (hok : ∀ w, w.written = [s.state] → w.checks = false → Q (.ok ()) w)
    (herr : ∀ e w, w.written = [s.state] → w.checks = false → w.succeeds = false →
      Q (.error e) w) : (p.record s).run.Yields Q := by
  intro r
  cases r with
  | ok u => exact hok _ rfl rfl
  | error e => exact herr _ _ rfl rfl rfl

theorem yields_enter {state : BridgeState} {message : Option String}
    {Q : Except Error BridgeStatus → Log BridgeCall → Prop}
    (hok : ∀ s' w, s'.state = state → w.written = [state] → w.checks = false → Q (.ok s') w)
    (herr : ∀ e w, w.written = [state] → w.checks = false → w.succeeds = false →
      Q (.error e) w) : (p.enter s state message).run.Yields Q := by
  intro now r
  cases r with
  | ok u => exact hok _ _ rfl rfl rfl
  | error e => exact herr _ _ rfl rfl rfl

/-- A call of the store or of a provider that writes nothing. -/
def Asks {α : Type} (x : BridgeWork α) : Prop :=
  x.run.Yields fun r w => w.written = [] ∧ w.checks = false ∧
    ∀ e, r = .error e → w.succeeds = false

theorem asks_list : Asks BridgeWork.listBridges := by
  intro r
  cases r with
  | ok peers => exact ⟨rfl, rfl, nofun⟩
  | error e => exact ⟨rfl, rfl, fun _ _ => rfl⟩

theorem asks_validate {q : BoundProvider} {request : Bridge} {peers : List Bridge} :
    Asks (BridgeWork.validate q request peers) := by
  intro r
  cases r with
  | ok u => exact ⟨rfl, rfl, nofun⟩
  | error e => exact ⟨rfl, rfl, fun _ _ => rfl⟩

theorem asks_install {q : BoundProvider} : Asks (BridgeWork.install q) := by
  intro r
  cases r with
  | ok u => exact ⟨rfl, rfl, nofun⟩
  | error e => exact ⟨rfl, rfl, fun _ _ => rfl⟩

section

variable {reason message : String} {e : Error} (hw : w.written = []) (hnot : ¬ p.Smooth w)

include hw hnot

/-- What has gone wrong for good ends the step in ERROR. -/
theorem stepped_fail (hx : x.Edge .error) :
    (p.fail s reason e).run.Yields fun r w' => p.Stepped due x r (w ++ w') := by
  have hactive : x = .active → due = true := by
    rintro rfl
    cases hx
  unfold fail
  rw [Attempt.yields_bind]
  refine yields_enter (fun s' w₁ _ hw₁ hchecks₁ => ?_) fun e' w₁ hw₁ _ hsucceeds => ?_
  · show (_ >>= _ : BridgeWork Step).run.Yields _
    rw [Attempt.yields_bind]
    refine yields_publish fun w₂ hw₂ hchecks₂ => ?_
    have hlog : (w ++ (w₁ ++ (w₂ ++ []))).written = [.error] := by simp [hw, hw₁, hw₂]
    refine .done _ _ (.inr ⟨_, hlog, hx, hactive⟩) ?_ fun hsmooth => ?_
    · rw [Log.last, hlog]
      exact rests_awaitChange rfl
    · exact absurd (hsmooth.left (by simp [hchecks₁, hchecks₂])) hnot
  · exact .error _ _ (.inr ⟨_, by simp [hw, hw₁], hx, hactive⟩)
      (not_smooth_of_succeeds (by simp [hsucceeds]))

/-- What may go well later is noted, unless it already is. -/
theorem stepped_note (hs : s.state = .installing) (ha : p.Rests a .installing) :
    (p.note s message >>= fun _ => pure (.done a) : BridgeWork Step).run.Yields fun r w' =>
      p.Stepped due .installing r (w ++ w') := by
  rw [Attempt.yields_bind]
  unfold note
  split
  · refine yields_record (fun w₁ hw₁ hchecks => ?_) fun e' w₁ hw₁ _ hsucceeds => ?_
    · have hlog : (w ++ (w₁ ++ [])).written = [.installing] := by simp [hw, hw₁, hs]
      refine .done _ _ (.inr ⟨_, hlog, .pending, nofun⟩) ?_ fun hsmooth => ?_
      · rw [Log.last, hlog]
        exact ha
      · exact absurd (hsmooth.left (by simp [hchecks])) hnot
    · exact .error _ _ (.inr ⟨_, by simp [hw, hw₁, hs], .pending, nofun⟩)
        (not_smooth_of_succeeds (by simp [hsucceeds]))
  · have hlog : (w ++ ([] ++ [])).written = [] := by simp [hw]
    refine .done _ _ (.inl hlog) ?_ fun hsmooth => ?_
    · rw [Log.last, hlog]
      exact ha
    · exact absurd (hsmooth.left rfl) hnot

end

/-- A state that is entered with a notice is the one the pass goes on from. -/
theorem stepped_enter {y : BridgeState} {message : Option String} {reason note : String}
    (hw : w.written = []) (hnext : x.next? = some y) (hx : x ≠ .active)
    (hready : x = .installing ∨ w.checks = false) :
    (p.enter s y message >>= fun s' => p.bridge.tell reason note >>= fun _ => pure (.next s') :
      BridgeWork Step).run.Yields fun r w' => p.Stepped due x r (w ++ w') := by
  rw [Attempt.yields_bind]
  refine yields_enter (fun s' w₁ hs' hw₁ hchecks₁ => ?_) fun e w₁ hw₁ _ hsucceeds => ?_
  · show (_ >>= _ : BridgeWork Step).run.Yields _
    rw [Attempt.yields_bind]
    refine yields_publish fun w₂ hw₂ hchecks₂ => ?_
    refine .next _ _ (by simp [hw, hw₁, hw₂, hs']) (by rw [hs', hnext])
      (fun h => absurd h hx) (hready.imp_right fun hchecks => ?_)
    exact Log.not_saysReady (by simp [hchecks, hchecks₁, hchecks₂])
  · exact .error _ _ (.inr ⟨y, by simp [hw, hw₁], BridgeState.edge_of_next hnext,
      fun h => absurd h hx⟩) (not_smooth_of_succeeds (by simp [hsucceeds]))

/-- What has been validated enters INSTALLING. -/
theorem stepped_validated {kind : ProviderKind} (hw : w.written = []) (hchecks : w.checks = false) :
    (p.validated s kind).run.Yields fun r w' => p.Stepped due .requested r (w ++ w') := by
  unfold validated
  rw [Attempt.yields_bind]
  refine yields_publish fun w₁ hw₁ hchecks₁ => ?_
  simp only [Attempt.thenYields, ← List.append_assoc]
  exact stepped_enter (by simp [hw, hw₁]) rfl nofun (.inr (by simp [hchecks, hchecks₁]))

theorem stepped_requested : (p.requested s).run.Yields (p.Stepped due .requested) := by
  unfold requested
  cases hq : p.bridge.provider p.context with
  | error e =>
    have hnot : ∀ w, ¬ p.Smooth w := fun _ => not_smooth_of_provider hq
    show (if e.isRetryable then _ else _ : BridgeWork Step).run.Yields _
    split
    · exact .error _ _ (.inl rfl) (hnot _)
    · exact stepped_fail rfl (hnot []) .rejected
  | ok provider =>
    show (_ >>= _ : BridgeWork Step).run.Yields _
    rw [Attempt.yields_bind]
    refine asks_list.mono fun r w₁ ⟨hw₁, hchecks₁, herr₁⟩ => ?_
    cases r with
    | error e => exact .error _ _ (.inl hw₁) (not_smooth_of_succeeds (herr₁ e rfl))
    | ok peers =>
      show (_ >>= _ : BridgeWork Step).run.Yields _
      rw [Attempt.yields_bind, Attempt.yields_outcome]
      refine asks_validate.mono fun r w₂ ⟨hw₂, hchecks₂, herr₂⟩ => ?_
      have hw : (w₁ ++ w₂).written = [] := by simp [hw₁, hw₂]
      simp only [Attempt.thenYields, ← List.append_assoc]
      cases r with
      | ok u => exact stepped_validated hw (by simp [hchecks₁, hchecks₂])
      | error e =>
        have hnot : ¬ p.Smooth (w₁ ++ w₂) := not_smooth_of_succeeds (by simp [herr₂ e rfl])
        show (if e.isRetryable then _ else _ : BridgeWork Step).run.Yields _
        split
        · exact .error _ _ (.inl (by simp [hw])) (by rwa [List.append_nil])
        · exact stepped_fail hw hnot .rejected

/-- Waiting for readiness writes nothing, checks, and succeeds once a check is answered with
yes. -/
theorem yields_pollFor {check : BoundProvider} {interval timeout fuel elapsed : Nat}
    {expired : Error} :
    (pollFor (BridgeWork.checkReady check) BridgeWork.sleep interval expired timeout fuel
      elapsed).Yields
      fun r w => w.written = [] ∧ (fuel ≠ 0 → w.checks = true) ∧
        (w.saysReady = true → r = .ended (.ok ())) := by
  induction fuel generalizing elapsed with
  | zero => exact ⟨rfl, nofun, nofun⟩
  | succ fuel ih =>
    have hagain : ∀ (r : Answer (BridgeCall.ready check (timeout - elapsed))) (ended : Nat),
        BridgeCall.saysReady (.ready check (timeout - elapsed)) r = false →
        (pollAgain BridgeWork.sleep interval expired timeout
          (pollFor (BridgeWork.checkReady check) BridgeWork.sleep interval expired timeout fuel)
          ended).Yields fun v w =>
            Log.written (⟨.ready check (timeout - elapsed), r⟩ :: w) = [] ∧
            (fuel + 1 ≠ 0 → Log.checks (⟨.ready check (timeout - elapsed), r⟩ :: w) = true) ∧
            (Log.saysReady (⟨.ready check (timeout - elapsed), r⟩ :: w) = true →
              v = .ended (.ok ())) := by
      intro r ended hr
      have hunready : ∀ v : Waited, Log.saysReady [⟨.ready check (timeout - elapsed), r⟩] = true →
          v = .ended (.ok ()) := by
        intro v h
        rw [Log.saysReady, List.any_cons, hr] at h
        cases h
      refine pollAgain_elim (motive := fun again => again.Yields _) _ _ _ _ _ _
        ⟨rfl, fun _ => rfl, hunready _⟩ ⟨rfl, fun _ => rfl, hunready _⟩ fun resumed r' => ?_
      refine ih.mono fun v w ⟨hwritten, _, hready⟩ => ⟨hwritten, fun _ => rfl, fun h => ?_⟩
      refine hready ?_
      rw [Log.saysReady, List.any_cons, hr, Bool.false_or] at h
      exact h
    intro r
    rcases r with _ | ⟨took, e | _ | _⟩
    · exact ⟨rfl, fun _ => rfl, nofun⟩
    · show Prog.Yields (if e.isRetryable then _ else _) _
      split
      · exact hagain (.finished took (.error e)) (elapsed + took) rfl
      · exact ⟨rfl, fun _ => rfl, nofun⟩
    · exact hagain (.finished took (.ok false)) (elapsed + took) rfl
    · exact ⟨rfl, fun _ => rfl, fun _ => rfl⟩

theorem yields_awaitReady {q : BoundProvider} :
    (p.awaitReady q).run.Yields fun r w => w.written = [] ∧ w.checks = true ∧
      (w.saysReady = true → r = .ok (.ok ())) := by
  refine (Prog.yields_bind _ _ _).mpr (yields_pollFor.mono ?_)
  rintro waited w ⟨hwritten, hchecks, hready⟩
  show Log.written (w ++ []) = [] ∧ _
  rw [List.append_nil]
  exact ⟨hwritten, hchecks (checkBound_ne_zero _ _), fun h => congrArg Waited.result (hready h)⟩

theorem stepped_installing (hs : s.state = .installing) :
    (p.installing s).run.Yields (p.Stepped due .installing) := by
  unfold installing
  cases hq : p.bridge.provider p.context with
  | error e =>
    have hnot : ∀ w, ¬ p.Smooth w := fun _ => not_smooth_of_provider hq
    show (if e.isRetryable then _ else _ : BridgeWork Step).run.Yields _
    split
    · exact .error _ _ (.inl rfl) (hnot _)
    · exact stepped_fail rfl (hnot []) .failed
  | ok provider =>
    show (_ >>= _ : BridgeWork Step).run.Yields _
    rw [Attempt.yields_bind, Attempt.yields_outcome]
    refine asks_install.mono fun r w₁ ⟨hw₁, hchecks₁, herr₁⟩ => ?_
    cases r with
    | error e =>
      have hnot : ¬ p.Smooth w₁ := not_smooth_of_succeeds (herr₁ e rfl)
      show (if e.isRetryable then _ else _ : BridgeWork Step).run.Yields _
      split
      · exact stepped_note hw₁ hnot hs (rests_retry rfl)
      · exact stepped_fail hw₁ hnot .failed
    | ok u =>
      show (_ >>= _ : BridgeWork Step).run.Yields _
      rw [Attempt.yields_bind]
      refine yields_awaitReady.mono fun r w₂ ⟨hw₂, hchecks₂, hready₂⟩ => ?_
      have hw : (w₁ ++ w₂).written = [] := by simp [hw₁, hw₂]
      have hnot : r ≠ .ok (.ok ()) → ¬ p.Smooth (w₁ ++ w₂) := by
        intro hr hsmooth
        have hlater := hsmooth.right (.inl (Log.not_saysReady hchecks₁))
        exact hr (hready₂ (hlater.ready hchecks₂))
      simp only [Attempt.thenYields, ← List.append_assoc]
      rcases r with e | e | u
      · exact .error _ _ (.inl hw) (hnot nofun)
      · show (if e.isRetryable then _ else _ : BridgeWork Step).run.Yields _
        split
        · exact stepped_note hw (hnot nofun) hs (rests_interval rfl)
        · exact stepped_fail hw (hnot nofun) .failed
      · exact stepped_enter hw rfl nofun (.inl rfl)

theorem stepped_activating : (p.activating s).run.Yields (p.Stepped due .installed) := by
  unfold activating
  exact stepped_enter (w := []) rfl rfl nofun (.inr rfl)

theorem stepped_watching : (p.watching s).run.Yields (p.Stepped true .active) := by
  have hdone : ∀ {w : Log BridgeCall}, w.written = [] → p.Stepped true .active
      (.ok (.done (.requeue p.context.config.bridgeInterval))) w := fun hw =>
    .done _ _ (.inl hw) (by rw [Log.last, hw]; exact rests_interval rfl)
      fun _ => .inr ⟨rfl, hw, rfl⟩
  unfold watching
  rw [Attempt.yields_bind]
  cases hq : p.bridge.provider p.context with
  | error e => exact .error _ _ (.inl rfl) (not_smooth_of_provider hq)
  | ok provider =>
    show (_ >>= _ : BridgeWork Step).run.Yields _
    rw [Attempt.yields_bind, Attempt.yields_outcome]
    intro r
    rcases r with _ | ⟨elapsed, e | _ | _⟩
    · exact hdone rfl
    · exact hdone rfl
    · -- a check that is answered with no is the only way from ACTIVE
      show (_ >>= _ : BridgeWork Step).run.Yields _
      rw [Attempt.yields_bind]
      refine yields_publish fun w₁ hw₁ hchecks₁ => ?_
      show (_ >>= _ : BridgeWork Step).run.Yields _
      rw [Attempt.yields_bind]
      refine yields_enter (fun s' w₂ hs' hw₂ hchecks₂ => ?_) fun e w₂ hw₂ _ hsucceeds => ?_
      · have hwritten : (w₁ ++ (w₂ ++ [])).written = [s'.state] := by simp [hw₁, hw₂, hs']
        have hready : (w₁ ++ (w₂ ++ [])).saysReady = false :=
          Log.not_saysReady (by simp [hchecks₁, hchecks₂])
        exact .next _ _ hwritten (by rw [hs']; rfl) (fun _ => rfl) (.inr hready)
      · have hwritten : (w₁ ++ w₂).written = [.installing] := by simp [hw₁, hw₂]
        have hfailed : (w₁ ++ w₂).succeeds = false := by simp [hsucceeds]
        exact .error _ _ (.inr ⟨_, hwritten, .drifted, fun _ => rfl⟩)
          (not_smooth_of_succeeds hfailed)
    · exact hdone rfl

/-- What a single step does, from any state. -/
theorem step_stepped : (p.step due s).run.Yields (p.Stepped due s.state) := by
  unfold step
  cases hs : s.state with
  | requested => exact stepped_requested
  | installing => exact stepped_installing hs
  | installed => exact stepped_activating
  | active =>
    cases due with
    | true => exact stepped_watching
    | false => exact .done _ _ (.inl rfl) (rests_interval rfl) fun _ => .inr ⟨rfl, rfl, rfl⟩
  | error => exact .done _ _ (.inl rfl) (rests_awaitChange rfl) fun _ => .inl rfl
  | removed => exact .done _ _ (.inl rfl) (rests_awaitChange rfl) fun _ => .inl rfl

/-- Once it is INSTALLED, a pass does not ask whether the bridge is ready. -/
theorem step_checks (h : s.state = .installed ∨ s.state = .active ∧ due = false) :
    (p.step due s).run.Yields fun _ w => w.checks = false := by
  unfold step
  rcases h with hs | ⟨hs, rfl⟩
  · rw [hs]
    unfold activating
    rw [Attempt.yields_bind]
    refine yields_enter (fun s' w₁ _ _ hchecks₁ => ?_) fun _ _ _ hchecks _ => hchecks
    show (_ >>= _ : BridgeWork Step).run.Yields _
    rw [Attempt.yields_bind]
    refine yields_publish fun w₂ _ hchecks₂ => ?_
    show (w₁ ++ (w₂ ++ [])).checks = false
    simp [hchecks₁, hchecks₂]
  · rw [hs]
    rfl

/-- What the loop does from a state. -/
structure Passed (p : BridgePass) (due : Bool) (x : BridgeState)
    (v : Except Error (Option Action)) (w : Log BridgeCall) : Prop where
  edges : ∀ m ∈ w.walk x, m.1.Edge m.2
  drifts : (w.walk x).count (.active, .installing) ≤ if due then 1 else 0
  rests : ∀ o, v = .ok o → ∃ a, o = some a ∧ p.Rests a (w.last x)
  checks : x = .installed ∨ x = .active ∧ due = false → w.checks = false
  through : p.Smooth w → x.isTerminal = false →
    v = .ok (some (.requeue p.context.config.bridgeInterval)) ∧ w.last x = .active

/-- From a step that the pass goes on from, and what follows it. -/
theorem Passed.cons {y : BridgeState} {v : Except Error (Option Action)}
    (h : p.Passed false y v w') (hw : w.written = [y]) (hnext : x.next? = some y)
    (hdue : x = .active → due = true) (hready : x = .installing ∨ w.saysReady = false)
    (hchecks : x = .installed ∨ x = .active ∧ due = false → w.checks = false) :
    p.Passed due x v (w ++ w') where
  edges := by
    rw [Log.walk_append hw]
    intro m hm
    rcases List.mem_cons.mp hm with rfl | hm
    · exact BridgeState.edge_of_next hnext
    · exact h.edges m hm
  drifts := by
    have hlater : (w'.walk y).count (.active, .installing) = 0 := Nat.le_zero.mp h.drifts
    rw [Log.walk_append hw, List.count_cons, hlater]
    by_cases hx : x = .active
    · rw [hdue hx]
      split <;> simp
    · simp [hx]
  rests o hv := by
    rw [Log.last_append hw]
    exact h.rests o hv
  checks hx := by
    rw [Log.checks_append, hchecks hx, Bool.false_or]
    rcases hx with rfl | ⟨rfl, rfl⟩
    · cases hnext
      exact h.checks (.inr ⟨rfl, rfl⟩)
    · cases hdue rfl
  through hsmooth _ := by
    have hlater : p.Smooth w' := by
      refine hsmooth.right (hready.symm.imp_right ?_)
      rintro rfl
      cases hnext
      exact h.checks (.inl rfl)
    rw [Log.last_append hw]
    exact h.through hlater (BridgeState.next_not_terminal hnext)

/-- What is written by the step that the pass ends with. -/
theorem Writes.walk (h : Writes due x w) : (∀ m ∈ w.walk x, m.1.Edge m.2) ∧
    (w.walk x).count (.active, .installing) ≤ if due then 1 else 0 := by
  rcases h with hw | ⟨y, hw, hedge, hdue⟩
  · simp [Log.walk, hw]
  · have hwalk : w.walk x = [(x, y)] := by simp [Log.walk, hw]
    rw [hwalk]
    refine ⟨by simpa using hedge, ?_⟩
    by_cases hx : x = .active
    · rw [hdue hx]
      exact List.count_le_length
    · simp [hx]

theorem loop_passed {fuel : Nat} (hdue : due = true → s.state = .active)
    (hfuel : s.state.steps due ≤ fuel) : (p.loop fuel due s).run.Yields (p.Passed due s.state) := by
  induction fuel generalizing due s with
  | zero =>
    exfalso
    revert hfuel
    unfold BridgeState.steps
    cases s.state <;> cases due <;> simp
  | succ fuel ih =>
    have hchecks : (p.step due s).run.Yields fun _ w =>
        s.state = .installed ∨ s.state = .active ∧ due = false → w.checks = false := by
      by_cases h : s.state = .installed ∨ s.state = .active ∧ due = false
      · exact (step_checks h).mono fun _ _ hw _ => hw
      · exact step_stepped.mono fun _ _ _ hw => absurd hw h
    unfold loop
    rw [Attempt.yields_bind]
    refine (step_stepped.and hchecks).mono fun r w hboth => ?_
    obtain ⟨hstepped, hquiet⟩ := hboth
    cases hstepped with
    | next s' w hwritten hnext hactive hready =>
      have hdone : (due && decide (s.state ≠ .active)) = false := by
        cases due with
        | false => rfl
        | true => simp [hdue rfl]
      have hless := BridgeState.steps_of_next hnext hactive
      show (p.loop fuel (due && decide (s.state ≠ .active)) s').run.Yields _
      rw [hdone]
      have hlater : (p.loop fuel false s').run.Yields (p.Passed false s'.state) :=
        ih (fun h => absurd h Bool.false_ne_true) (by omega)
      exact hlater.mono fun v w' h => h.cons hwritten hnext hactive hready hquiet
    | done a w hwrites hrests hwhy =>
      show p.Passed due s.state (.ok (some a)) (w ++ [])
      rw [List.append_nil]
      refine ⟨hwrites.walk.1, hwrites.walk.2, ?_, hquiet, fun hsmooth hx => ?_⟩
      · rintro o ho
        cases ho
        exact ⟨a, rfl, hrests⟩
      · rcases hwhy hsmooth with hterminal | ⟨hactive, hwritten, rfl⟩
        · rw [hx] at hterminal
          cases hterminal
        · refine ⟨rfl, ?_⟩
          rw [Log.last, hwritten]
          exact hactive
    | error e w hwrites hnot =>
      refine ⟨hwrites.walk.1, hwrites.walk.2, ?_, hquiet, fun hsmooth => absurd hsmooth hnot⟩
      rintro o ho
      cases ho

/-- Whether and how a pass starts over. -/
inductive Begun (p : BridgePass) : Except Error BridgeStatus → Log BridgeCall → Prop
  | same (h : ¬ p.Superseded) : Begun p (.ok p.bridge.statusOrInitial) []
  | reopened (s : BridgeStatus) (w : Log BridgeCall) (h : p.Superseded)
    (hw : w.written = [.requested]) (hchecks : w.checks = false) (hs : s.state = .requested) :
    Begun p (.ok s) w
  | error (e : Error) (w : Log BridgeCall) (h : p.Superseded) (hw : w.written = [.requested])
    (hnot : ¬ p.Smooth w) : Begun p (.error e) w

theorem yields_tearDown {b : Bridge} {ctx : BridgeContext} :
    (b.tearDown ctx).run.Yields fun _ w => w.written = [] ∧ w.checks = false := by
  unfold Bridge.tearDown
  rw [Attempt.yields_bind]
  cases b.applied.provider ctx with
  | error e => exact ⟨rfl, rfl⟩
  | ok former => exact fun _ => ⟨rfl, rfl⟩

theorem starting_begun : p.starting.run.Yields p.Begun := by
  unfold starting
  by_cases hc : (p.bridge.specChanged && p.bridge.statusOrInitial.state ≠ .requested
      && p.bridge.statusOrInitial.state ≠ .removed) = true
  · simp only [if_pos hc]
    simp only [ne_eq, Bool.and_eq_true, decide_eq_true_eq] at hc
    have hsuper : p.Superseded := ⟨hc.1.1, hc.1.2, hc.2⟩
    have hreopen : ∀ {w : Log BridgeCall}, w.written = [] → w.checks = false →
        (p.enter p.bridge.statusOrInitial .requested (some "spec changed")).run.Yields
          fun r w' => p.Begun r (w ++ w') := by
      intro w hw hchecks
      refine yields_enter (fun s' w' hs' hw' hchecks' => ?_) fun e w' hw' _ hsucceeds => ?_
      · exact .reopened s' _ hsuper (by simp [hw, hw']) (by simp [hchecks, hchecks']) hs'
      · exact .error e _ hsuper (by simp [hw, hw'])
          (not_smooth_of_succeeds (by simp [hsucceeds]))
    unfold restart
    split
    · show (_ >>= _ : BridgeWork BridgeStatus).run.Yields _
      rw [Attempt.yields_bind, Attempt.yields_outcome]
      refine yields_tearDown.mono fun r w ⟨hw, hchecks⟩ => ?_
      cases r with
      | ok u => exact hreopen hw hchecks
      | error e =>
        show (_ >>= _ : BridgeWork BridgeStatus).run.Yields _
        rw [Attempt.yields_bind]
        refine yields_publish fun w' hw' hchecks' => ?_
        simp only [Attempt.thenYields, ← List.append_assoc]
        exact hreopen (by simp [hw, hw']) (by simp [hchecks, hchecks'])
    · exact hreopen (w := []) rfl rfl
  · simp only [if_neg hc]
    refine .same fun hsuper => hc ?_
    simp [hsuper.changed, hsuper.state, hsuper.present]

/-- What a whole pass does, whatever it is answered. -/
structure Shape (p : BridgePass) (v : Except Error Action) (w : Log BridgeCall) : Prop where
  edges : ∀ m ∈ w.walk p.bridge.state, m.2 = .requested ∨ m.1.Edge m.2
  /-- Starting over comes first, and only after an edit. -/
  reopens : ∀ m ∈ (w.walk p.bridge.state).head?, m.2 = .requested →
    p.bridge.specChanged = true ∧ m.1 ≠ .requested ∧ m.1 ≠ .removed
  later : ∀ m ∈ (w.walk p.bridge.state).tail, m.2 ≠ .requested
  drifts : (w.walk p.bridge.state).count (.active, .installing) ≤ 1
  drifted : (.active, .installing) ∈ w.walk p.bridge.state →
    p.bridge.state = .active ∧ p.bridge.specChanged = false
  rests : ∀ a, v = .ok a → p.Rests a (w.last p.bridge.state)
  through : p.Smooth w → p.bridge.state ≠ .removed →
    (p.bridge.state = .error → p.bridge.specChanged = true) →
    v = .ok (.requeue p.context.config.bridgeInterval) ∧ w.last p.bridge.state = .active

theorem Passed.rests_ok {v : Except Error Action} (h : p.Passed due x (some <$> v) w) (a : Action)
    (hv : v = .ok a) : p.Rests a (w.last x) := by
  subst hv
  obtain ⟨b, hb, hrests⟩ := h.rests _ rfl
  cases hb
  exact hrests

theorem Passed.through_ok {v : Except Error Action} (h : p.Passed due x (some <$> v) w)
    (hsmooth : p.Smooth w) (hx : x.isTerminal = false) :
    v = .ok (.requeue p.context.config.bridgeInterval) ∧ w.last x = .active := by
  obtain ⟨hv, hlast⟩ := h.through hsmooth hx
  cases v with
  | error e => cases hv
  | ok a =>
    cases hv
    exact ⟨rfl, hlast⟩

theorem Passed.not_drifted {v : Except Error (Option Action)} (h : p.Passed false x v w) :
    (.active, .installing) ∉ w.walk x := by
  rw [← List.count_eq_zero]
  exact Nat.le_zero.mp h.drifts

/-- A pass that goes on from the stored status. -/
theorem Shape.same {v : Except Error Action} (h : ¬ p.Superseded)
    (hpassed : p.Passed (p.bridge.state = .active) p.bridge.state (some <$> v) w) :
    p.Shape v w where
  edges m hm := .inr (hpassed.edges m hm)
  reopens m hm hto := absurd hto (hpassed.edges m (List.mem_of_mem_head? hm)).ne_requested
  later m hm := (hpassed.edges m (List.mem_of_mem_tail hm)).ne_requested
  drifts := by
    have hcount := hpassed.drifts
    split at hcount <;> omega
  drifted hmem := by
    have hactive : p.bridge.state = .active := by
      refine Decidable.byContradiction fun hnot => ?_
      rw [decide_eq_false hnot] at hpassed
      exact hpassed.not_drifted hmem
    rw [← Bridge.state_statusOrInitial] at hactive ⊢
    refine ⟨hactive, Bool.eq_false_iff.mpr fun hchanged => h ⟨hchanged, ?_, ?_⟩⟩ <;>
      simp [hactive]
  rests := hpassed.rests_ok
  through hsmooth hremoved herror := by
    have hlive : p.bridge.state.isTerminal = false := by
      cases hstate : p.bridge.state with
      | removed => exact absurd hstate hremoved
      | error =>
        rw [← Bridge.state_statusOrInitial] at hstate herror
        exact absurd ⟨herror hstate, by simp [hstate], by simp [hstate]⟩ h
      | _ => rfl
    exact hpassed.through_ok hsmooth hlive

/-- A pass that starts over. -/
theorem Shape.reopened {v : Except Error Action} (h : p.Superseded) (hw : w.written = [.requested])
    (hedges : ∀ m ∈ w'.walk .requested, m.1.Edge m.2)
    (hdrift : (.active, .installing) ∉ w'.walk .requested)
    (hrests : ∀ a, v = .ok a → p.Rests a (w'.last .requested))
    (hthrough : p.Smooth (w ++ w') →
      v = .ok (.requeue p.context.config.bridgeInterval) ∧ w'.last .requested = .active) :
    p.Shape v (w ++ w') := by
  have hwalk : (w ++ w').walk p.bridge.state = (p.bridge.state, .requested) :: w'.walk .requested :=
    Log.walk_append hw
  have hlast : (w ++ w').last p.bridge.state = w'.last .requested := Log.last_append hw
  have hmem : (.active, .installing) ∉ (w ++ w').walk p.bridge.state := by
    rw [hwalk, List.mem_cons, not_or]
    exact ⟨by simp, hdrift⟩
  constructor
  case edges =>
    rw [hwalk]
    intro m hm
    rcases List.mem_cons.mp hm with rfl | hm
    · exact .inl rfl
    · exact .inr (hedges m hm)
  case reopens =>
    rw [hwalk]
    rintro m ⟨⟩ -
    rw [← Bridge.state_statusOrInitial]
    exact ⟨h.changed, h.state, h.present⟩
  case later =>
    rw [hwalk]
    exact fun m hm => (hedges m hm).ne_requested
  case drifts =>
    rw [List.count_eq_zero.mpr hmem]
    exact Nat.zero_le 1
  case drifted => exact fun hin => absurd hin hmem
  case rests =>
    rw [hlast]
    exact hrests
  case through =>
    rw [hlast]
    exact fun hsmooth _ _ => hthrough hsmooth

/-- Whatever it is answered, a pass has its shape. -/
theorem run_yields : p.run.run.Yields p.Shape := by
  have hloop : (some <$> p.run).run.Yields fun v w => ∀ v', v = some <$> v' → p.Shape v' w := by
    rw [← loop_starting 0, Attempt.yields_bind]
    refine starting_begun.mono fun r w hbegun => ?_
    cases hbegun with
    | same h =>
      have hpassed : (p.loop 4 (p.bridge.statusOrInitial.state = .active)
          p.bridge.statusOrInitial).run.Yields _ :=
        loop_passed (by simp) (BridgeState.steps_le _ _)
      refine hpassed.mono fun v w' hpassed v' hv => ?_
      subst hv
      rw [Bridge.state_statusOrInitial] at hpassed
      exact .same h hpassed
    | reopened s w h hw hchecks hs =>
      have hpassed : (p.loop 4 (s.state = .active) s).run.Yields _ :=
        loop_passed (by simp) (BridgeState.steps_le _ _)
      refine hpassed.mono fun v w' hpassed v' hv => ?_
      subst hv
      rw [hs] at hpassed
      refine .reopened h hw hpassed.edges hpassed.not_drifted hpassed.rests_ok fun hsmooth => ?_
      exact hpassed.through_ok (hsmooth.right (.inl (Log.not_saysReady hchecks))) rfl
    | error e w h hw hnot =>
      rintro v' hv
      have hv' : v' = .error e := by
        cases v' with
        | error e' =>
          cases hv
          rfl
        | ok a => cases hv
      subst hv'
      rw [← w.append_nil]
      refine .reopened h hw nofun nofun nofun fun hsmooth => absurd ?_ hnot
      rwa [List.append_nil] at hsmooth
  rw [Attempt.yields_map] at hloop
  exact hloop.mono fun r w h => h r rfl

/-- A pass comes to its end: after it has started over or not, four steps are enough, and it is
the time that ends a wait for readiness, not a number of checks. -/
structure Bounded (p : BridgePass) : Prop where
  steps : ∀ fuel, (do let s ← p.starting; p.loop (fuel + 4) (s.state = .active) s) = some <$> p.run
  checks : ∀ q message fuel,
    p.context.config.readinessTimeout / p.context.config.readinessPoll < fuel →
    pollFor (BridgeWork.checkReady q) BridgeWork.sleep p.context.config.readinessPoll
        (.timeout message) p.context.config.readinessTimeout fuel 0 =
      pollUntil (BridgeWork.checkReady q) BridgeWork.sleep p.context.config.readinessTimeout
        p.context.config.readinessPoll message

/-- Every pass comes to its end, and has its shape whatever it is answered. -/
theorem run_shape (p : BridgePass) (hpoll : 0 < p.context.config.readinessPoll) :
    p.Bounded ∧ p.run.run.Yields p.Shape := by
  refine ⟨⟨loop_starting, fun q message fuel hfuel => pollFor_eq hpoll hfuel ?_⟩, run_yields⟩
  rw [checkBound, if_neg (Nat.pos_iff_ne_zero.mp hpoll)]
  exact Nat.lt_succ_self _

theorem run_shape_shop : 0 < Sample.context.config.readinessPoll ∧
    (ofBridge Sample.context Sample.first).Bounded ∧
    (ofBridge Sample.context Sample.first).run.run.Yields
      (ofBridge Sample.context Sample.first).Shape :=
  ⟨by decide, run_shape (ofBridge Sample.context Sample.first) (by decide)⟩

end BridgePass
end BridgeOperator
