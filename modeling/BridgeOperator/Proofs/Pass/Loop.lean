import BridgeOperator.Proofs.Pass.Conformance

/-!
A pass as a loop that takes one step at a time from the status the last one has left. The loop
needs no more than four steps after it has decided whether to start over (`loop_starting`), and
waiting for readiness no more checks than there are intervals in its time (`pollFor_eq`).
-/

namespace BridgeOperator

section

variable {C : Type} [Calls C] {check : Nat → Prog C (Timed (Except Error Bool))}
  {sleep : Nat → Prog C Unit} {interval timeout : Nat} {expired : Error}

/-- With an interval the time runs out before the checks do. -/
theorem pollFor_eq (hinterval : 0 < interval) {fuel fuel' elapsed : Nat}
    (hfuel : (timeout - elapsed) / interval < fuel)
    (hfuel' : (timeout - elapsed) / interval < fuel') :
    pollFor check sleep interval expired timeout fuel elapsed =
      pollFor check sleep interval expired timeout fuel' elapsed := by
  induction fuel generalizing fuel' elapsed with
  | zero => cases hfuel
  | succ fuel ih =>
    cases fuel' with
    | zero => cases hfuel'
    | succ fuel' =>
      have hagain : ∀ took, pollAgain sleep interval expired timeout
            (pollFor check sleep interval expired timeout fuel) (elapsed + took) =
          pollAgain sleep interval expired timeout
            (pollFor check sleep interval expired timeout fuel') (elapsed + took) := by
        intro took
        unfold pollAgain
        split
        · rfl
        · next resumed hresumed =>
          split
          · next hle =>
            obtain rfl := Duration.eq_of_add? hresumed
            have hless : (timeout - (elapsed + took + interval)) / interval + 1 ≤
                (timeout - elapsed) / interval := by
              rw [← Nat.add_div_right _ hinterval]
              exact Nat.div_le_div_right (by omega)
            have hsame : pollFor check sleep interval expired timeout fuel
                  (elapsed + took + interval) =
                pollFor check sleep interval expired timeout fuel' (elapsed + took + interval) :=
              ih (by omega) (by omega)
            rw [hsame]
          · rfl
      unfold pollFor
      simp only [hagain]

end

namespace BridgePass

variable (p : BridgePass)

/-- INSTALLED: the traffic is bridged from now on, and the pass goes on from there. -/
def activating (s : BridgeStatus) : BridgeWork Step := do
  let s ← p.enter s .active none
  p.bridge.tell Reason.activated
    s!"Traffic for container {p.bridge.spec.targetContainer} of {p.bridge.spec.target} is bridged"
  return .next s

/-- ACTIVE: look whether the installation is still in place. -/
def watching (s : BridgeStatus) : BridgeWork Step := do
  let provider ← p.bridge.provider p.context
  let check := withDeadline (BridgeWork.checkReady provider) p.context.config.readinessTimeout
    s!"{provider.provider.kind.name} provider drift check did not answer"
  match ← (Attempt.ofProg check).outcome with
  | .ok false =>
    p.bridge.warn Reason.driftDetected "Installation drifted, reinstalling"
    let s ← p.enter s .installing (some "reinstalling after drift")
    return .next s
  | _ => return .done (.requeue p.context.config.bridgeInterval)

/-- One step, by the recorded state. Only a pass that is `due` to looks after an ACTIVE bridge. -/
def step (due : Bool) (s : BridgeStatus) : BridgeWork Step :=
  match s.state with
  | .requested => p.requested s
  | .installing => p.installing s
  | .installed => p.activating s
  | .active =>
    if due then p.watching s else pure (.done (.requeue p.context.config.bridgeInterval))
  | .error | .removed => pure (.done .awaitChange)

/-- Step after step until one says that the pass is over; `none` if `fuel` many are not enough. An
ACTIVE bridge is looked after once. -/
def loop : Nat → Bool → BridgeStatus → BridgeWork (Option Action)
  | 0, _, _ => pure none
  | fuel + 1, due, s => do
    match ← p.step due s with
    | .done a => return some a
    | .next s' => loop fuel (due && s.state ≠ .active) s'

variable {p} {s : BridgeStatus} {due : Bool}

theorem loop_active (fuel : Nat) (hs : s.state = .active) :
    p.loop (fuel + 1) false s = pure (some (.requeue p.context.config.bridgeInterval)) := by
  simp [loop, step, hs]

/-- What is stored on entering a state has that state. -/
theorem enter_bind {β : Type} {state : BridgeState} {message : Option String}
    {f g : BridgeStatus → BridgeWork β} (h : ∀ s', s'.state = state → f s' = g s') :
    p.enter s state message >>= f = p.enter s state message >>= g := by
  unfold enter
  simp only [bind_assoc, pure_bind]
  refine congrArg _ (funext fun now => ?_)
  rw [h _ rfl]

theorem loop_installed (fuel : Nat) (hs : s.state = .installed) :
    p.loop (fuel + 2) false s = some <$> p.installed s := by
  rw [loop, step, hs]
  simp only [activating, installed, bind_assoc, pure_bind, map_bind, map_pure, Bool.false_and]
  refine enter_bind fun s' hs' => ?_
  simp only [loop_active fuel hs']

theorem loop_installing (fuel : Nat) (hs : s.state = .installing) :
    p.loop (fuel + 3) false s = some <$> p.fromInstalling s := by
  rw [loop, step, hs, fromInstalling, map_bind]
  have hleads := keeps_installing (p := p) (t := none) hs
  refine Attempt.bind_congr (hleads.mono fun r m hr a ha => ?_)
  subst ha
  cases a with
  | done a => exact (map_pure _ _).symm
  | next s' => exact loop_installed fuel hr.2

theorem loop_requested (fuel : Nat) (hs : s.state = .requested) :
    p.loop (fuel + 4) false s = some <$> (p.requested s >>= fun
      | .done a => pure a
      | .next s' => p.fromInstalling s') := by
  rw [loop, step, hs, map_bind]
  have hleads := keeps_requested (p := p) (t := none) hs
  refine Attempt.bind_congr (hleads.mono fun r m hr a ha => ?_)
  subst ha
  cases a with
  | done a => exact (map_pure _ _).symm
  | next s' => exact loop_installing fuel hr.2

theorem loop_watching (fuel : Nat) (hs : s.state = .active) :
    p.loop (fuel + 4) true s = some <$> p.active s := by
  rw [loop, step, hs]
  simp only [if_true, watching, active, bind_assoc, map_bind]
  refine congrArg _ (funext fun provider => congrArg _ (funext fun r => ?_))
  rcases r with e | _ | _
  · simp
  · simp only [bind_assoc, pure_bind, map_bind]
    refine congrArg _ (funext fun _ => enter_bind fun s' hs' => ?_)
    exact loop_installing fuel hs'
  · simp

/-- A pass starts over at most once and then takes at most four steps. -/
theorem loop_starting (fuel : Nat) :
    (do let s ← p.starting; p.loop (fuel + 4) (s.state = .active) s) = some <$> p.run := by
  rw [run, map_bind]
  refine congrArg _ (funext fun s => ?_)
  cases hs : s.state with
  | requested => exact loop_requested fuel hs
  | installing => exact loop_installing (fuel + 1) hs
  | installed => exact loop_installed (fuel + 2) hs
  | active => exact loop_watching fuel hs
  | error => simp [loop, step, hs]
  | removed => simp [loop, step, hs]

end BridgePass
end BridgeOperator
