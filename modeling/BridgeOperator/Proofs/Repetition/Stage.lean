import BridgeOperator.Bridge.Pass
import BridgeOperator.Proofs.Poll
import BridgeOperator.Proofs.Status.Patch
import BridgeOperator.Proofs.World.Basic

/-!
A stage on which passes are repeated. Providers do their work on something that answers them, and a
readiness check takes a time that depends on nothing else. Every status that is to be stored is put
down, whatever becomes of it. For a provider that only looks when it is asked whether it is ready,
waiting for readiness comes to the same however often it is tried (`Surroundings.awaited_eq`).
-/

namespace BridgeOperator

variable {W α : Type}

/-- What providers work on: how it answers them, and how long their readiness checks take. -/
structure Surroundings (W : Type) where
  answer : (c : TargetCall) → W → Answer c × W
  delay : BoundProvider → W → Nat

/-- The stored bridges, what providers work on, and every status that was to be stored, the latest
first. -/
structure Stage (W : Type) where
  store : Address → Option Bridge
  rest : W
  written : List BridgeStatus

namespace Stage

/-- Change what is stored at an address, if something is. -/
def modify (s : Stage W) (a : Address) (f : Bridge → Option Bridge) : Stage W :=
  { s with store := Function.update s.store a ((s.store a).bind f) }

/-- A bridge after its status has been patched, where what the new status leaves out stays. -/
def merged (st : BridgeStatus) (b : Bridge) : Option Bridge :=
  some { b with status := some (st.onto b.statusOrInitial) }

def put (s : Stage W) (st : BridgeStatus) : Stage W := { s with written := st :: s.written }

theorem store_modify {s : Stage W} {a : Address} {f : Bridge → Option Bridge} :
    (s.modify a f).store a = (s.store a).bind f := Function.update_self ..

end Stage

namespace Surroundings

variable (E : Surroundings W)

/-- What some work comes to, and what it leaves. -/
def after (work : Work α) (w : W) : Except Error α × W := work.run.run E.answer w

/-- A provider does its work, and nothing else changes. -/
def Employs (work : Work α) (s : Stage W) (r : Except Error α) (s' : Stage W) : Prop :=
  r = (E.after work s.rest).1 ∧ s' = { s with rest := (E.after work s.rest).2 }

/-- A readiness check with a time limit: it ends in time, or it is given up somewhere. -/
def Checks (q : BoundProvider) (limit : Nat) (s : Stage W) (r : Timed (Except Error Bool))
    (s' : Stage W) : Prop :=
  if E.delay q s.rest ≤ limit then
    ∃ v, E.Employs (q.provider.ready q.binding) s v s' ∧ r = .finished (E.delay q s.rest) v
  else r = .late ∧ ∃ p w, (q.provider.ready q.binding).run.Steps
    (fun c w r w' => E.answer c w = (r, w')) s.rest p w ∧ s' = { s with rest := w }

/-- How a pass is answered. A status is stored whole or as a merge patch, and what else is stored is
not determined. -/
def Serves : (c : BridgeCall) → Stage W → Answer c → Stage W → Prop
  | .patchStatus ns name st, s, r, s' => ∃ f, (f = World.patched st ∨ f = Stage.merged st) ∧
    Settles ((s.put st).modify ⟨ns, name⟩ f) (s.put st) r s'
  | .addFinalizer ns name, s, r, s' => Settles (s.modify ⟨ns, name⟩ World.claimed) s r s'
  | .removeFinalizer ns name, s, r, s' => Settles (s.modify ⟨ns, name⟩ World.released) s r s'
  | .validate q x peers, s, r, s' => E.Employs (q.provider.validate q.binding x peers) s r s'
  | .install q, s, r, s' => E.Employs (q.provider.install q.binding) s r s'
  | .ready q limit, s, r, s' => E.Checks q limit s r s'
  | .uninstall q, s, r, s' => E.Employs (q.provider.uninstall q.binding) s r s'
  | .now, s, _, s' | .sleep _, s, _, s' | .publish _, s, _, s' | .listBridges, s, _, s' => s' = s

/-- Asked whether it is ready the provider only looks, and an install that is run again on what it
has left changes nothing and comes to the same. -/
structure Steady (q : BoundProvider) : Prop where
  ready : (q.provider.ready q.binding).run.Keeps (fun _ c _ _ => ∀ w, (E.answer c w).2 = w) ()
    fun _ _ => True
  install : ∀ w, E.after (q.provider.install q.binding)
    (E.after (q.provider.install q.binding) w).2 = E.after (q.provider.install q.binding) w

/-- The answer to a readiness check. -/
def check (q : BoundProvider) (limit : Nat) (w : W) : Timed (Except Error Bool) :=
  if E.delay q w ≤ limit then
    .finished (E.delay q w) (E.after (q.provider.ready q.binding) w).1
  else .late

variable {E} {q : BoundProvider} {s s' t t' : Stage W}

/-- Every call has some answer. -/
theorem serves_total (c : BridgeCall) (s : Stage W) : ∃ r s', E.Serves c s r s' := by
  cases c with
  | now => exact ⟨(⟨0, 0⟩ : Instant), s, rfl⟩
  | sleep d => exact ⟨(), s, rfl⟩
  | publish n => exact ⟨(), s, rfl⟩
  | listBridges => exact ⟨.ok [], s, rfl⟩
  | patchStatus ns name st => exact ⟨.ok (), _, _, .inl rfl, .inl rfl⟩
  | addFinalizer ns name => exact ⟨.ok (), _, .inl rfl⟩
  | removeFinalizer ns name => exact ⟨.ok (), _, .inl rfl⟩
  | validate q x peers => exact ⟨_, _, rfl, rfl⟩
  | install q => exact ⟨_, _, rfl, rfl⟩
  | uninstall q => exact ⟨_, _, rfl, rfl⟩
  | ready q limit =>
    by_cases hdelay : E.delay q s.rest ≤ limit
    · exact ⟨_, _, (if_pos hdelay).mpr ⟨_, ⟨rfl, rfl⟩, rfl⟩⟩
    · exact ⟨.late, s, (if_neg hdelay).mpr ⟨rfl, _, _, .refl _ _, rfl⟩⟩

/-- So every program has some execution. -/
theorem exists_exec {β : Type} (p : Prog BridgeCall β) (s : Stage W) :
    ∃ a s', p.Exec E.Serves s a s' := by
  induction p generalizing s with
  | done a => exact ⟨a, s, .done a s⟩
  | call c next ih =>
    obtain ⟨r, s₁, hserve⟩ := serves_total (E := E) c s
    obtain ⟨a, s', hnext⟩ := ih r s₁
    exact ⟨a, s', .call hserve hnext⟩

/-- What was put down stays. -/
theorem Serves.written {c : BridgeCall} {r : Answer c} (h : E.Serves c s r s') :
    s.written.length ≤ s'.written.length := by
  cases c with
  | patchStatus ns name st =>
    obtain ⟨f, -, h⟩ := h
    exact h.elim (Nat.le_succ _) (Nat.le_succ _)
  | addFinalizer => exact Settles.elim h (Nat.le_refl _) (Nat.le_refl _)
  | removeFinalizer => exact Settles.elim h (Nat.le_refl _) (Nat.le_refl _)
  | validate => exact Nat.le_of_eq (congrArg (·.written.length) h.2).symm
  | install => exact Nat.le_of_eq (congrArg (·.written.length) h.2).symm
  | uninstall => exact Nat.le_of_eq (congrArg (·.written.length) h.2).symm
  | ready q limit =>
    change E.Checks q limit s r s' at h
    unfold Checks at h
    split at h
    · obtain ⟨v, ⟨-, rfl⟩, -⟩ := h
      exact Nat.le_refl _
    · obtain ⟨-, p, w, -, rfl⟩ := h
      exact Nat.le_refl _
  | _ =>
    obtain rfl : s' = s := h
    exact Nat.le_refl _

theorem exec_written {β : Type} {p : Prog BridgeCall β} {a : β} (h : p.Exec E.Serves s a s') :
    s.written.length ≤ s'.written.length :=
  h.preserves (I := fun s' => s.written.length ≤ s'.written.length)
    (fun hserve hs => Nat.le_trans hs hserve.written) (Nat.le_refl _)

/-- A provider that only looks is given up where it was, or ends there. -/
theorem Steady.steps (h : E.Steady q) {p : Prog TargetCall (Except Error Bool)} {w w' : W}
    (hsteps : (q.provider.ready q.binding).run.Steps (fun c w r w' => E.answer c w = (r, w'))
      w p w') : w' = w := by
  refine (hsteps.invariant (I := fun _ w' => w' = w) ?_ h.ready rfl).choose_spec.2
  intro φ φ' c r s s' hlooks hanswer hs
  have hsame := hlooks s
  rw [hanswer] at hsame
  exact hsame.trans hs

theorem Steady.after_ready (h : E.Steady q) (w : W) :
    (E.after (q.provider.ready q.binding) w).2 = w :=
  h.steps (Prog.exec_run.mpr rfl).steps

/-- The answer to a readiness check depends on nothing but what the provider works on. -/
theorem Steady.checks_iff (h : E.Steady q) {limit : Nat} {r : Timed (Except Error Bool)} :
    E.Checks q limit s r s' ↔ r = E.check q limit s.rest ∧ s' = s := by
  unfold Checks check Employs
  rw [h.after_ready]
  split
  · constructor
    · rintro ⟨v, ⟨rfl, rfl⟩, rfl⟩
      exact ⟨rfl, rfl⟩
    · rintro ⟨rfl, rfl⟩
      exact ⟨_, ⟨rfl, rfl⟩, rfl⟩
  · constructor
    · rintro ⟨rfl, p, w, hsteps, rfl⟩
      rw [h.steps hsteps]
      exact ⟨rfl, rfl⟩
    · rintro ⟨rfl, rfl⟩
      exact ⟨rfl, _, _, .refl _ _, rfl⟩

end Surroundings

/-- The call is one of waiting for the provider. -/
def BridgeCall.Awaits (q : BoundProvider) : BridgeCall → Prop
  | ready q' _ => q' = q
  | sleep _ => True
  | _ => False

namespace Surroundings

variable {E : Surroundings W} {q : BoundProvider} {s s' t t' : Stage W} {β : Type}

/-- Waiting comes to the same wherever providers find the same. -/
theorem Steady.exec_eq (h : E.Steady q) {p : Prog BridgeCall β} {a a' : β} {Q : β → Unit → Prop}
    (hp : p.Keeps (fun _ c _ _ => c.Awaits q) () Q) (hexec : p.Exec E.Serves s a s')
    (hexec' : p.Exec E.Serves t a' t') (ht : t.rest = s.rest) : a' = a ∧ s' = s ∧ t' = t := by
  induction hexec generalizing t with
  | done =>
    cases hexec'
    exact ⟨rfl, rfl, rfl⟩
  | @call c next s s₁ s' r a hserve _ ih =>
    cases hexec' with
    | @call _ _ _ t₁ _ r' _ hserve' hnext' =>
      have hsame : r' = r ∧ s₁ = s ∧ t₁ = t := by
        obtain ⟨_, hawaits, -⟩ := hp r
        cases c with
        | ready q' limit =>
          obtain rfl : q' = q := hawaits
          obtain ⟨rfl, rfl⟩ := h.checks_iff.mp hserve
          obtain ⟨rfl, rfl⟩ := h.checks_iff.mp hserve'
          exact ⟨by rw [ht], rfl, rfl⟩
        | sleep d => exact ⟨rfl, hserve, hserve'⟩
        | _ => exact hawaits.elim
      obtain ⟨rfl, rfl, rfl⟩ := hsame
      obtain ⟨_, -, hkeeps⟩ := hp r'
      exact ih hkeeps hnext' ht

section

variable {interval timeout fuel elapsed : Nat} {expired : Error}

theorem awaits_pollFor :
    (pollFor (BridgeWork.checkReady q) BridgeWork.sleep interval expired timeout fuel
      elapsed).Keeps (fun _ c _ _ => c.Awaits q) () fun _ _ => True := by
  induction fuel generalizing elapsed with
  | zero => exact trivial
  | succ fuel ih =>
    have hagain : ∀ ended, (pollAgain BridgeWork.sleep interval expired timeout
        (pollFor (BridgeWork.checkReady q) BridgeWork.sleep interval expired timeout fuel)
        ended).Keeps (fun _ c _ _ => c.Awaits q) () fun _ _ => True := by
      intro ended
      exact pollAgain_elim (motive := fun again => again.Keeps _ _ _) _ _ _ _ _ _ trivial trivial
        fun resumed r => ⟨(), trivial, ih⟩
    intro r
    refine ⟨(), rfl, ?_⟩
    rcases r with _ | ⟨took, e | _ | _⟩
    · exact trivial
    · show Prog.Keeps _ (if e.isRetryable then _ else _) _ _
      split
      · exact hagain _
      · exact trivial
    · exact hagain _
    · exact trivial

theorem awaits_awaitReady {p : BridgePass} :
    (p.awaitReady q).run.Keeps (fun _ c _ _ => c.Awaits q) () fun _ _ => True :=
  (Prog.keeps_bind _ _ _).mpr awaits_pollFor

/-- Waiting only ends well if the provider says that it is ready. -/
theorem Steady.ready_of_pollFor (h : E.Steady q)
    (hexec : (pollFor (BridgeWork.checkReady q) BridgeWork.sleep interval expired timeout fuel
      elapsed).Exec E.Serves s (.ended (.ok ())) s') :
    (E.after (q.provider.ready q.binding) s.rest).1 = .ok true := by
  induction fuel generalizing elapsed s with
  | zero => cases hexec
  | succ fuel ih =>
    have hagain : ∀ {ended}, (pollAgain BridgeWork.sleep interval expired timeout
        (pollFor (BridgeWork.checkReady q) BridgeWork.sleep interval expired timeout fuel)
        ended).Exec E.Serves s (.ended (.ok ())) s' →
          (E.after (q.provider.ready q.binding) s.rest).1 = .ok true := by
      intro ended
      refine pollAgain_elim (motive := fun again => again.Exec _ _ _ _ → _) _ _ _ _ _ _
        (fun h => ?_) (fun h => ?_) fun resumed h => ?_
      · cases (Prog.exec_pure.mp h).1
      · cases (Prog.exec_pure.mp h).1
      · obtain ⟨u, s₁, hsleep, hrest⟩ := Prog.exec_bind.mp h
        obtain rfl : s₁ = s := Prog.exec_perform.mp hsleep
        exact ih hrest
    obtain ⟨r, s₁, hcheck, hrest⟩ := Prog.exec_bind.mp hexec
    obtain ⟨hr, rfl⟩ := h.checks_iff.mp (Prog.exec_perform.mp hcheck)
    unfold check at hr
    rcases r with _ | ⟨took, e | _ | _⟩
    · cases (Prog.exec_pure.mp hrest).1
    · change Prog.Exec E.Serves (if e.isRetryable then _ else _) _ _ _ at hrest
      split at hrest
      · exact hagain hrest
      · cases (Prog.exec_pure.mp hrest).1
    · exact hagain hrest
    · split at hr
      · exact (Timed.finished.inj hr).2.symm
      · cases hr

theorem Steady.ready_of_awaitReady {p : BridgePass} (h : E.Steady q)
    (hexec : (p.awaitReady q).run.Exec E.Serves s (.ok (.ok ())) s') :
    (E.after (q.provider.ready q.binding) s.rest).1 = .ok true := by
  obtain ⟨waited, s₁, hpoll, hresult⟩ := Prog.exec_bind.mp hexec
  rcases waited with (e | u) | _
  · cases (Prog.exec_pure.mp hresult).1
  · exact h.ready_of_pollFor hpoll
  · cases (Prog.exec_pure.mp hresult).1

end

end Surroundings
end BridgeOperator
