import BridgeOperator.Program

/-!
Three ways to speak about a program without running it. `Prog.Keeps` says that whatever the calls
are answered, a program does nothing but what a protocol allows; `Prog.Yields` says the same of
its value and the log of its calls as a whole; `Prog.Exec` relates the states before and after an
execution against an outside whose answers are not determined. All of them go through `bind`, and
through the failing programs built on it.
-/

namespace BridgeOperator

variable {C : Type} [Calls C] {Φ σ α β : Type}

/-- What may happen in a phase: a call, its answer, and the phase after it. -/
abbrev Protocol (C : Type) [Calls C] (Φ : Type) : Type := Φ → (c : C) → Answer c → Φ → Prop

/-- The calls of an execution and what they were answered, the first one first. -/
abbrev Log (C : Type) [Calls C] : Type := List (Σ c : C, Answer c)

namespace Prog

instance : LawfulMonad (Prog C) := LawfulMonad.mk' (Prog C)
  (fun p => by
    induction p with
    | done a => rfl
    | call c next ih => exact congrArg (call c) (funext ih))
  (fun _ _ => rfl)
  (fun p f g => by
    induction p with
    | done a => rfl
    | call c next ih => exact congrArg (call c) (funext ih))

/-- Whatever is answered, the program has its place in the protocol, and it ends with a value and
in a phase that satisfy `Q`. -/
def Keeps (does : Protocol C Φ) : Prog C α → Φ → (α → Φ → Prop) → Prop
  | done a, φ, Q => Q a φ
  | call c next, φ, Q => ∀ r, ∃ φ', does φ c r φ' ∧ (next r).Keeps does φ' Q

variable {does : Protocol C Φ} {φ : Φ}

theorem Keeps.mono {p : Prog C α} {Q Q' : α → Φ → Prop} (h : p.Keeps does φ Q)
    (hQ : ∀ a φ', Q a φ' → Q' a φ') : p.Keeps does φ Q' := by
  induction p generalizing φ with
  | done a => exact hQ a φ h
  | call c next ih =>
    intro r
    obtain ⟨φ', hd, hn⟩ := h r
    exact ⟨φ', hd, ih r hn⟩

/-- A protocol may be replaced by one that allows more. -/
theorem Keeps.weaken {does' : Protocol C Φ} {p : Prog C α} {Q : α → Φ → Prop}
    (h : p.Keeps does φ Q) (hdoes : ∀ {φ c r φ'}, does φ c r φ' → does' φ c r φ') :
    p.Keeps does' φ Q := by
  induction p generalizing φ with
  | done a => exact h
  | call c next ih =>
    intro r
    obtain ⟨φ', hd, hn⟩ := h r
    exact ⟨φ', hdoes hd, ih r hn⟩

theorem keeps_bind (p : Prog C α) (f : α → Prog C β) (Q : β → Φ → Prop) :
    (p >>= f).Keeps does φ Q ↔ p.Keeps does φ (fun a φ' => (f a).Keeps does φ' Q) := by
  induction p generalizing φ with
  | done a => exact Iff.rfl
  | call c next ih =>
    show (∀ r, ∃ φ', does φ c r φ' ∧ (next r >>= f).Keeps does φ' Q) ↔ _
    simp only [Keeps, ih]

/-- Programs that go on in the same way from whatever they may come to are the same. -/
theorem Keeps.bind_congr {p : Prog C α} {f g : α → Prog C β}
    (h : p.Keeps does φ fun a _ => f a = g a) : p >>= f = p >>= g := by
  induction p generalizing φ with
  | done a => exact h
  | call c next ih =>
    refine congrArg (call c) (funext fun r => ?_)
    obtain ⟨φ', -, hnext⟩ := h r
    exact ih r hnext

/-- Whatever is answered, the value of the program and the log of its calls satisfy `Q`. -/
def Yields : Prog C α → (α → Log C → Prop) → Prop
  | done a, Q => Q a []
  | call c next, Q => ∀ r, (next r).Yields fun a w => Q a (⟨c, r⟩ :: w)

theorem Yields.mono {p : Prog C α} {Q Q' : α → Log C → Prop} (h : p.Yields Q)
    (hQ : ∀ a w, Q a w → Q' a w) : p.Yields Q' := by
  induction p generalizing Q Q' with
  | done a => exact hQ a [] h
  | call c next ih => exact fun r => ih r (h r) fun a w => hQ a _

theorem Yields.and {p : Prog C α} {Q Q' : α → Log C → Prop} (h : p.Yields Q) (h' : p.Yields Q') :
    p.Yields fun a w => Q a w ∧ Q' a w := by
  induction p generalizing Q Q' with
  | done a => exact ⟨h, h'⟩
  | call c next ih => exact fun r => ih r (h r) (h' r)

theorem yields_bind (p : Prog C α) (f : α → Prog C β) (Q : β → Log C → Prop) :
    (p >>= f).Yields Q ↔ p.Yields fun a w => (f a).Yields fun b w' => Q b (w ++ w') := by
  induction p generalizing Q with
  | done a => exact Iff.rfl
  | call c next ih => exact forall_congr' fun r => ih r _

/-- The program can come to this value with this log. -/
inductive Ends : Prog C α → α → Log C → Prop where
  | done (a : α) : Ends (done a) a []
  | call {c : C} {next : Answer c → Prog C α} {r : Answer c} {a : α} {w : Log C} :
      Ends (next r) a w → Ends (call c next) a (⟨c, r⟩ :: w)

theorem yields_ends (p : Prog C α) : p.Yields p.Ends := by
  induction p with
  | done a => exact .done a
  | call c next ih => exact fun r => (ih r).mono fun a w h => .call h

/-- What may be asked and answered from the one phase to the other, call by call. -/
inductive Path (does : Protocol C Φ) : Φ → Log C → Φ → Prop where
  | nil (φ : Φ) : Path does φ [] φ
  | cons {φ φ' φ'' : Φ} {c : C} {r : Answer c} {w : Log C} :
      does φ c r φ' → Path does φ' w φ'' → Path does φ (⟨c, r⟩ :: w) φ''

/-- The log of a program that has its place in a protocol is a path in it. -/
theorem Keeps.yields {p : Prog C α} {Q : α → Φ → Prop} (h : p.Keeps does φ Q) :
    p.Yields fun a w => ∃ φ', Path does φ w φ' ∧ Q a φ' := by
  induction p generalizing φ with
  | done a => exact ⟨φ, .nil φ, h⟩
  | call c next ih =>
    intro r
    obtain ⟨φ', hd, hn⟩ := h r
    exact (ih r hn).mono fun a w ⟨φ'', hpath, hQ⟩ => ⟨φ'', .cons hd hpath, hQ⟩

/-- Whatever answer is chosen for every call, there is a run with these answers. -/
theorem Yields.answered {p : Prog C α} {Q : α → Log C → Prop} (h : p.Yields Q)
    (answer : (c : C) → Answer c) : ∃ a w, Q a w ∧ ∀ e ∈ w, e.2 = answer e.1 := by
  induction p generalizing Q with
  | done a => exact ⟨a, [], h, nofun⟩
  | call c next ih =>
    obtain ⟨a, w, hQ, hw⟩ := ih _ (h (answer c))
    exact ⟨a, _, hQ, List.forall_mem_cons.mpr ⟨rfl, hw⟩⟩

/-- An execution in which `serves c s r s'` holds of every call: asked `c` in state `s`, the
outside answers `r` and goes over to `s'`. -/
inductive Exec (serves : (c : C) → σ → Answer c → σ → Prop) : Prog C α → σ → α → σ → Prop where
  | done (a : α) (s : σ) : Exec serves (done a) s a s
  | call {c : C} {next : Answer c → Prog C α} {s s' s'' : σ} {r : Answer c} {a : α} :
      serves c s r s' → Exec serves (next r) s' a s'' → Exec serves (call c next) s a s''

variable {serves : (c : C) → σ → Answer c → σ → Prop}

theorem exec_pure {a b : α} {s s' : σ} :
    (pure a : Prog C α).Exec serves s b s' ↔ b = a ∧ s' = s := by
  constructor
  · intro h
    cases h with
    | done => exact ⟨rfl, rfl⟩
  · rintro ⟨rfl, rfl⟩
    exact .done _ _

theorem exec_perform {c : C} {s s' : σ} {r : Answer c} :
    (perform c).Exec serves s r s' ↔ serves c s r s' := by
  constructor
  · intro h
    cases h with
    | call hserve hnext =>
      cases hnext with
      | done => exact hserve
  · exact fun h => .call h (.done _ _)

theorem exec_bind {p : Prog C α} {f : α → Prog C β} {s s'' : σ} {b : β} :
    (p >>= f).Exec serves s b s'' ↔
      ∃ a s', p.Exec serves s a s' ∧ (f a).Exec serves s' b s'' := by
  constructor
  · intro h
    induction p generalizing s with
    | done a => exact ⟨a, s, .done a s, h⟩
    | call c next ih =>
      change (call c fun r => next r >>= f).Exec serves s b s'' at h
      cases h with
      | call hserve hnext =>
        obtain ⟨a, s', hp, hf⟩ := ih _ hnext
        exact ⟨a, s', .call hserve hp, hf⟩
  · rintro ⟨a, s', hp, hf⟩
    induction hp with
    | done => exact hf
    | call hserve _ ih => exact .call hserve (ih hf)

theorem Exec.next {c : C} {next : Answer c → Prog C α} {p : Prog C α} {s s' s'' : σ} {a : α}
    (hp : p = Prog.call c next) {r : Answer c} (hserve : serves c s r s')
    (h : (next r).Exec serves s' a s'') : p.Exec serves s a s'' := by
  rw [hp]
  exact .call hserve h

/-- A property of states that every allowed call keeps holds after the execution. -/
theorem Exec.invariant {does : Protocol C Φ} {p : Prog C α} {Q : α → Φ → Prop} {I : σ → Prop}
    (hI : ∀ {φ φ' c r s s'}, does φ c r φ' → serves c s r s' → I s → I s')
    (hp : p.Keeps does φ Q) {s s' : σ} {a : α} (h : p.Exec serves s a s') (hs : I s) : I s' := by
  induction h generalizing φ with
  | done => exact hs
  | @call c next s s' s'' r a hserve _ ih =>
    obtain ⟨φ', hd, hn⟩ := hp r
    exact ih hn (hI hd hserve hs)

theorem Exec.preserves {p : Prog C α} {I : σ → Prop}
    (hI : ∀ {c r s s'}, serves c s r s' → I s → I s') {s s' : σ} {a : α}
    (h : p.Exec serves s a s') (hs : I s) : I s' := by
  induction h with
  | done => exact hs
  | call hserve _ ih => exact ih (hI hserve hs)

/-- A run on a state that answers every call is the only execution there is. -/
theorem exec_run {answer : (c : C) → σ → Answer c × σ} {p : Prog C α} {s s' : σ} {a : α} :
    p.Exec (fun c s r s' => answer c s = (r, s')) s a s' ↔ p.run answer s = (a, s') := by
  constructor
  · intro h
    induction h with
    | done => rfl
    | call hserve _ ih =>
      rw [run, hserve]
      exact ih
  · intro h
    induction p generalizing s with
    | done b =>
      cases h
      exact .done _ _
    | call c next ih => exact .call rfl (ih _ h)

/-- The first part of an execution: the program, and what is left to do of it. -/
inductive Steps (serves : (c : C) → σ → Answer c → σ → Prop) :
    Prog C α → σ → Prog C α → σ → Prop where
  | refl (p : Prog C α) (s : σ) : Steps serves p s p s
  | call {c : C} {next : Answer c → Prog C α} {s s' s'' : σ} {r : Answer c} {p : Prog C α} :
      serves c s r s' → Steps serves (next r) s' p s'' → Steps serves (call c next) s p s''

theorem Steps.trans {p p' p'' : Prog C α} {s s' s'' : σ} (h : p.Steps serves s p' s')
    (h' : p'.Steps serves s' p'' s'') : p.Steps serves s p'' s'' := by
  induction h with
  | refl => exact h'
  | call hserve _ ih => exact .call hserve (ih h')

theorem Steps.bind {p p' : Prog C α} {s s' : σ} (h : p.Steps serves s p' s')
    (f : α → Prog C β) : (p >>= f).Steps serves s (p' >>= f) s' := by
  induction h with
  | refl => exact .refl _ _
  | call hserve _ ih => exact .call hserve ih

/-- A program that is done with its first part is left with the rest. -/
theorem Exec.steps {p : Prog C α} {s s' : σ} {a : α} (h : p.Exec serves s a s') :
    p.Steps serves s (pure a) s' := by
  induction h with
  | done => exact .refl _ _
  | call hserve _ ih => exact .call hserve ih

theorem Steps.next {c : C} {next : Answer c → Prog C α} {p q : Prog C α} {s s' s'' : σ}
    (hp : p = Prog.call c next) {r : Answer c} (hserve : serves c s r s')
    (h : (next r).Steps serves s' q s'') : p.Steps serves s q s'' := by
  rw [hp]
  exact .call hserve h

/-- What every allowed call keeps of a phase and a state holds wherever the program has come. -/
theorem Steps.invariant {does : Protocol C Φ} {p q : Prog C α} {Q : α → Φ → Prop}
    {I : Φ → σ → Prop}
    (hI : ∀ {φ φ' c r s s'}, does φ c r φ' → serves c s r s' → I φ s → I φ' s')
    {φ : Φ} (hp : p.Keeps does φ Q) {s s' : σ} (h : p.Steps serves s q s') (hs : I φ s) :
    ∃ φ', q.Keeps does φ' Q ∧ I φ' s' := by
  induction h generalizing φ with
  | refl => exact ⟨φ, hp, hs⟩
  | @call c next s s' s'' r p hserve _ ih =>
    obtain ⟨φ', hd, hn⟩ := hp r
    exact ih hn (hI hd hserve hs)

/-- Carry out each call by a program of other calls. -/
def through {D : Type} [Calls D] (f : (c : C) → Prog D (Answer c)) : Prog C α → Prog D α
  | done a => done a
  | call c next => (f c).bind fun r => (next r).through f

theorem run_bind (answer : (c : C) → σ → Answer c × σ) (p : Prog C α) (f : α → Prog C β) (s : σ) :
    (p.bind f).run answer s = (f (p.run answer s).1).run answer (p.run answer s).2 := by
  induction p generalizing s with
  | done a => rfl
  | call c next ih => exact ih _ _

end Prog

namespace Attempt

/-- Whatever becomes of the attempt is gone on with. -/
theorem run_outcome_bind (x : Attempt C α) (f : Except Error α → Attempt C β) :
    (x.outcome >>= f).run = x.run >>= fun v => (f v).run := by
  have hrun : (x.outcome >>= f).run =
      (x.run >>= fun v => pure (.ok v)) >>= fun v => ExceptT.bindCont f v := rfl
  rw [hrun, bind_assoc]
  rfl

/-- What is left to show of an attempt that goes on with `f`: an error ends it. -/
def andThen (does : Protocol C Φ) (f : α → Attempt C β) (Q : Except Error β → Φ → Prop) :
    Except Error α → Φ → Prop
  | .ok a, φ => (f a).run.Keeps does φ Q
  | .error e, φ => Q (.error e) φ

variable {does : Protocol C Φ} {φ : Φ}

theorem keeps_bind (x : Attempt C α) (f : α → Attempt C β) (Q : Except Error β → Φ → Prop) :
    (x >>= f).run.Keeps does φ Q ↔ x.run.Keeps does φ (andThen does f Q) := by
  have hrun : (x >>= f).run = x.run >>= fun r => ExceptT.bindCont f r := rfl
  rw [hrun, Prog.keeps_bind]
  have hpoint : ∀ r φ', (ExceptT.bindCont f r : Prog C (Except Error β)).Keeps does φ' Q ↔
      andThen does f Q r φ' := by
    intro r φ'
    cases r <;> exact Iff.rfl
  constructor <;> intro h <;> exact h.mono fun r φ' => (by simpa only [hpoint] using id)

theorem keeps_always (p : Prog C α) (Q : Except Error α → Φ → Prop) :
    (always p).run.Keeps does φ Q ↔ p.Keeps does φ (fun a => Q (.ok a)) :=
  Prog.keeps_bind p _ Q

theorem keeps_outcome (x : Attempt C α) (Q : Except Error (Except Error α) → Φ → Prop) :
    x.outcome.run.Keeps does φ Q ↔ x.run.Keeps does φ (fun r => Q (.ok r)) :=
  Prog.keeps_bind x.run _ Q

theorem bind_congr {x : Attempt C α} {f g : α → Attempt C β}
    (h : x.run.Keeps does φ fun r _ => ∀ a, r = .ok a → f a = g a) : x >>= f = x >>= g := by
  refine Prog.Keeps.bind_congr (h.mono fun r _ hr => ?_)
  cases r with
  | error e => rfl
  | ok a => exact hr a rfl

/-- What is left to show of the log of an attempt that goes on with `f`: an error ends it. -/
def thenYields (f : α → Attempt C β) (Q : Except Error β → Log C → Prop) :
    Except Error α → Log C → Prop
  | .ok a, w => (f a).run.Yields fun v w' => Q v (w ++ w')
  | .error e, w => Q (.error e) w

theorem yields_bind (x : Attempt C α) (f : α → Attempt C β) (Q : Except Error β → Log C → Prop) :
    (x >>= f).run.Yields Q ↔ x.run.Yields (thenYields f Q) := by
  have hrun : (x >>= f).run = x.run >>= fun r => ExceptT.bindCont f r := rfl
  rw [hrun, Prog.yields_bind]
  have hpoint : ∀ r w, ((ExceptT.bindCont f r : Prog C (Except Error β)).Yields
      fun v w' => Q v (w ++ w')) ↔ thenYields f Q r w := by
    intro r w
    cases r with
    | ok a => exact Iff.rfl
    | error e =>
      show Q (.error e) (w ++ []) ↔ _
      rw [List.append_nil]
      rfl
  constructor <;> intro h <;> exact h.mono fun r w => (by simpa only [hpoint] using id)

theorem yields_map (x : Attempt C α) (f : α → β) (Q : Except Error β → Log C → Prop) :
    (f <$> x).run.Yields Q ↔ x.run.Yields fun r => Q (f <$> r) := by
  rw [map_eq_pure_bind, yields_bind]
  have hpoint : ∀ r w, thenYields (fun a => (pure (f a) : Attempt C β)) Q r w ↔ Q (f <$> r) w := by
    intro r w
    cases r with
    | ok a =>
      show Q (.ok (f a)) (w ++ []) ↔ _
      rw [List.append_nil]
      rfl
    | error e => exact Iff.rfl
  constructor <;> intro h <;> exact h.mono fun r w => (by simpa only [hpoint] using id)

theorem yields_outcome (x : Attempt C α) (Q : Except Error (Except Error α) → Log C → Prop) :
    x.outcome.run.Yields Q ↔ x.run.Yields fun r => Q (.ok r) := by
  have hrun : x.outcome.run = x.run >>= fun r => pure (.ok r) := rfl
  rw [hrun, Prog.yields_bind]
  have hpoint : ∀ r w, (pure (.ok r) : Prog C (Except Error (Except Error α))).Yields
      (fun v w' => Q v (w ++ w')) ↔ Q (.ok r) w := by
    intro r w
    show Q (.ok r) (w ++ []) ↔ _
    rw [List.append_nil]
  constructor <;> intro h <;> exact h.mono fun r w => (by simpa only [hpoint] using id)

section

variable {serves : (c : C) → σ → Answer c → σ → Prop} {s s' s'' : σ}

theorem exec_bind {x : Attempt C α} {f : α → Attempt C β} {r : Except Error β} :
    (x >>= f).run.Exec serves s r s'' ↔
      (∃ a s', x.run.Exec serves s (.ok a) s' ∧ (f a).run.Exec serves s' r s'') ∨
        ∃ e, x.run.Exec serves s (.error e) s'' ∧ r = .error e := by
  have hrun : (x >>= f).run = x.run >>= fun v => ExceptT.bindCont f v := rfl
  rw [hrun, Prog.exec_bind]
  constructor
  · rintro ⟨a | e, s', hx, hf⟩
    · obtain ⟨rfl, rfl⟩ := Prog.exec_pure.mp hf
      exact .inr ⟨_, hx, rfl⟩
    · exact .inl ⟨_, s', hx, hf⟩
  · rintro (⟨a, s', hx, hf⟩ | ⟨e, hx, rfl⟩)
    · exact ⟨.ok a, s', hx, hf⟩
    · exact ⟨.error e, s'', hx, .done _ _⟩

/-- An attempt that ends well has gone well from part to part. -/
theorem exec_bind_ok {x : Attempt C α} {f : α → Attempt C β} {b : β} :
    (x >>= f).run.Exec serves s (.ok b) s'' ↔
      ∃ a s', x.run.Exec serves s (.ok a) s' ∧ (f a).run.Exec serves s' (.ok b) s'' := by
  rw [exec_bind]
  constructor
  · rintro (h | ⟨e, -, he⟩)
    · exact h
    · cases he
  · exact .inl

theorem exec_ok {x : Attempt C α} {f : α → Attempt C β} {a : α} {r : Except Error β}
    (hx : x.run.Exec serves s (.ok a) s') (hf : (f a).run.Exec serves s' r s'') :
    (x >>= f).run.Exec serves s r s'' :=
  exec_bind.mpr (.inl ⟨a, s', hx, hf⟩)

theorem steps_ok {x : Attempt C α} {f : α → Attempt C β} {a : α} {q : Prog C (Except Error β)}
    (hx : x.run.Exec serves s (.ok a) s') (hf : (f a).run.Steps serves s' q s'') :
    (x >>= f).run.Steps serves s q s'' :=
  (hx.steps.bind _).trans hf

theorem exec_pure {a : α} {r : Except Error α} :
    (pure a : Attempt C α).run.Exec serves s r s' ↔ r = .ok a ∧ s' = s := Prog.exec_pure

theorem exec_lift {v r : Except Error α} :
    (liftM v : Attempt C α).run.Exec serves s r s' ↔ r = v ∧ s' = s := Prog.exec_pure

theorem exec_always {p : Prog C α} {r : Except Error α} :
    (always p).run.Exec serves s r s' ↔ ∃ a, p.Exec serves s a s' ∧ r = .ok a := by
  have hrun : (always p).run = p >>= fun a => pure (.ok a) := rfl
  rw [hrun, Prog.exec_bind]
  constructor
  · rintro ⟨a, _, hp, hr⟩
    obtain ⟨rfl, rfl⟩ := Prog.exec_pure.mp hr
    exact ⟨a, hp, rfl⟩
  · rintro ⟨a, hp, rfl⟩
    exact ⟨a, s', hp, .done _ _⟩

/-- What cannot fail is gone through before the rest. -/
theorem exec_always_bind {p : Prog C α} {f : α → Attempt C β} {r : Except Error β} :
    (always p >>= f).run.Exec serves s r s'' ↔
      ∃ a s', p.Exec serves s a s' ∧ (f a).run.Exec serves s' r s'' := by
  rw [exec_bind]
  constructor
  · rintro (⟨a, s', hp, hf⟩ | ⟨e, hp, -⟩)
    · obtain ⟨_, hp, ha⟩ := exec_always.mp hp
      cases ha
      exact ⟨a, s', hp, hf⟩
    · obtain ⟨_, -, he⟩ := exec_always.mp hp
      cases he
  · rintro ⟨a, s', hp, hf⟩
    exact .inl ⟨a, s', exec_always.mpr ⟨a, hp, rfl⟩, hf⟩

theorem exec_outcome {x : Attempt C α} {r : Except Error (Except Error α)} :
    x.outcome.run.Exec serves s r s' ↔ ∃ v, x.run.Exec serves s v s' ∧ r = .ok v := exec_always

theorem exec_outcome_bind {x : Attempt C α} {f : Except Error α → Attempt C β}
    {r : Except Error β} :
    (x.outcome >>= f).run.Exec serves s r s'' ↔
      ∃ v s', x.run.Exec serves s v s' ∧ (f v).run.Exec serves s' r s'' := exec_always_bind

end

end Attempt
end BridgeOperator
