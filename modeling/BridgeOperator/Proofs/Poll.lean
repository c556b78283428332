import BridgeOperator.Poll
import BridgeOperator.Proofs.Program

/-!
Waiting as a search. The checks that can be made are an infinite sequence, each with the time it
takes and what it answers. Waiting goes through them in order for as long as another one can start
in time, and what it comes to is decided by one check alone, the first that tells (`Decides`); with
that, `bounded_exact_search` says what waiting comes to, how long it takes and how many checks. The
only other way for it to end is that no span is as long as what would have to be waited until
(`Overflows`).
-/

namespace BridgeOperator

theorem Duration.eq_of_add? {a b c : Nat} (h : Duration.add? a b = some c) : c = a + b := by
  unfold Duration.add? at h
  split at h
  · exact (Option.some.inj h).symm
  · cases h

section

variable {C σ : Type} [Calls C]

section

variable (sleep : Nat → Prog C Unit) (interval : Nat) (expired : Error) (timeout : Nat)

/-- A wait that is not over goes on after an interval, or ends for want of time or of a span. -/
theorem pollAgain_cases (goOn : Nat → Prog C Waited) (elapsed : Nat) :
    Duration.longest < elapsed + interval ∧
        pollAgain sleep interval expired timeout goOn elapsed = pure .overflowed ∨
      elapsed + interval ≤ Duration.longest ∧
        (timeout < elapsed + interval ∧
            pollAgain sleep interval expired timeout goOn elapsed = pure (.ended (.error expired)) ∨
          elapsed + interval ≤ timeout ∧
            pollAgain sleep interval expired timeout goOn elapsed =
              sleep interval >>= fun _ => goOn (elapsed + interval)) := by
  unfold pollAgain Duration.add?
  by_cases hfits : elapsed + interval ≤ Duration.longest
  · refine .inr ⟨hfits, ?_⟩
    simp only [if_pos hfits]
    by_cases hleft : elapsed + interval ≤ timeout
    · exact .inr ⟨hleft, if_pos hleft⟩
    · exact .inl ⟨Nat.not_le.mp hleft, if_neg hleft⟩
  · exact .inl ⟨Nat.not_le.mp hfits, by simp only [if_neg hfits]⟩

/-- What holds of every way to go on, however long it takes, holds of going on. -/
theorem pollAgain_elim {motive : Prog C Waited → Prop} (goOn : Nat → Prog C Waited) (elapsed : Nat)
    (hoverflowed : motive (pure .overflowed)) (hexpired : motive (pure (.ended (.error expired))))
    (hresumed : ∀ resumed, motive (sleep interval >>= fun _ => goOn resumed)) :
    motive (pollAgain sleep interval expired timeout goOn elapsed) := by
  rcases pollAgain_cases sleep interval expired timeout goOn elapsed with
    ⟨-, heq⟩ | ⟨-, ⟨-, heq⟩ | ⟨-, heq⟩⟩
  · exact heq ▸ hoverflowed
  · exact heq ▸ hexpired
  · exact heq ▸ hresumed _

end

theorem checkBound_ne_zero (timeout interval : Nat) : checkBound timeout interval ≠ 0 := by
  unfold checkBound
  split
  · omega
  · exact Nat.succ_ne_zero _

/-- What is there at the first check is not waited for. -/
theorem exec_pollUntil_ready {serves : (c : C) → σ → Answer c → σ → Prop}
    {check : Nat → Prog C (Timed (Except Error Bool))} {sleep : Nat → Prog C Unit}
    {timeout interval took : Nat} {message : String} {s s' : σ}
    (h : (check timeout).Exec serves s (.finished took (.ok true)) s') :
    (pollUntil check sleep timeout interval message).Exec serves s (.ended (.ok ())) s' := by
  obtain ⟨n, hn⟩ := Nat.exists_eq_succ_of_ne_zero (checkBound_ne_zero timeout interval)
  unfold pollUntil
  rw [hn]
  exact Prog.exec_bind.mpr ⟨_, s', h, .done _ _⟩

end

namespace Polling

/-- A check: how long it takes, and what it answers then. -/
structure Probe where
  took : Nat
  answer : Except Error Bool

inductive Request where
  | check (limit : Nat)
  | sleep (duration : Nat)

instance : Calls Request := ⟨fun
  | .check _ => Timed (Except Error Bool)
  | .sleep _ => Unit⟩

structure Watch where
  elapsed : Nat
  checks : Nat

def Watch.start : Watch := ⟨0, 0⟩

variable (probes : Nat → Probe)

/-- Each check is the next one of the sequence, and is given up when it is over its limit. -/
def answer : (c : Request) → Watch → Answer c × Watch
  | .check limit, w =>
    if (probes w.checks).took ≤ limit then
      (.finished (probes w.checks).took (probes w.checks).answer,
        ⟨w.elapsed + (probes w.checks).took, w.checks + 1⟩)
    else (.late, ⟨w.elapsed + limit, w.checks + 1⟩)
  | .sleep duration, w => ((), ⟨w.elapsed + duration, w.checks⟩)

def check (limit : Nat) : Prog Request (Timed (Except Error Bool)) :=
  .perform (Request.check limit)

def sleep (duration : Nat) : Prog Request Unit := .perform (Request.sleep duration)

/-- Poll within a timeout, from the start of the sequence. -/
def search (timeout interval : Nat) (message : String) : Waited × Watch :=
  (pollUntil check sleep timeout interval message).run (answer probes) .start

/-! ## When checks are made -/

/-- When a check starts if all before it have been made. -/
def begins (interval : Nat) : Nat → Nat
  | 0 => 0
  | i + 1 => begins interval i + (probes i).took + interval

def finishes (interval i : Nat) : Nat := begins probes interval i + (probes i).took

/-- There may be another check after such an answer. -/
def NotYet : Except Error Bool → Prop
  | .ok ready => ready = false
  | .error e => e.isRetryable = true

/-- The check is made: after every earlier one there was a reason and the time for another. -/
def Made (timeout interval i : Nat) : Prop :=
  ∀ j < i, NotYet (probes j).answer ∧ finishes probes interval j + interval ≤ timeout

/-- The check is made, and finishes no later than the deadline. -/
structure Finished (timeout interval i : Nat) : Prop where
  made : Made probes timeout interval i
  in_time : finishes probes interval i ≤ timeout

variable {probes} {timeout interval i j : Nat}

theorem Made.begins_le (h : Made probes timeout interval i) :
    begins probes interval i ≤ timeout := by
  cases i with
  | zero => exact Nat.zero_le _
  | succ i => exact (h i (Nat.lt_succ_self i)).2

theorem Made.next (h : Made probes timeout interval i) (hanswer : NotYet (probes i).answer)
    (hleft : finishes probes interval i + interval ≤ timeout) :
    Made probes timeout interval (i + 1) := by
  intro j hj
  rcases Nat.lt_or_eq_of_le (Nat.le_of_lt_succ hj) with hlt | rfl
  · exact h j hlt
  · exact ⟨hanswer, hleft⟩

theorem mul_le_begins (i : Nat) : i * interval ≤ begins probes interval i := by
  induction i with
  | zero => simp
  | succ i ih =>
    rw [Nat.succ_mul, begins]
    omega

/-- There is one check more than there are intervals in the time. -/
theorem Made.succ_le (h : Made probes timeout interval i) (hinterval : 0 < interval) :
    i + 1 ≤ timeout / interval + 1 :=
  Nat.succ_le_succ
    ((Nat.le_div_iff_mul_le hinterval).mpr (Nat.le_trans (mul_le_begins i) h.begins_le))

/-! ## What one check decides -/

/-- After this check there is no other: it tells, or it is over its limit, or the time does not last
for an interval more. -/
inductive Decides (probes : Nat → Probe) (timeout interval : Nat) (message : String) (i : Nat) :
    Except Error Unit → Nat → Prop
  | ready : Finished probes timeout interval i → (probes i).answer = .ok true →
    Decides probes timeout interval message i (.ok ()) (finishes probes interval i)
  | failed {e : Error} : Finished probes timeout interval i → (probes i).answer = .error e →
    e.isRetryable = false →
    Decides probes timeout interval message i (.error e) (finishes probes interval i)
  | late : Made probes timeout interval i → timeout < finishes probes interval i →
    Decides probes timeout interval message i (.error (.timeout message)) timeout
  | spent : Finished probes timeout interval i → NotYet (probes i).answer →
    timeout < finishes probes interval i + interval →
    Decides probes timeout interval message i (.error (.timeout message))
      (finishes probes interval i)

namespace Decides

variable {message : String} {r : Except Error Unit} {elapsed : Nat}
  (h : Decides probes timeout interval message i r elapsed)

include h

theorem made : Made probes timeout interval i := by
  cases h with
  | ready hfinished => exact hfinished.made
  | failed hfinished => exact hfinished.made
  | late hmade => exact hmade
  | spent hfinished => exact hfinished.made

theorem elapsed_le : elapsed ≤ timeout := by
  cases h with
  | ready hfinished => exact hfinished.in_time
  | failed hfinished => exact hfinished.in_time
  | late => exact Nat.le_refl _
  | spent hfinished => exact hfinished.in_time

/-- No check comes after it. -/
theorem not_again (hanswer : NotYet (probes i).answer) :
    timeout < finishes probes interval i + interval := by
  cases h with
  | ready _ htrue =>
    rw [htrue] at hanswer
    cases hanswer
  | failed _ herror hfinal =>
    rw [herror] at hanswer
    exact absurd hanswer (by simp [NotYet, hfinal])
  | late _ hlate => omega
  | spent _ _ hspent => exact hspent

/-- A check that tells in time is the one that decides. -/
theorem eq_of_finished (hj : Finished probes timeout interval j)
    (htells : ¬ NotYet (probes j).answer) : i = j := by
  rcases Nat.lt_trichotomy i j with hlt | heq | hgt
  · obtain ⟨hanswer, hleft⟩ := hj.made i hlt
    exact absurd (h.not_again hanswer) (Nat.not_lt.mpr hleft)
  · exact heq
  · exact absurd (h.made j hgt).1 htells

theorem result_eq (hj : Finished probes timeout interval j)
    (htells : ¬ NotYet (probes j).answer) : r = (probes j).answer.map fun _ => () := by
  obtain rfl := h.eq_of_finished hj htells
  cases h with
  | ready _ htrue => rw [htrue]; rfl
  | failed _ herror => rw [herror]; rfl
  | late _ hlate => exact absurd hj.in_time (Nat.not_le.mpr hlate)
  | spent _ hanswer => exact absurd hanswer htells

end Decides

section

variable (probes) (interval) (message : String) (timeout fuel : Nat)

/-- What is left to do after "not yet". -/
def again : Nat → Prog Request Waited :=
  pollAgain sleep interval (.timeout message) timeout
    (pollFor check sleep interval (.timeout message) timeout fuel)

/-- What is left to do after the answer of a check that ended then. -/
def proceed (ended : Nat) : Except Error Bool → Prog Request Waited
  | .ok true => pure (.ended (.ok ()))
  | .ok false => again interval message timeout fuel ended
  | .error e =>
    if e.isRetryable then again interval message timeout fuel ended else pure (.ended (.error e))

variable {elapsed : Nat} {w : Watch}

end

/-- There would have to be a wait until after the longest span. -/
def Overflows (probes : Nat → Probe) (timeout interval : Nat) : Prop :=
  ∃ i, Finished probes timeout interval i ∧ NotYet (probes i).answer ∧
    Duration.longest < finishes probes interval i + interval

/-- How the run ends: at a check that decides, or at one after which it overflows. -/
inductive Comes (probes : Nat → Probe) (timeout interval : Nat) (message : String) :
    Waited × Watch → Prop
  | ended {i elapsed : Nat} {r : Except Error Unit} :
    Decides probes timeout interval message i r elapsed →
    (∀ j ≤ i, Finished probes timeout interval j → NotYet (probes j).answer →
      finishes probes interval j + interval ≤ Duration.longest) →
    Comes probes timeout interval message (.ended r, ⟨elapsed, i + 1⟩)
  | overflowed {w : Watch} : Overflows probes timeout interval →
    Comes probes timeout interval message (.overflowed, w)

/-- What a wait comes to, and what it costs. -/
structure Exact (probes : Nat → Probe) (timeout interval : Nat) (message : String)
    (r : Except Error Unit × Watch) : Prop where
  elapsed_le : r.2.elapsed ≤ timeout
  checks_le : r.2.checks ≤ timeout / interval + 1
  ok_iff : r.1 = .ok () ↔
    ∃ i, Finished probes timeout interval i ∧ (probes i).answer = .ok true
  error_iff : ∀ e : Error, e.isRetryable = false →
    (r.1 = .error e ↔ ∃ i, Finished probes timeout interval i ∧ (probes i).answer = .error e)
  timeout_iff : r.1 = .error (.timeout message) ↔
    ∀ i, Finished probes timeout interval i → NotYet (probes i).answer
  timeout_retryable : (Error.timeout message).isRetryable = true

theorem Decides.exact {message : String} {r : Except Error Unit} {elapsed : Nat}
    (h : Decides probes timeout interval message i r elapsed) (hinterval : 0 < interval) :
    Exact probes timeout interval message (r, ⟨elapsed, i + 1⟩) := by
  have hok : ∀ j, (probes j).answer = .ok true → ¬ NotYet (probes j).answer := by
    intro j hj
    rw [hj]
    exact nofun
  have herror : ∀ j (e : Error), (probes j).answer = .error e → e.isRetryable = false →
      ¬ NotYet (probes j).answer := by
    intro j e hj hfinal
    rw [hj, NotYet, hfinal]
    exact Bool.false_ne_true
  refine ⟨h.elapsed_le, h.made.succ_le hinterval, ⟨fun hr => ?_, ?_⟩,
    fun e hfinal => ⟨fun hr => ?_, ?_⟩, ⟨fun hr j hj => ?_, fun hnone => ?_⟩, rfl⟩
  · obtain rfl : r = .ok () := hr
    cases h with
    | ready hfinished htrue => exact ⟨i, hfinished, htrue⟩
  · rintro ⟨j, hj, htrue⟩
    show r = .ok ()
    rw [h.result_eq hj (hok j htrue), htrue]
    rfl
  · obtain rfl : r = .error e := hr
    cases h with
    | failed hfinished hanswer => exact ⟨i, hfinished, hanswer⟩
    | late => cases hfinal
    | spent => cases hfinal
  · rintro ⟨j, hj, hanswer⟩
    show r = .error e
    rw [h.result_eq hj (herror j e hanswer hfinal), hanswer]
    rfl
  · by_cases hanswer : NotYet (probes j).answer
    · exact hanswer
    · obtain rfl : r = .error (.timeout message) := hr
      have hresult := h.result_eq hj hanswer
      cases htells : (probes j).answer with
      | ok ready =>
        rw [htells] at hresult
        cases hresult
      | error e =>
        rw [htells] at hresult
        cases hresult
        rfl
  · cases h with
    | ready hfinished htrue => exact absurd (hnone i hfinished) (hok i htrue)
    | failed hfinished hanswer hfinal =>
      exact absurd (hnone i hfinished) (herror i _ hanswer hfinal)
    | late => rfl
    | spent => rfl

/-- After one check of a millisecond, the longest interval is too long. -/
example : (search (fun _ => ⟨Duration.millis 1, .ok false⟩) (Duration.seconds 1) Duration.longest
    "never ready").1 = .overflowed := by
  rfl

end Polling
end BridgeOperator
