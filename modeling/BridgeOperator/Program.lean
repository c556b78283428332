import BridgeOperator.Error

/-!
Programs that ask the outside for something and go on with the answer. A program is data: what it
does depends on nothing but the answers it gets, and every run of it ends.
-/

namespace BridgeOperator

/-- A kind of calls, and what each of them answers. -/
class Calls (C : Type) where
  Answer : C → Type

export Calls (Answer)

inductive Prog (C : Type) [Calls C] (α : Type) where
  | done (a : α)
  | call (c : C) (next : Answer c → Prog C α)

namespace Prog

variable {C : Type} [Calls C] {α β σ : Type}

def bind : Prog C α → (α → Prog C β) → Prog C β
  | done a, f => f a
  | call c next, f => call c fun r => (next r).bind f

instance : Monad (Prog C) where
  pure := done
  bind := bind

/-- Make one call and return its answer. -/
def perform (c : C) : Prog C (Answer c) := call c done

/-- Run a program on a state, answering each call from the state. -/
def run (answer : (c : C) → σ → Answer c × σ) : Prog C α → σ → α × σ
  | done a, s => (a, s)
  | call c next, s =>
    let (r, s) := answer c s
    (next r).run answer s

/-- Run a program on a state with a clock. The program is given up as soon as a call ends after
the deadline, and the clock then shows the deadline. -/
def runUntil (answer : (c : C) → σ → Answer c × σ) (clock : σ → Nat) (setClock : Nat → σ → σ)
    (deadline : Nat) : Prog C α → σ → Option α × σ
  | done a, s => (some a, s)
  | call c next, s =>
    let (r, s) := answer c s
    if clock s ≤ deadline then (next r).runUntil answer clock setClock deadline s
    else (none, setClock deadline s)

end Prog

/-- A program that may fail. -/
abbrev Attempt (C : Type) [Calls C] (α : Type) : Type := ExceptT Error (Prog C) α

namespace Attempt

variable {C : Type} [Calls C] {α : Type}

/-- Go on with a program whose answer may be an error. -/
def ofProg (p : Prog C (Except Error α)) : Attempt C α := ExceptT.mk p

/-- Go on with an answer that cannot be an error. -/
def always (p : Prog C α) : Attempt C α := ExceptT.lift p

/-- What became of an attempt. -/
def outcome (p : Attempt C α) : Attempt C (Except Error α) := ExceptT.lift p.run

end Attempt

/-- The answer of something that was given a limited time. -/
inductive Timed (α : Type) where
  | late
  | finished (elapsed : Nat) (value : α)
  deriving Repr

end BridgeOperator
