/-!
Spans of time, in nanoseconds.
-/

namespace BridgeOperator.Duration

def millis (n : Nat) : Nat := n * 1000000

def seconds (n : Nat) : Nat := n * 1000000000

/-- The longest span: as many whole seconds as 64 bits can count, and a fraction of another. -/
def longest : Nat := seconds UInt64.size - 1

/-- The sum of two spans, if there is a span as long as that. -/
def add? (a b : Nat) : Option Nat := if a + b ≤ longest then some (a + b) else none

end BridgeOperator.Duration
