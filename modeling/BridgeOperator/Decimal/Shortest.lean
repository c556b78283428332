/-!
The fewest decimal digits that read back as a given binary64 value, and of those the nearest ones.
Everything is exact arithmetic on natural numbers.
-/

namespace BridgeOperator.Decimal

/-- A finite binary64 value split into sign, mantissa and power of two. -/
structure Binary where
  negative : Bool
  mantissa : Nat
  exponent : Int
  /-- The spacing below the value is half the spacing above it. -/
  narrowBelow : Bool
  deriving DecidableEq

/-- The leading bit of a normal mantissa, which is not stored. -/
def hiddenBit : Nat := 4503599627370496

def Binary.ofFloat (x : Float) : Binary :=
  let bits := x.toBits.toNat
  let biased : Nat := (bits >>> 52) % 2048
  let low : Nat := bits % hiddenBit
  let negative := decide (bits >>> 63 = 1)
  if biased = 0 then ⟨negative, low, -1074, false⟩
  else ⟨negative, hiddenBit + low, (biased : Int) - 1075, decide (low = 0 ∧ 1 < biased)⟩

/-- The value `digits * 10 ^ exponent`. -/
structure Digits where
  digits : Nat
  exponent : Int
  deriving DecidableEq, Repr

def pow (base : Nat) (e : Int) : Nat := Nat.pow base e.toNat

/-- Compare `a * 2 ^ p` with `c * 10 ^ k`. -/
def compareScaled (a : Nat) (p : Int) (c : Nat) (k : Int) : Ordering :=
  compare (a * pow 2 p * pow 10 (-k)) (c * pow 10 k * pow 2 (-p))

/-- Does the decimal `d` round to the value? The ends of the interval count when the mantissa is
even. -/
def Binary.readsBack (b : Binary) (d : Digits) : Bool :=
  let low := 4 * b.mantissa - (if b.narrowBelow then 1 else 2)
  let high := 4 * b.mantissa + 2
  let even := b.mantissa % 2 = 0
  let below := compareScaled low (b.exponent - 2) d.digits d.exponent
  let above := compareScaled high (b.exponent - 2) d.digits d.exponent
  (below == .lt || (below == .eq && even)) && (above == .gt || (above == .eq && even))

/-- The largest `c` with `c * 10 ^ k` at most the value. -/
def Binary.floorAt (b : Binary) (k : Int) : Nat :=
  (b.mantissa * pow 2 b.exponent * pow 10 (-k)) / (pow 2 (-b.exponent) * pow 10 k)

/-- Is `c * 10 ^ k` at least as near to the value as `(c + 1) * 10 ^ k`? A tie goes to the even
digit. -/
def Binary.lowerIsNearer (b : Binary) (c : Nat) (k : Int) : Bool :=
  match compareScaled (2 * b.mantissa) b.exponent (2 * c + 1) k with
  | .lt => true
  | .eq => c % 2 = 0
  | .gt => false

def Binary.onGrid (b : Binary) (k : Int) : Option Digits :=
  let c := b.floorAt k
  let low : Digits := ⟨c, k⟩
  let high : Digits := ⟨c + 1, k⟩
  match b.readsBack low, b.readsBack high with
  | true, true => some (if b.lowerIsNearer c k then low else high)
  | true, false => some low
  | false, true => some high
  | false, false => none

/-- The power of ten of the leading digit, found among `top, top - 1, …`. -/
def Binary.leading (b : Binary) : Nat → Int → Int
  | 0, top => top
  | fuel + 1, top =>
    if compareScaled b.mantissa b.exponent 1 top == .lt then b.leading fuel (top - 1) else top

/-- Grids of 1, 2, … digits are tried in turn. -/
def Binary.search (b : Binary) (lead : Int) : Nat → Nat → Digits
  | 0, n => ⟨b.floorAt (lead - n), lead - n⟩
  | fuel + 1, n =>
    match b.onGrid (lead - n) with
    | some d => d
    | none => b.search lead fuel (n + 1)

def stripZeros : Nat → Nat → Int → Digits
  | 0, c, k => ⟨c, k⟩
  | fuel + 1, c, k => if c % 10 = 0 ∧ c ≠ 0 then stripZeros fuel (c / 10) (k + 1) else ⟨c, k⟩

/-- The digits of a value that is not zero; `⟨0, 0⟩` for zero. -/
def Binary.shortest (b : Binary) : Digits :=
  if b.mantissa = 0 then ⟨0, 0⟩
  else
    let d := b.search (b.leading 640 309) 17 0
    stripZeros 20 d.digits d.exponent

/-- Plain notation is used while the decimal point falls within 16 digits to the right of the first
digit, or at most four zeros to the left of it; otherwise one digit, a point and an exponent. -/
def layout (d : Digits) : String :=
  let ds := toString d.digits
  let point : Int := d.exponent + ds.length
  let zeros (n : Int) : String := String.ofList (List.replicate n.toNat '0')
  if 0 ≤ d.exponent ∧ point ≤ 16 then ds ++ zeros d.exponent ++ ".0"
  else if 0 < point ∧ point ≤ 16 then
    String.ofList (ds.toList.take point.toNat) ++ "." ++ String.ofList (ds.toList.drop point.toNat)
  else if -5 < point ∧ point ≤ 0 then "0." ++ zeros (-point) ++ ds
  else
    let tail := ds.toList.drop 1
    let head := String.ofList (ds.toList.take 1)
    let fraction := if tail.isEmpty then "" else "." ++ String.ofList tail
    let sign := if 0 < point then "+" else ""
    head ++ fraction ++ "e" ++ sign ++ toString (point - 1)

/-- A finite value as text: the sign, also of zero, then its shortest digits. -/
def render (x : Float) : String :=
  let b := Binary.ofFloat x
  (if b.negative then "-" else "") ++
    (if b.mantissa = 0 then "0.0" else layout b.shortest)

end BridgeOperator.Decimal
