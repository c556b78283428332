import BridgeOperator.Json.Basic

/-!
The tokens of a JSON text, read one character at a time.
-/

namespace BridgeOperator.Json

inductive Token where
  | openObj | closeObj | openArr | closeArr | comma | colon
  | scalar (j : Json)
  deriving Inhabited

/-- What the reader is in the middle of. Characters already read are kept newest first. -/
inductive Lexing where
  | blank
  | word (letters : List Char)
  | number (letters : List Char)
  | text (letters : List Char)
  | escaped (letters : List Char)
  /-- `left` hexadecimal digits are still missing; `high` is a first surrogate that waits for its
  second. -/
  | hex (letters : List Char) (left : Nat) (code : Nat) (high : Option Nat)
  | paired (letters : List Char) (high : Nat) (backslash : Bool)

def hexValue? (c : Char) : Option Nat :=
  if '0' ≤ c ∧ c ≤ '9' then some (c.toNat - '0'.toNat)
  else if 'a' ≤ c ∧ c ≤ 'f' then some (c.toNat - 'a'.toNat + 10)
  else if 'A' ≤ c ∧ c ≤ 'F' then some (c.toNat - 'A'.toNat + 10)
  else none

def digitsValue (ds : List Char) : Nat := ds.foldl (fun n c => 10 * n + (c.toNat - '0'.toNat)) 0

/-- The leading digits whose value stays below `UInt64.size`, and how many digits follow them. -/
def capDigits (n : Nat) : List Char → Nat × Nat
  | [] => (n, 0)
  | c :: rest =>
    let next := 10 * n + (c.toNat - '0'.toNat)
    if next < UInt64.size then capDigits next rest else (n, rest.length + 1)

/-- A significand is rounded first and then scaled by a rounded power of ten; `none` when the
value is too large. -/
def scaleFloat (significand : Nat) : Nat → Int → Option Float
  | 0, _ => some 0.0
  | fuel + 1, e => go (fuel + 1) (Float.ofNat significand) e
where
  go : Nat → Float → Int → Option Float
    | 0, x, _ => some x
    | fuel + 1, x, e =>
      if e.natAbs ≤ 308 then
        let power := Float.ofScientific 1 false e.natAbs
        if 0 ≤ e then
          let y := x * power
          if y.isInf then none else some y
        else some (x / power)
      else if x == 0.0 then some x
      else if 0 ≤ e then none
      else go fuel (x / Float.ofScientific 1 false 308) (e + 308)

/-- A number token: an integer if it has neither fraction nor exponent and fits 64 bits, otherwise
a binary64 value. Minus zero is a float. -/
def number? (letters : List Char) : Option Json := do
  let (negative, body) := match letters with
    | '-' :: rest => (true, rest)
    | rest => (false, rest)
  let whole := body.takeWhile Char.isDigit
  let rest := body.dropWhile Char.isDigit
  if whole.isEmpty || (whole.length > 1 && whole.head? == some '0') then none
  let (fraction, rest, dotted) ← match rest with
    | '.' :: more =>
      let ds := more.takeWhile Char.isDigit
      if ds.isEmpty then none else some (ds, more.dropWhile Char.isDigit, true)
    | _ => some ([], rest, false)
  let (power, rest, raised) ← match rest with
    | e :: more =>
      if e = 'e' ∨ e = 'E' then
        let (down, more) := match more with
          | '+' :: m => (false, m)
          | '-' :: m => (true, m)
          | m => (false, m)
        let ds := more.takeWhile Char.isDigit
        if ds.isEmpty then none
        else
          let v : Int := min (digitsValue ds) 2147483648
          some (if down then -v else v, more.dropWhile Char.isDigit, true)
      else none
    | [] => some (0, [], false)
  if !rest.isEmpty then none
  let sign (x : Float) : Float := if negative then -x else x
  let (cut, dropped) := capDigits 0 whole
  if !dotted && !raised && dropped = 0 then
    if !negative then some (.int cut)
    else if cut = 0 ∨ 9223372036854775808 < cut then some (.float (sign (Float.ofNat cut)))
    else some (.int (-(cut : Int)))
  else
    let (significand, e) : Nat × Int :=
      if dropped ≠ 0 then (cut, dropped)
      else
        let (s, unread) := capDigits cut fraction
        (s, -((fraction.length - unread : Nat) : Int))
    let x ← scaleFloat significand 8 (e + power)
    some (.float (sign x))

def word? : List Char → Option Json
  | ['n', 'u', 'l', 'l'] => some .null
  | ['t', 'r', 'u', 'e'] => some (.bool true)
  | ['f', 'a', 'l', 's', 'e'] => some (.bool false)
  | _ => none

/-- A character that starts a token or separates two. -/
def startToken (c : Char) (out : List Token) : Option (Lexing × List Token) :=
  if c = ' ' ∨ c = '\t' ∨ c = '\n' ∨ c = '\r' then some (.blank, out)
  else if c = '\x7b' then some (.blank, .openObj :: out)
  else if c = '\x7d' then some (.blank, .closeObj :: out)
  else if c = '[' then some (.blank, .openArr :: out)
  else if c = ']' then some (.blank, .closeArr :: out)
  else if c = ',' then some (.blank, .comma :: out)
  else if c = ':' then some (.blank, .colon :: out)
  else if c = '"' then some (.text [], out)
  else if c = '-' ∨ c.isDigit then some (.number [c], out)
  else if c.isAlpha then some (.word [c], out)
  else none

def shortEscape? (c : Char) : Option Char :=
  if c = '"' ∨ c = '\\' ∨ c = '/' then some c
  else if c = 'b' then some '\x08'
  else if c = 'f' then some '\x0c'
  else if c = 'n' then some '\n'
  else if c = 'r' then some '\r'
  else if c = 't' then some '\t'
  else none

/-- Four hexadecimal digits are complete: a character, or half of a surrogate pair. -/
def finishHex (letters : List Char) (code : Nat) : Option Nat → Option Lexing
  | none =>
    if 0xD800 ≤ code ∧ code < 0xDC00 then some (.paired letters code false)
    else if 0xDC00 ≤ code ∧ code < 0xE000 then none
    else some (.text (Char.ofNat code :: letters))
  | some high =>
    if 0xDC00 ≤ code ∧ code < 0xE000 then
      some (.text (Char.ofNat (0x10000 + (high - 0xD800) * 0x400 + (code - 0xDC00)) :: letters))
    else none

def inNumber (c : Char) : Bool :=
  c.isDigit || c == '.' || c == '-' || c == '+' || c == 'e' || c == 'E'

def lexStep (state : Lexing) (out : List Token) (c : Char) : Option (Lexing × List Token) :=
  match state with
  | .blank => startToken c out
  | .word ls =>
    if c.isAlpha then some (.word (c :: ls), out)
    else (word? ls.reverse).bind fun j => startToken c (.scalar j :: out)
  | .number ls =>
    if inNumber c then some (.number (c :: ls), out)
    else (number? ls.reverse).bind fun j => startToken c (.scalar j :: out)
  | .text ls =>
    if c = '"' then some (.blank, .scalar (.str (String.ofList ls.reverse)) :: out)
    else if c = '\\' then some (.escaped ls, out)
    else if c.toNat < 0x20 then none
    else some (.text (c :: ls), out)
  | .escaped ls =>
    if c = 'u' then some (.hex ls 4 0 none, out)
    else (shortEscape? c).map fun e => (.text (e :: ls), out)
  | .hex ls left code high =>
    (hexValue? c).bind fun v =>
      if left ≤ 1 then (finishHex ls (16 * code + v) high).map (·, out)
      else some (.hex ls (left - 1) (16 * code + v) high, out)
  | .paired ls high backslash =>
    if backslash then if c = 'u' then some (.hex ls 4 0 (some high), out) else none
    else if c = '\\' then some (.paired ls high true, out) else none

def lexAll : Lexing → List Token → List Char → Option (List Token)
  | .blank, out, [] => some out.reverse
  | .word ls, out, [] => (word? ls.reverse).map fun j => (Token.scalar j :: out).reverse
  | .number ls, out, [] => (number? ls.reverse).map fun j => (Token.scalar j :: out).reverse
  | _, _, [] => none
  | state, out, c :: rest => (lexStep state out c).bind fun next => lexAll next.1 next.2 rest

def tokens? (text : List Char) : Option (List Token) := lexAll .blank [] text

end BridgeOperator.Json
