/-!
YAML scalars: what a plain scalar may be taken for, and the classes of characters that decide how
a text has to be written.
-/

namespace BridgeOperator.Yaml

/-- Line breaks: CR, LF, NEL, the line and the paragraph separator. -/
def isBreak (c : Char) : Bool :=
  c == '\n' || c == '\r' || c == '\u0085' || c == '\u2028' || c == '\u2029'

def isBlank (c : Char) : Bool := c == ' ' || c == '\t'

/-- Blank, break or the end of the text. -/
def isBlankOrEnd : List Char → Bool
  | [] => true
  | c :: _ => isBlank c || isBreak c

/-- Characters that need no escape. -/
def isPrintable (c : Char) : Bool :=
  let n := c.toNat
  n = 0x0A || (0x20 ≤ n && n ≤ 0x7E) || (0xA0 ≤ n && n ≤ 0xD7FF)
    || (0xE000 ≤ n && n ≤ 0xFFFD && n ≠ 0xFEFF) || 0x10000 ≤ n

/-- Characters a document may hold at all. -/
def isAllowed (c : Char) : Bool :=
  let n := c.toNat
  n = 0x09 || n = 0x0A || n = 0x0D || (0x20 ≤ n && n ≤ 0x7E) || n = 0x85
    || (0xA0 ≤ n && n ≤ 0xD7FF) || (0xE000 ≤ n && n ≤ 0xFFFD) || 0x10000 ≤ n

def isNull (s : List Char) : Bool :=
  s == ['~'] || s == "null".toList || s == "Null".toList || s == "NULL".toList

def isBool (s : List Char) : Bool :=
  s == "true".toList || s == "True".toList || s == "TRUE".toList
    || s == "false".toList || s == "False".toList || s == "FALSE".toList

def digit? (radix : Nat) (c : Char) : Option Nat :=
  let v? : Option Nat :=
    if '0' ≤ c ∧ c ≤ '9' then some (c.toNat - '0'.toNat)
    else if 'a' ≤ c ∧ c ≤ 'f' then some (c.toNat - 'a'.toNat + 10)
    else if 'A' ≤ c ∧ c ≤ 'F' then some (c.toNat - 'A'.toNat + 10)
    else none
  v?.filter (· < radix)

/-- The value of a text of at least one digit. -/
def inRadix? (radix : Nat) (s : List Char) : Option Nat :=
  if s.isEmpty then none
  else s.foldlM (fun n c => (digit? radix c).map (radix * n + ·)) 0

/-- A zero followed by digits is not a number, with or without a sign. -/
def hasLeadingZero (s : List Char) : Bool :=
  let body := match s with
    | '-' :: rest | '+' :: rest => rest
    | rest => rest
  match body with
  | '0' :: c :: rest => (c :: rest).all Char.isDigit
  | _ => false

/-- A number without a minus sign: decimal, or with `0x`, `0o` or `0b` in front. -/
def natural? (s : List Char) : Option Nat :=
  let body := match s with
    | '+' :: rest => rest
    | rest => rest
  match body with
  | '0' :: 'x' :: rest => inRadix? 16 rest
  | '0' :: 'o' :: rest => inRadix? 8 rest
  | '0' :: 'b' :: rest => inRadix? 2 rest
  | _ => if hasLeadingZero s then none else inRadix? 10 body

/-- A number after a minus sign. -/
def negative? (s : List Char) : Option Nat :=
  match s with
  | '-' :: '0' :: 'x' :: rest => inRadix? 16 rest
  | '-' :: '0' :: 'o' :: rest => inRadix? 8 rest
  | '-' :: '0' :: 'b' :: rest => inRadix? 2 rest
  | '-' :: rest => if hasLeadingZero s then none else inRadix? 10 rest
  | _ => none

def integer? (s : List Char) : Option Int :=
  match natural? s with
  | some n => some n
  | none => (negative? s).map fun n => -(n : Int)

/-- Does an integer of 128 bits, signed or not, hold the value? -/
def isInteger (s : List Char) : Bool :=
  (natural? s).any (· < Nat.pow 2 128) || (negative? s).any (· ≤ Nat.pow 2 127)

/-- Is `digits * 10 ^ e` below the value from which binary64 rounds to infinity? -/
def isFinite (digits : Nat) (e : Int) : Bool :=
  if digits = 0 then true
  else
    let size : Int := (Nat.toDigits 10 digits).length + e
    if size < 300 then true
    else if 320 < size then false
    else digits * Nat.pow 10 e.toNat < (Nat.pow 2 1024 - Nat.pow 2 970) * Nat.pow 10 (-e).toNat

def natOfDigits (ds : List Char) : Nat := ds.foldl (fun n c => 10 * n + (c.toNat - '0'.toNat)) 0

/-- The exponent part of a decimal number, zero if there is none. -/
def exponent? : List Char → Option Int
  | [] => some 0
  | c :: rest =>
    if c = 'e' ∨ c = 'E' then
      let (down, ds) := match rest with
        | '+' :: more => (false, more)
        | '-' :: more => (true, more)
        | more => (false, more)
      if ds.isEmpty || !ds.all Char.isDigit then none
      else
        let n : Int := min (natOfDigits ds) 100000
        some (if down then -n else n)
    else none

/-- A decimal number with digits on at least one side of the point. -/
def isDecimal (s : List Char) : Bool :=
  let body := match s with
    | '-' :: rest => rest
    | rest => rest
  let whole := body.takeWhile Char.isDigit
  let (fraction, rest) := match body.dropWhile Char.isDigit with
    | '.' :: more => (more.takeWhile Char.isDigit, more.dropWhile Char.isDigit)
    | rest => ([], rest)
  !(whole.isEmpty && fraction.isEmpty)
    && ((exponent? rest).any fun e =>
      isFinite (natOfDigits (whole ++ fraction)) (e - fraction.length))

/-- A finite decimal, an infinity or a NaN. -/
def isFloat (s : List Char) : Bool :=
  let unsigned := match s with
    | '+' :: rest => rest
    | rest => rest
  let doubleSign := match s with
    | '+' :: '+' :: _ | '+' :: '-' :: _ => true
    | _ => false
  !doubleSign
    && ([".inf", ".Inf", ".INF"].any (·.toList == unsigned)
      || ["-.inf", "-.Inf", "-.INF", ".nan", ".NaN", ".NAN"].any (·.toList == s)
      || isDecimal unsigned)

/-- Written plain, the text would be taken for something other than a string. -/
def isAmbiguous (s : List Char) : Bool :=
  s.isEmpty || isNull s || isBool s || isInteger s || hasLeadingZero s || isFloat s

end BridgeOperator.Yaml
