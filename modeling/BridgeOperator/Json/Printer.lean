import BridgeOperator.Json.Basic
import BridgeOperator.Decimal.Shortest

/-!
Compact JSON text: no blanks, fields in the order they stand in.
-/

namespace BridgeOperator.Json

def hexDigit (n : Nat) : Char := Nat.digitChar n

/-- Quotes, backslashes and the C0 controls are escaped, all else stands for itself. -/
def escape (c : Char) : List Char :=
  if c = '"' then ['\\', '"']
  else if c = '\\' then ['\\', '\\']
  else if c = '\x08' then ['\\', 'b']
  else if c = '\x0c' then ['\\', 'f']
  else if c = '\n' then ['\\', 'n']
  else if c = '\r' then ['\\', 'r']
  else if c = '\t' then ['\\', 't']
  else if c.toNat < 0x20 then
    ['\\', 'u', '0', '0', hexDigit (c.toNat / 16), hexDigit (c.toNat % 16)]
  else [c]

def quoteChars (s : String) : List Char := '"' :: s.toList.flatMap escape ++ ['"']

def renderChars : Json → List Char
  | .null => "null".toList
  | .bool true => "true".toList
  | .bool false => "false".toList
  | .int n => (toString n).toList
  | .float x => (Decimal.render x).toList
  | .str s => quoteChars s
  | .arr items => '[' :: itemChars items ++ [']']
  | .obj fields => '\x7b' :: fieldChars fields ++ ['\x7d']
where
  itemChars : List Json → List Char
    | [] => []
    | [j] => renderChars j
    | j :: rest => renderChars j ++ ',' :: itemChars rest
  fieldChars : List (String × Json) → List Char
    | [] => []
    | [(k, j)] => quoteChars k ++ ':' :: renderChars j
    | (k, j) :: rest => quoteChars k ++ ':' :: renderChars j ++ ',' :: fieldChars rest

def render (j : Json) : String := String.ofList (renderChars j)

end BridgeOperator.Json
