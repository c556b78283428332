import BridgeOperator.Decimal.Shortest
import BridgeOperator.Json.Basic
import BridgeOperator.Yaml.Scalar

/-!
Values as block style YAML: two spaces per level, sequences not indented below a key, lines never
folded, and every string in the plainest form that reads back as that string.
-/

namespace BridgeOperator.Yaml

inductive Style where
  | plain
  | single
  | double
  | literal
  deriving DecidableEq, Repr

/-- Some character is followed by another of the given kinds. -/
def hasPair (p q : Char → Bool) : List Char → Bool
  | a :: b :: rest => (p a && q b) || hasPair p q (b :: rest)
  | _ => false

def isSpace (c : Char) : Bool := c == ' '

/-- A character that would start something other than a plain scalar. -/
def startsIndicator : List Char → Bool
  | [] => false
  | c :: rest =>
    "#,[]\x7b\x7d&*!|>'\"%@`".toList.contains c
      || ((c == '?' || c == ':' || c == '-') && isBlankOrEnd rest)

/-- Inside a plain scalar, `: ` ends it and ` #` starts a comment. -/
def hasInnerIndicator : List Char → Bool
  | a :: b :: rest =>
    (b == ':' && isBlankOrEnd rest) || (b == '#' && (isBlank a || isBreak a))
      || hasInnerIndicator (b :: rest)
  | _ => false

def startsDocumentMark : List Char → Bool
  | '-' :: '-' :: '-' :: _ | '.' :: '.' :: '.' :: _ => true
  | _ => false

def needsEscape (s : List Char) : Bool := s.any (fun c => !isPrintable c)

def spaceBeforeBreak (s : List Char) : Bool := hasPair isSpace isBreak s

def plainAllowed (s : List Char) : Bool :=
  !s.isEmpty && !s.any isBreak && !needsEscape s && !s.head?.any isSpace && !s.getLast?.any isSpace
    && !startsDocumentMark s && !startsIndicator s && !hasInnerIndicator s

def singleAllowed (s : List Char) : Bool :=
  !hasPair isBreak isSpace s && !spaceBeforeBreak s && !needsEscape s

def literalAllowed (s : List Char) : Bool :=
  !s.getLast?.any isSpace && !spaceBeforeBreak s && !needsEscape s

/-- The plainest style a string can be written in. A text with a newline becomes a literal block. -/
def styleOf (s : List Char) : Style :=
  if s.contains '\n' then (if literalAllowed s then .literal else .double)
  else if !isAmbiguous s && plainAllowed s then .plain
  else if singleAllowed s then .single
  else .double

def spaces (n : Nat) : List Char := List.replicate n ' '

/-- Lines after the first start with `indent` spaces; an empty line stays empty. -/
def indentLines (indent : Nat) : Bool → List Char → List Char
  | _, [] => []
  | afterBreak, c :: rest =>
    if isBreak c then c :: indentLines indent true rest
    else (if afterBreak then spaces indent else []) ++ c :: indentLines indent false rest

def doubleQuotes (s : List Char) : List Char :=
  s.flatMap fun c => if c = '\'' then ['\'', '\''] else [c]

def singleText (indent : Nat) (s : List Char) : List Char :=
  '\'' :: indentLines indent false (doubleQuotes s)
    ++ (if s.getLast?.any isBreak then spaces indent else []) ++ ['\'']

def upperHex (width n : Nat) : List Char :=
  let ds := (Nat.toDigits 16 n).map Char.toUpper
  List.replicate (width - ds.length) '0' ++ ds

def escaped (c : Char) : List Char :=
  let n := c.toNat
  if c = '"' then ['\\', '"']
  else if c = '\\' then ['\\', '\\']
  else if isPrintable c && !isBreak c then [c]
  else if n = 0 then ['\\', '0']
  else if n = 7 then ['\\', 'a']
  else if n = 8 then ['\\', 'b']
  else if n = 9 then ['\\', 't']
  else if n = 10 then ['\\', 'n']
  else if n = 11 then ['\\', 'v']
  else if n = 12 then ['\\', 'f']
  else if n = 13 then ['\\', 'r']
  else if n = 27 then ['\\', 'e']
  else if n = 0x85 then ['\\', 'N']
  else if n = 0x2028 then ['\\', 'L']
  else if n = 0x2029 then ['\\', 'P']
  else if n ≤ 0xFF then '\\' :: 'x' :: upperHex 2 n
  else if n ≤ 0xFFFF then '\\' :: 'u' :: upperHex 4 n
  else '\\' :: 'U' :: upperHex 8 n

def doubleText (s : List Char) : List Char := '"' :: s.flatMap escaped ++ ['"']

/-- The header of a literal block: an indentation hint if the text starts with a space or break,
then what becomes of the breaks at its end. -/
def literalHeader (s : List Char) : List Char :=
  let hint := if s.head?.any (fun c => isSpace c || isBreak c) then ['2'] else []
  let chomp := match s.reverse with
    | [] => ['-']
    | last :: before =>
      if !isBreak last then ['-']
      else if before.isEmpty || before.head?.any isBreak then ['+']
      else []
  '|' :: hint ++ chomp

/-- A string and the end of its line; `indent` is that of a block below it. -/
def scalarLine (indent : Nat) (s : List Char) : List Char :=
  match styleOf s with
  | .plain => s ++ ['\n']
  | .single => singleText indent s ++ ['\n']
  | .double => doubleText s ++ ['\n']
  | .literal =>
    literalHeader s ++ '\n' :: indentLines indent true s
      ++ (if s.getLast?.any isBreak then [] else ['\n'])

def keyText (s : List Char) : List Char :=
  match styleOf s with
  | .plain => s
  | .double => doubleText s
  | _ => singleText 0 s

/-- A key stands before its colon on one line if it has at most 128 bytes and no break. -/
def isSimpleKey (s : String) : Bool := s.utf8ByteSize ≤ 128 && !s.toList.any isBreak

/-- The text of a value that fits on the line where it starts, and the end of that line. -/
def inlineValue (indent : Nat) : Json → List Char
  | .null => "null\n".toList
  | .bool true => "true\n".toList
  | .bool false => "false\n".toList
  | .int n => (toString n).toList ++ ['\n']
  | .float x => (Decimal.render x).toList ++ ['\n']
  | .str s => scalarLine indent s.toList
  | .arr _ => "[]\n".toList
  | .obj _ => "\x7b\x7d\n".toList

/-- A value whose first line is already indented by `indent`. -/
def block (indent : Nat) : Json → List Char
  | .arr (j :: rest) => items indent true (j :: rest)
  | .obj (f :: rest) => fields indent true (f :: rest)
  | j => inlineValue indent j
where
  /-- A value after the colon of a key that is indented by `indent`. -/
  afterKey (indent : Nat) : Json → List Char
    | .arr (j :: rest) => '\n' :: items indent false (j :: rest)
    | .obj (f :: rest) => '\n' :: fields (indent + 2) false (f :: rest)
    | j => ' ' :: inlineValue (indent + 2) j
  items (indent : Nat) (started : Bool) : List Json → List Char
    | [] => []
    | j :: rest =>
      (if started then [] else spaces indent) ++ '-' :: ' ' :: block (indent + 2) j
        ++ items indent false rest
  fields (indent : Nat) (started : Bool) : List (String × Json) → List Char
    | [] => []
    | (k, j) :: rest =>
      (if started then [] else spaces indent)
        ++ (if isSimpleKey k then keyText k.toList ++ ':' :: afterKey indent j
          else '?' :: ' ' :: scalarLine (indent + 2) k.toList
            ++ spaces indent ++ ':' :: ' ' :: block (indent + 2) j)
        ++ fields indent false rest

def render (j : Json) : String := String.ofList (block 0 j)

end BridgeOperator.Yaml
