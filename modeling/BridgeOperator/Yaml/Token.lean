import BridgeOperator.Yaml.Scalar

/-!
The tokens of a YAML stream. Indentation becomes explicit: where a block collection starts or ends
there is a token, and before a key on one line there is one as well, although the key is only
recognised by the colon after it.
-/

namespace BridgeOperator.Yaml

inductive Token where
  /-- The version of YAML a document is written in. -/
  | version (major minor : Nat)
  /-- A short name for what tags begin with. -/
  | handle (name stem : String)
  | documentStart
  | documentEnd
  | sequenceStart
  | mappingStart
  | blockEnd
  | flowSequenceStart
  | flowSequenceEnd
  | flowMappingStart
  | flowMappingEnd
  | entry
  | flowEntry
  | key
  | value
  | alias (name : String)
  | anchor (name : String)
  | tag (handle suffix : String)
  /-- A scalar, and whether it was written plain. -/
  | scalar (plain : Bool) (text : String)
  deriving DecidableEq, Repr, Inhabited

/-- The characters still to be read, and where the first of them stands. -/
structure Cursor where
  rest : List Char
  line : Nat
  column : Nat
  index : Nat

namespace Cursor

def start (text : List Char) : Cursor := ⟨text, 0, 0, 0⟩

def advance (c : Cursor) : Cursor :=
  { c with rest := c.rest.drop 1, column := c.column + 1, index := c.index + 1 }

def advanceBy (c : Cursor) (n : Nat) : Cursor :=
  { c with rest := c.rest.drop n, column := c.column + n, index := c.index + n }

/-- Past one line break; CR and LF together are one. -/
def nextLine (c : Cursor) : Cursor :=
  match c.rest with
  | '\r' :: '\n' :: rest => ⟨rest, c.line + 1, 0, c.index + 2⟩
  | _ :: rest => ⟨rest, c.line + 1, 0, c.index + 1⟩
  | [] => c

/-- What the break at the cursor contributes to a scalar. -/
def breakChar (c : Cursor) : Char :=
  match c.rest with
  | b :: _ => if b = '\u2028' ∨ b = '\u2029' then b else '\n'
  | [] => '\n'

/-- Three dashes or three dots at the start of a line, with nothing joined to them. -/
def atMark (c : Cursor) (m : Char) : Bool :=
  c.column = 0 && match c.rest with
    | a :: b :: d :: rest => a == m && b == m && d == m && isBlankOrEnd rest
    | _ => false

def atDocumentMark (c : Cursor) : Bool := c.atMark '-' || c.atMark '.'

end Cursor

/-- A place where a key may turn out to have started. -/
structure SimpleKey where
  /-- The key is the only thing that can stand there. -/
  required : Bool
  /-- The number of tokens before it. -/
  before : Nat
  line : Nat
  column : Nat
  index : Nat

structure Scanner where
  cursor : Cursor
  /-- Tokens found so far, newest first. -/
  found : List Token
  /-- The columns of the open block collections, innermost first. -/
  indents : List Int
  /-- For every open flow collection and the block context below them, innermost first. -/
  keys : List (Option SimpleKey)
  keyAllowed : Bool

namespace Scanner

def start (text : List Char) : Scanner := ⟨.start text, [], [], [none], true⟩

def indent (s : Scanner) : Int := s.indents.head?.getD (-1)

def inFlow (s : Scanner) : Bool := 1 < s.keys.length

def emit (s : Scanner) (t : Token) : Scanner := { s with found := t :: s.found }

/-- Put a token in front of all but the first `before` tokens. -/
def insertAt (s : Scanner) (before : Nat) (t : Token) : Scanner :=
  let later := s.found.length - before
  { s with found := s.found.take later ++ t :: s.found.drop later }

/-- Forget the key that may have started; a required one must not be missing. -/
def dropKey (s : Scanner) : Option Scanner :=
  match s.keys with
  | some k :: rest => if k.required then none else some { s with keys := none :: rest }
  | _ => some s

def saveKey (s : Scanner) : Option Scanner :=
  if s.keyAllowed then do
    let s ← s.dropKey
    let k : SimpleKey := {
      required := !s.inFlow && s.indent = (s.cursor.column : Int)
      before := s.found.length
      line := s.cursor.line
      column := s.cursor.column
      index := s.cursor.index }
    some { s with keys := some k :: s.keys.drop 1 }
  else some s

/-- A key has to end on its line and within 1024 characters. -/
def staleKeys (s : Scanner) : Option Scanner := do
  let keys ← s.keys.mapM fun k? =>
    match k? with
    | none => some none
    | some k =>
      if k.line < s.cursor.line ∨ k.index + 1024 < s.cursor.index then
        if k.required then none else some none
      else some (some k)
  some { s with keys }

/-- Open a block collection at a column, if that is deeper than the current one. -/
def roll (s : Scanner) (column : Int) (before : Option Nat) (t : Token) : Scanner :=
  if s.inFlow || column ≤ s.indent then s
  else
    let s := { s with indents := column :: s.indents }
    match before with
    | some n => s.insertAt n t
    | none => s.emit t

/-- Close the block collections that are deeper than a column. -/
def unroll (s : Scanner) (column : Int) : Scanner :=
  if s.inFlow then s
  else
    let closed := s.indents.takeWhile (fun i => column < i)
    { s with
      indents := s.indents.drop closed.length
      found := List.replicate closed.length .blockEnd ++ s.found }

/-! ## Blanks and comments -/

def skipSpaces (c : Cursor) : Cursor := c.advanceBy (c.rest.takeWhile isBlank).length

/-- Past a comment that starts at the cursor. -/
def skipComment (c : Cursor) : Cursor :=
  if c.rest.head? = some '#' then c.advanceBy (c.rest.takeWhile (fun x => !isBreak x)).length else c

/-- Skip to the next token. A tab may separate tokens but not indent a line. -/
def skipBlanks : Nat → Scanner → Scanner
  | 0, s => s
  | fuel + 1, s =>
    match s.cursor.rest with
    | [] => s
    | c :: _ =>
      if c = '\ufeff' ∧ s.cursor.column = 0 then
        skipBlanks fuel { s with cursor := s.cursor.advance }
      else if c = ' ' ∨ (c = '\t' ∧ (s.inFlow ∨ !s.keyAllowed)) then
        skipBlanks fuel { s with cursor := s.cursor.advance }
      else if c = '#' then skipBlanks fuel { s with cursor := skipComment s.cursor }
      else if isBreak c then
        skipBlanks fuel
          { s with cursor := s.cursor.nextLine, keyAllowed := s.keyAllowed || !s.inFlow }
      else s

/-! ## Scalars -/

/-- Blanks and breaks between two words of a scalar that may continue on the next line. -/
structure Gap where
  blanks : List Char
  first : Option Char
  more : List Char

namespace Gap

def none : Gap := ⟨[], .none, []⟩

/-- One break becomes a space, further ones stay. -/
def text (g : Gap) : List Char :=
  match g.first with
  | .none => g.blanks
  | some b => if b = '\n' then (if g.more.isEmpty then [' '] else g.more) else b :: g.more

end Gap

/-- Read blanks and breaks. `strict` is the column a tab must not stand before on a later line. -/
def readGap (strict : Option Int) : Nat → Cursor → Gap → Option (Gap × Cursor)
  | 0, _, _ => .none
  | fuel + 1, c, g =>
    match c.rest with
    | [] => some (g, c)
    | x :: _ =>
      if isBlank x then
        if g.first.isSome then
          if x = '\t' ∧ (strict.any fun i => (c.column : Int) < i) then .none
          else readGap strict fuel c.advance g
        else readGap strict fuel c.advance { g with blanks := g.blanks ++ [x] }
      else if isBreak x then
        match g.first with
        | .none => readGap strict fuel c.nextLine ⟨[], some c.breakChar, []⟩
        | some _ => readGap strict fuel c.nextLine { g with more := g.more ++ [c.breakChar] }
      else some (g, c)

/-- Does the plain scalar end before this text? -/
def endsPlain (inFlow : Bool) : List Char → Bool
  | [] => true
  | c :: rest =>
    isBlank c || isBreak c || (c == ':' && isBlankOrEnd rest)
      || (inFlow && ",[]\x7b\x7d".toList.contains c)

/-- In a flow collection a colon must not be followed by one of its indicators. -/
def badColon (inFlow : Bool) : List Char → Bool
  | ':' :: c :: _ => inFlow && ",?[]\x7b\x7d".toList.contains c
  | _ => false

/-- A plain scalar: its text newest character first, whether a line break follows it, and what
comes after. -/
def readPlain (inFlow : Bool) (indent : Int) :
    Nat → Cursor → Gap → List Char → Option (List Char × Bool × Cursor)
  | 0, _, _, _ => none
  | fuel + 1, c, g, text =>
    if c.column = 0 && c.atDocumentMark then some (text, g.first.isSome, c)
    else if c.rest.head? = some '#' && (text.isEmpty || !g.blanks.isEmpty || g.first.isSome) then
      some (text, g.first.isSome, c)
    else if badColon inFlow c.rest then none
    else if !endsPlain inFlow c.rest then
      readPlain inFlow indent fuel c.advance Gap.none (c.rest.take 1 ++ g.text.reverse ++ text)
    else
      match c.rest with
      | [] => some (text, g.first.isSome, c)
      | x :: _ =>
        if isBlank x || isBreak x then do
          let (g, c) ← readGap (some indent) (c.rest.length + 1) c Gap.none
          if !inFlow && (c.column : Int) < indent then some (text, g.first.isSome, c)
          else readPlain inFlow indent fuel c g text
        else some (text, g.first.isSome, c)

def hexValue? (ds : List Char) : Option Nat :=
  ds.foldlM (fun n c => (digit? 16 c).map (16 * n + ·)) 0

/-- A character given by its code in so many hexadecimal digits, and what follows it. -/
def codeEscape (width : Nat) (c : Cursor) : Option (List Char × Cursor) := do
  let ds := c.rest.take width
  if ds.length < width then none
  let n ← hexValue? ds
  if (0xD800 ≤ n ∧ n ≤ 0xDFFF) ∨ 0x10FFFF < n then none
  some ([Char.ofNat n], c.advanceBy width)

/-- The escape whose letter is at the cursor. -/
def readEscape (c : Cursor) : Option (List Char × Cursor) :=
  match c.rest with
  | [] => none
  | x :: _ =>
    let one (y : Char) : Option (List Char × Cursor) := some ([y], c.advance)
    if x = '0' then one '\x00'
    else if x = 'a' then one '\x07'
    else if x = 'b' then one '\x08'
    else if x = 't' ∨ x = '\t' then one '\t'
    else if x = 'n' then one '\n'
    else if x = 'v' then one '\x0b'
    else if x = 'f' then one '\x0c'
    else if x = 'r' then one '\r'
    else if x = 'e' then one '\x1b'
    else if x = ' ' ∨ x = '"' ∨ x = '/' ∨ x = '\\' then one x
    else if x = 'N' then one '\u0085'
    else if x = '_' then one '\u00a0'
    else if x = 'L' then one '\u2028'
    else if x = 'P' then one '\u2029'
    else if x = 'x' then codeEscape 2 c.advance
    else if x = 'u' then codeEscape 4 c.advance
    else if x = 'U' then codeEscape 8 c.advance
    else none

/-- The rest of a quoted scalar, its text newest character first. -/
def readQuoted (single : Bool) : Nat → Cursor → List Char → Option (List Char × Cursor)
  | 0, _, _ => none
  | fuel + 1, c, text =>
    if c.atDocumentMark then none
    else
      match c.rest with
      | [] => none
      | x :: after =>
        if single && x == '\'' then
          if after.head? = some '\'' then readQuoted single fuel (c.advanceBy 2) ('\'' :: text)
          else some (text, c.advance)
        else if !single && x == '"' then some (text, c.advance)
        else if !single && x == '\\' then
          if after.head?.any isBreak then do
            let (g, c) ← readGap none (c.rest.length + 1) c.advance.nextLine ⟨[], some ' ', []⟩
            readQuoted single fuel c (g.more.reverse ++ text)
          else do
            let (e, c) ← readEscape c.advance
            readQuoted single fuel c (e ++ text)
        else if isBlank x || isBreak x then do
          let (g, c) ← readGap none (c.rest.length + 1) c Gap.none
          readQuoted single fuel c (g.text.reverse ++ text)
        else readQuoted single fuel c.advance (x :: text)

/-- What becomes of the breaks at the end of a block scalar. -/
inductive Chomping where
  | strip
  | clip
  | keep
  deriving DecidableEq

def chomping? (c : Char) : Option Chomping :=
  if c = '+' then some .keep else if c = '-' then some .strip else none

def increment? (c : Char) : Option Nat :=
  if '1' ≤ c ∧ c ≤ '9' then some (c.toNat - '0'.toNat) else none

/-- The header of a block scalar after its indicator: chomping and indentation in either order. -/
def blockHeader (c : Cursor) : Option (Chomping × Option Nat × Cursor) :=
  match c.rest with
  | x :: rest =>
    match chomping? x with
    | some k =>
      match rest with
      | '0' :: _ => none
      | y :: _ =>
        match increment? y with
        | some n => some (k, some n, c.advanceBy 2)
        | none => some (k, none, c.advance)
      | [] => some (k, none, c.advance)
    | none =>
      if x = '0' then none
      else
        match increment? x with
        | some n =>
          match rest.head?.bind chomping? with
          | some k => some (k, some n, c.advanceBy 2)
          | none => some (.clip, some n, c.advance)
        | none => some (.clip, none, c)
  | [] => some (.clip, none, c)

/-- The indentation and the empty lines before a line of a block scalar. Without a known
indentation every leading space is taken; `deepest` is the furthest column seen. -/
def blockBreaks (indent : Option Nat) :
    Nat → Cursor → Nat → List Char → Option (List Char × Nat × Cursor)
  | 0, _, _, _ => none
  | fuel + 1, c, deepest, breaks =>
    let want := match indent with
      | some n => n - c.column
      | none => c.rest.length
    let blanks := ((c.rest.take want).takeWhile (· = ' ')).length
    let c := c.advanceBy blanks
    let deepest := max deepest c.column
    match c.rest with
    | [] => some (breaks, deepest, c)
    | x :: _ =>
      if x = '\t' ∧ (indent.all fun n => c.column < n) then none
      else if isBreak x then blockBreaks indent fuel c.nextLine deepest (c.breakChar :: breaks)
      else some (breaks, deepest, c)

/-- The lines of a block scalar, newest character first. `held` is the break after the last line
and `breaks` the ones after that. -/
def blockLines (literal : Bool) (indent : Nat) :
    Nat → Cursor → List Char → List Char → List Char → Bool →
      Option (List Char × List Char × List Char × Cursor)
  | 0, _, _, _, _, _ => none
  | fuel + 1, c, text, held, breaks, leadingBlank =>
    match c.rest with
    | [] => some (text, held, breaks, c)
    | x :: _ =>
      if c.column ≠ indent then some (text, held, breaks, c)
      else
        let blank := isBlank x
        let joined :=
          if !literal && held = ['\n'] && !leadingBlank && !blank then
            if breaks.isEmpty then ' ' :: text else breaks ++ text
          else breaks ++ held ++ text
        let line := c.rest.takeWhile (fun y => !isBreak y)
        let c := c.advanceBy line.length
        let text := line.reverse ++ joined
        match c.rest with
        | [] => some (text, [], [], c)
        | _ :: _ => do
          let held := [c.breakChar]
          let c := c.nextLine
          let (breaks, _, c) ← blockBreaks (some indent) (c.rest.length + 1) c 0 []
          blockLines literal indent fuel c text held breaks blank

/-- A block scalar from the character after its indicator. -/
def readBlock (literal : Bool) (parent : Int) (c : Cursor) : Option (String × Cursor) := do
  let (chomping, increment, c) ← blockHeader c
  let c := skipComment (skipSpaces c)
  if !(c.rest.isEmpty || c.rest.head?.any isBreak) then none
  let c := if c.rest.isEmpty then c else c.nextLine
  let given := increment.map fun n => (if 0 ≤ parent then parent.toNat else 0) + n
  let (breaks, deepest, c) ← blockBreaks given (c.rest.length + 1) c 0 []
  let indent := given.getD (max (max deepest (parent + 1).toNat) 1)
  let (text, held, breaks, c) ← blockLines literal indent (c.rest.length + 1) c [] [] breaks false
  let text := match chomping with
    | .strip => text
    | .clip => held ++ text
    | .keep => breaks ++ held ++ text
  some (String.ofList text.reverse, c)

/-! ## Anchors, tags and directives -/

def isWordChar (c : Char) : Bool := c.isAlphanum || c == '-' || c == '_'

/-- The name after `&` or `*`. -/
def readName (c : Cursor) : Option (String × Cursor) :=
  let name := c.rest.takeWhile isWordChar
  let after := c.rest.drop name.length
  let ends := isBlankOrEnd after || (after.head?.any "?:,]\x7d%@`".toList.contains)
  if name.isEmpty || !ends then none
  else some (String.ofList name, c.advanceBy name.length)

def isUriChar (verbatim : Bool) (c : Char) : Bool :=
  isWordChar c || ";/?:@&=+$.%!~*'()".toList.contains c || (verbatim && ",[]".toList.contains c)

def readUri (verbatim : Bool) (c : Cursor) : String × Cursor :=
  let text := c.rest.takeWhile (isUriChar verbatim)
  (String.ofList text, c.advanceBy text.length)

/-- The handle `!!` or `!name!` of a tag. -/
def readHandle (c : Cursor) : Option (String × Cursor) :=
  match c.rest with
  | '!' :: rest =>
    let name := rest.takeWhile isWordChar
    if (rest.drop name.length).head? = some '!' then
      some (String.ofList ('!' :: name ++ ['!']), c.advanceBy (name.length + 2))
    else none
  | _ => none

/-- A tag: `!<text>`, a handle with a suffix, or `!` with one. A lone `!` has no handle. -/
def readTag (inFlow : Bool) (c : Cursor) : Option (Token × Cursor) := do
  let (handle, suffix, c) ←
    match c.rest with
    | '!' :: '<' :: _ =>
      let (suffix, c) := readUri true (c.advanceBy 2)
      if suffix.isEmpty || c.rest.head? ≠ some '>' then none else some ("", suffix, c.advance)
    | _ =>
      match readHandle c with
      | some (handle, c) =>
        let (suffix, c) := readUri false c
        if suffix.isEmpty then none else some (handle, suffix, c)
      | none =>
        let (suffix, c) := readUri false c.advance
        some (if suffix.isEmpty then ("", "!", c) else ("!", suffix, c))
  if isBlankOrEnd c.rest || (inFlow && c.rest.head? = some ',') then
    some (.tag handle suffix, c)
  else none

/-- A number of at most nine digits. -/
def readNumber (c : Cursor) : Option (Nat × Cursor) := do
  let ds := c.rest.takeWhile Char.isDigit
  if 9 < ds.length then none
  let n ← inRadix? 10 ds
  some (n, c.advanceBy ds.length)

def readVersion (c : Cursor) : Option (Token × Cursor) := do
  let (major, c) ← readNumber c
  if c.rest.head? ≠ some '.' then none
  let (minor, c) ← readNumber c.advance
  some (.version major minor, c)

def readHandleStem (c : Cursor) : Option (Token × Cursor) := do
  let (name, c) ←
    match readHandle c with
    | some found => some found
    | none => if c.rest.head? = some '!' then some ("!", c.advance) else none
  if !(c.rest.head?.any isBlank) then none
  let (stem, c) := readUri true (skipSpaces c)
  if stem.isEmpty || !isBlankOrEnd c.rest then none else some (.handle name stem, c)

/-- A directive from after its percent sign to the end of its line. -/
def readDirective (c : Cursor) : Option (Token × Cursor) := do
  let name := c.rest.takeWhile isWordChar
  let c := c.advanceBy name.length
  if !isBlankOrEnd c.rest then none
  let (t, c) ←
    if name = "YAML".toList then readVersion (skipSpaces c)
    else if name = "TAG".toList then readHandleStem (skipSpaces c)
    else none
  let c := skipComment (skipSpaces c)
  if c.rest.isEmpty || c.rest.head?.any isBreak then some (t, c) else none

/-! ## Tokens -/

def emitAndAdvance (s : Scanner) (t : Token) : Scanner :=
  { s.emit t with cursor := s.cursor.advance }

def openFlow (s : Scanner) (t : Token) : Option Scanner := do
  let s ← s.saveKey
  some { s.emitAndAdvance t with keys := none :: s.keys, keyAllowed := true }

def closeFlow (s : Scanner) (t : Token) : Option Scanner := do
  let s ← s.dropKey
  let keys := if s.inFlow then s.keys.drop 1 else s.keys
  some { s.emitAndAdvance t with keys, keyAllowed := false }

def takeFlowEntry (s : Scanner) : Option Scanner := do
  let s ← s.dropKey
  some { s.emitAndAdvance .flowEntry with keyAllowed := true }

def takeEntry (s : Scanner) : Option Scanner := do
  if !s.inFlow && !s.keyAllowed then none
  let s := s.roll s.cursor.column none .sequenceStart
  let s ← s.dropKey
  some { s.emitAndAdvance .entry with keyAllowed := true }

def takeKey (s : Scanner) : Option Scanner := do
  if !s.inFlow && !s.keyAllowed then none
  let s := s.roll s.cursor.column none .mappingStart
  let s ← s.dropKey
  some { s.emitAndAdvance .key with keyAllowed := !s.inFlow }

def takeValue (s : Scanner) : Option Scanner :=
  match s.keys with
  | some k :: rest =>
    let s := (s.insertAt k.before .key).roll k.column (some k.before) .mappingStart
    some { s.emitAndAdvance .value with keys := none :: rest, keyAllowed := false }
  | _ =>
    if !s.inFlow && !s.keyAllowed then none
    else
      let s := s.roll s.cursor.column none .mappingStart
      some { s.emitAndAdvance .value with keyAllowed := !s.inFlow }

def takeNamed (s : Scanner) (t : String → Token) : Option Scanner := do
  let s ← s.saveKey
  let (name, cursor) ← readName s.cursor.advance
  some { s.emit (t name) with cursor, keyAllowed := false }

def takeTag (s : Scanner) : Option Scanner := do
  let s ← s.saveKey
  let (t, cursor) ← readTag s.inFlow s.cursor
  some { s.emit t with cursor, keyAllowed := false }

def takeBlockScalar (s : Scanner) (literal : Bool) : Option Scanner := do
  let s ← s.dropKey
  let (text, cursor) ← readBlock literal s.indent s.cursor.advance
  some { s.emit (.scalar false text) with cursor, keyAllowed := true }

def takeQuoted (s : Scanner) (single : Bool) : Option Scanner := do
  let s ← s.saveKey
  let c := s.cursor.advance
  let (text, cursor) ← readQuoted single (c.rest.length + 1) c []
  some { s.emit (.scalar false (String.ofList text.reverse)) with cursor, keyAllowed := false }

def takePlain (s : Scanner) : Option Scanner := do
  let s ← s.saveKey
  let (text, broken, cursor) ←
    readPlain s.inFlow (s.indent + 1) (2 * s.cursor.rest.length + 2) s.cursor Gap.none []
  some { s.emit (.scalar true (String.ofList text.reverse)) with cursor, keyAllowed := broken }

def takeMark (s : Scanner) (t : Token) : Option Scanner := do
  let s ← (s.unroll (-1)).dropKey
  some { s.emit t with cursor := s.cursor.advanceBy 3, keyAllowed := false }

def takeDirective (s : Scanner) : Option Scanner := do
  let s ← (s.unroll (-1)).dropKey
  let (t, cursor) ← readDirective s.cursor.advance
  some { s.emit t with cursor, keyAllowed := false }

/-- May a plain scalar start with this text? -/
def startsPlain (inFlow : Bool) : List Char → Bool
  | [] => false
  | c :: rest =>
    !(isBlank c || isBreak c || "-?:,[]\x7b\x7d#&*!|>'\"%@`".toList.contains c)
      || (c == '-' && !rest.head?.any isBlank)
      || (!inFlow && (c == '?' || c == ':') && !isBlankOrEnd rest)

/-- Take the token at the cursor. -/
def take (s : Scanner) : Option Scanner :=
  match s.cursor.rest with
  | [] => some s
  | c :: rest =>
    let flow := s.inFlow
    if s.cursor.column = 0 ∧ c = '%' then s.takeDirective
    else if s.cursor.atMark '-' then s.takeMark .documentStart
    else if s.cursor.atMark '.' then s.takeMark .documentEnd
    else if c = '[' then s.openFlow .flowSequenceStart
    else if c = '\x7b' then s.openFlow .flowMappingStart
    else if c = ']' then s.closeFlow .flowSequenceEnd
    else if c = '\x7d' then s.closeFlow .flowMappingEnd
    else if c = ',' then s.takeFlowEntry
    else if c = '-' ∧ isBlankOrEnd rest then s.takeEntry
    else if c = '?' ∧ (flow ∨ isBlankOrEnd rest) then s.takeKey
    else if c = ':' ∧ (flow ∨ isBlankOrEnd rest) then s.takeValue
    else if c = '*' then s.takeNamed .alias
    else if c = '&' then s.takeNamed .anchor
    else if c = '!' then s.takeTag
    else if c = '|' ∧ !flow then s.takeBlockScalar true
    else if c = '>' ∧ !flow then s.takeBlockScalar false
    else if c = '\'' then s.takeQuoted true
    else if c = '"' then s.takeQuoted false
    else if startsPlain flow s.cursor.rest then s.takePlain
    else none

def finish (s : Scanner) : Option (List Token) := do
  let s ← (s.unroll (-1)).dropKey
  some s.found.reverse

/-- Every round takes at least one character. -/
def run : Nat → Scanner → Option (List Token)
  | 0, _ => none
  | fuel + 1, s => do
    let s := skipBlanks (s.cursor.rest.length + 1) s
    let s ← s.staleKeys
    let s := s.unroll s.cursor.column
    if s.cursor.rest.isEmpty then s.finish
    else
      let s ← s.take
      run fuel s

end Scanner

/-- The tokens of a text; `none` if it is no YAML. -/
def tokens? (text : List Char) : Option (List Token) :=
  if text.all isAllowed then Scanner.run (text.length + 1) (.start text) else none

end BridgeOperator.Yaml
