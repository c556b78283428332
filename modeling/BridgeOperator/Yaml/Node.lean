import BridgeOperator.Readable
import BridgeOperator.Yaml.Token

/-!
The tree of a YAML document. A node that is left out is an empty plain scalar, and an alias stands
for the node its anchor named last.
-/

namespace BridgeOperator.Yaml

inductive Node where
  | scalar (tag : Option String) (plain : Bool) (text : String)
  | seq (items : List Node)
  | map (entries : List (Node × Node))
  deriving Inhabited, BEq, Repr

namespace Node

def missing : Node := .scalar none true ""

end Node

/-- The tokens still to be read, the nodes named so far, newest first, and what the handles of tags
stand for. -/
structure Source where
  tokens : List Token
  named : List (String × Node)
  handles : List (String × String)

namespace Source

def drop (s : Source) : Source := { s with tokens := s.tokens.drop 1 }

def next? (s : Source) : Option Token := s.tokens.head?

/-- The full text of a tag; without a handle it is complete, and a lone `!` says nothing. -/
def resolve (s : Source) (handle suffix : String) : Option (Option String) :=
  if handle.isEmpty then some (if suffix = "!" then none else some suffix)
  else (s.handles.find? (fun e => e.1 = handle)).map fun e => some (e.2 ++ suffix)

/-- What stands in front of a node: an anchor and a tag, in either order. -/
structure Properties where
  anchor : Option String
  tag : Option String
  /-- Without content after them, they stand for an empty scalar. -/
  given : Bool

def properties (s : Source) : Option (Properties × Source) :=
  match s.tokens with
  | .anchor a :: .tag h x :: rest | .tag h x :: .anchor a :: rest =>
    (s.resolve h x).map fun t => (⟨some a, t, true⟩, { s with tokens := rest })
  | .anchor a :: rest => some (⟨some a, none, true⟩, { s with tokens := rest })
  | .tag h x :: rest =>
    (s.resolve h x).map fun t => (⟨none, t, true⟩, { s with tokens := rest })
  | _ => some (⟨none, none, false⟩, s)

def name (s : Source) (anchor : Option String) (n : Node) : Source :=
  match anchor with
  | some a => { s with named := (a, n) :: s.named }
  | none => s

def find? (s : Source) (anchor : String) : Option Node :=
  (s.named.find? (fun e => e.1 = anchor)).map (·.2)

end Source

/-- Where a node stands: whether block collections may start there, and whether a list may start
without being indented. -/
inductive Position where
  | flow
  | item
  | inMapping
  deriving DecidableEq

def Position.isBlock (p : Position) : Bool := p ≠ .flow

mutual

/-- One node from the front of the tokens. Each of these functions takes one unit of fuel. -/
def readNode (p : Position) : Nat → Source → Option (Node × Source)
  | 0, _ => none
  | fuel + 1, s =>
    match s.tokens with
    | .alias a :: _ => (s.find? a).map (·, s.drop)
    | _ => do
      let (props, s) ← s.properties
      let (n, s) ← readContent p fuel props.tag props.given s
      some (n, s.name props.anchor n)

/-- A node after its properties; after some of them it may be left out. -/
def readContent (p : Position) :
    Nat → Option String → Bool → Source → Option (Node × Source)
  | 0, _, _, _ => none
  | fuel + 1, tag, mayMiss, s =>
    match s.tokens with
    | .entry :: _ =>
      if p = .inMapping then do
        let (items, s) ← readIndentless fuel s
        some (.seq items, s)
      else if mayMiss then some (.scalar tag true "", s) else none
    | .scalar plain text :: _ => some (.scalar tag plain text, s.drop)
    | .flowSequenceStart :: _ => do
      let (items, s) ← readFlowItems true fuel s.drop
      some (.seq items, s)
    | .flowMappingStart :: _ => do
      let (entries, s) ← readFlowEntries true fuel s.drop
      some (.map entries, s)
    | .sequenceStart :: _ =>
      if p.isBlock then do
        let (items, s) ← readItems fuel s.drop
        some (.seq items, s)
      else if mayMiss then some (.scalar tag true "", s) else none
    | .mappingStart :: _ =>
      if p.isBlock then do
        let (entries, s) ← readEntries fuel s.drop
        some (.map entries, s)
      else if mayMiss then some (.scalar tag true "", s) else none
    | _ => if mayMiss then some (.scalar tag true "", s) else none

/-- A node, or a missing one before any of the given tokens. -/
def readUnless (stops : List Token) (p : Position) : Nat → Source → Option (Node × Source)
  | 0, _ => none
  | fuel + 1, s =>
    if s.next?.any stops.contains then some (.missing, s) else readNode p fuel s

/-- The items of an indented list up to its end. -/
def readItems : Nat → Source → Option (List Node × Source)
  | 0, _ => none
  | fuel + 1, s =>
    match s.tokens with
    | .entry :: _ => do
      let (n, s) ← readUnless [.entry, .blockEnd] .item fuel s.drop
      let (more, s) ← readItems fuel s
      some (n :: more, s)
    | .blockEnd :: _ => some ([], s.drop)
    | _ => none

/-- The items of a list that stands at the column of its key; it ends with the last of them. -/
def readIndentless : Nat → Source → Option (List Node × Source)
  | 0, _ => none
  | fuel + 1, s =>
    match s.tokens with
    | .entry :: _ => do
      let (n, s) ← readUnless [.entry, .key, .value, .blockEnd] .item fuel s.drop
      let (more, s) ← readIndentless fuel s
      some (n :: more, s)
    | _ => some ([], s)

/-- The entries of a block mapping up to its end. -/
def readEntries : Nat → Source → Option (List (Node × Node) × Source)
  | 0, _ => none
  | fuel + 1, s =>
    match s.tokens with
    | .key :: _ => do
      let (k, s) ← readUnless [.key, .value, .blockEnd] .inMapping fuel s.drop
      let (v, s) ← readBlockValue fuel s
      let (more, s) ← readEntries fuel s
      some ((k, v) :: more, s)
    | .blockEnd :: _ => some ([], s.drop)
    | _ => none

def readBlockValue : Nat → Source → Option (Node × Source)
  | 0, _ => none
  | fuel + 1, s =>
    match s.tokens with
    | .value :: _ => readUnless [.key, .value, .blockEnd] .inMapping fuel s.drop
    | _ => some (.missing, s)

/-- The items of a list in brackets up to its end. An entry there is a mapping of its own. -/
def readFlowItems (first : Bool) : Nat → Source → Option (List Node × Source)
  | 0, _ => none
  | fuel + 1, s =>
    if s.next? = some .flowSequenceEnd then some ([], s.drop)
    else if !first && s.next? ≠ some .flowEntry then none
    else
      let s := if first then s else s.drop
      match s.tokens with
      | .flowSequenceEnd :: _ => some ([], s.drop)
      | .key :: _ => do
        let (k, s) ← readNode .flow fuel s.drop
        let (v, s) ← readFlowValue .flowSequenceEnd fuel s
        let (more, s) ← readFlowItems false fuel s
        some (.map [(k, v)] :: more, s)
      | _ => do
        let (n, s) ← readNode .flow fuel s
        let (more, s) ← readFlowItems false fuel s
        some (n :: more, s)

/-- The entries of a mapping in braces up to its end. A key may come without a value. -/
def readFlowEntries (first : Bool) : Nat → Source → Option (List (Node × Node) × Source)
  | 0, _ => none
  | fuel + 1, s =>
    if s.next? = some .flowMappingEnd then some ([], s.drop)
    else if !first && s.next? ≠ some .flowEntry then none
    else
      let s := if first then s else s.drop
      match s.tokens with
      | .flowMappingEnd :: _ => some ([], s.drop)
      | .key :: _ => do
        let (k, s) ← readUnless [.value, .flowEntry, .flowMappingEnd] .flow fuel s.drop
        let (v, s) ← readFlowValue .flowMappingEnd fuel s
        let (more, s) ← readFlowEntries false fuel s
        some ((k, v) :: more, s)
      | _ => do
        let (k, s) ← readNode .flow fuel s
        let (more, s) ← readFlowEntries false fuel s
        some ((k, .missing) :: more, s)

def readFlowValue (close : Token) : Nat → Source → Option (Node × Source)
  | 0, _ => none
  | fuel + 1, s =>
    match s.tokens with
    | .value :: _ => readUnless [.flowEntry, close] .flow fuel s.drop
    | _ => some (.missing, s)

end

namespace Node

/-- The handles of tags that need no directive. -/
def standardHandles : List (String × String) := [("!", "!"), ("!!", "tag:yaml.org,2002:")]

/-- The directives in front of a document: at most one version, 1.1 or 1.2, and every handle at most
once. -/
def readDirectives (versioned : Bool) (handles : List (String × String)) :
    List Token → Option (List (String × String) × List Token)
  | .version major minor :: rest =>
    if versioned || major ≠ 1 || (minor ≠ 1 && minor ≠ 2) then none
    else readDirectives true handles rest
  | .handle name stem :: rest =>
    if handles.any (fun e => e.1 = name) then none
    else readDirectives versioned ((name, stem) :: handles) rest
  | ts => some (handles ++ standardHandles, ts)

def isDirective : Token → Bool
  | .version .. | .handle .. => true
  | _ => false

/-- The root of a document after its marker: a missing node if nothing stands there. -/
def readRoot (s : Source) : Option (Node × Source) :=
  match s.tokens with
  | [] | .documentStart :: _ | .documentEnd :: _ => some (.missing, s)
  | t :: _ =>
    if isDirective t then some (.missing, s) else readNode .item (4 * s.tokens.length + 4) s

/-- The only document of a stream. Directives need a marker after them, and without directives
and marker the document starts with its first node. -/
def ofTokens? (ts : List Token) : Option Node := do
  let (handles, body) ← readDirectives false [] ts
  let (root, s) ←
    match ts, body with
    | [], _ => some (Node.missing, Source.mk [] [] handles)
    | _, .documentStart :: body => readRoot ⟨body, [], handles⟩
    | t :: _, body =>
      if isDirective t then none else readNode .item (4 * ts.length + 4) ⟨body, [], handles⟩
  if s.tokens.all (· = .documentEnd) then some root else none

def parse? (text : String) : Option Node := (tokens? text.toList).bind ofTokens?

def text? : Node → Option String
  | .scalar _ _ t => some t
  | _ => none

/-- Entries whose keys are all scalars, by the text of the key. -/
def textKeys? (entries : List (Node × Node)) : Option (List (String × Node)) :=
  entries.mapM fun (k, v) => k.text?.map (·, v)

/-- A plain scalar without text, which may stand for an empty collection. -/
def isEmpty : Node → Bool
  | .scalar _ plain t => plain && t.isEmpty
  | _ => false

end Node

/-- The tag of a value that is not there. -/
def nullTag : String := "tag:yaml.org,2002:null"

/-- A string may be written as any scalar, a number as a plain one only. A list or map, and a
record without fields, may be left out altogether. -/
instance : Readable Node where
  text? := Node.text?
  natural? n := match n with
    | .scalar _ true t => (Yaml.natural? t.toList).filter (· < UInt64.size)
    | _ => none
  integer? n := match n with
    | .scalar _ true t => Yaml.integer? t.toList
    | _ => none
  absent? n := match n with
    | .scalar none true t => some (t.isEmpty || isNull t.toList)
    | .scalar (some tag) true t =>
      if tag = nullTag then (if isNull t.toList then some true else none) else some false
    | _ => some false
  items? n := match n with
    | .seq items => some items
    | n => if n.isEmpty then some [] else none
  entries? n := match n with
    | .map entries => Node.textKeys? entries
    | n => if n.isEmpty then some [] else none
  record? names n := match n with
    | .map entries => (Node.textKeys? entries).bind (Readable.pick names)
    | n => if n.isEmpty then some [] else none
  variant? n := match n with
    | .scalar none _ t => some t
    | .scalar (some tag) plain t =>
      match tag.toList with
      | '!' :: name =>
        if plain && (t.isEmpty || isNull t.toList) then some (String.ofList name) else none
      | _ => some t
    | _ => none

end BridgeOperator.Yaml
