import BridgeOperator.SortedMap

/-!
JSON values. Objects keep their fields in the order and number in which they were written, so a
reader can tell a repeated field from a single one.
-/

namespace BridgeOperator

inductive Json where
  | null
  | bool (b : Bool)
  | int (n : Int)
  | float (x : Float)
  | str (s : String)
  | arr (items : List Json)
  | obj (fields : List (String × Json))
  deriving Inhabited, BEq

namespace Json

/-- Drop the fields that hold `null`, at every depth. -/
def prune : Json → Json
  | .arr items => .arr (pruneItems items)
  | .obj fields => .obj (pruneFields fields)
  | j => j
where
  pruneItems : List Json → List Json
    | [] => []
    | j :: rest => prune j :: pruneItems rest
  pruneFields : List (String × Json) → List (String × Json)
    | [] => []
    | (_, .null) :: rest => pruneFields rest
    | (k, j) :: rest => (k, prune j) :: pruneFields rest

/-- Sort the fields of every object by key; of a repeated field the last one counts. -/
def sortFields : Json → Json
  | .arr items => .arr (sortItems items)
  | .obj fields => .obj (SortedMap.ofList (sortEach fields)).toList
  | j => j
where
  sortItems : List Json → List Json
    | [] => []
    | j :: rest => sortFields j :: sortItems rest
  sortEach : List (String × Json) → List (String × Json)
    | [] => []
    | (k, j) :: rest => (k, sortFields j) :: sortEach rest

def field? : Json → String → Option Json
  | .obj fields, k => (fields.find? (fun e => e.1 = k)).map (·.2)
  | _, _ => none

def str? : Json → Option String
  | .str s => some s
  | _ => none

def bool? : Json → Option Bool
  | .bool b => some b
  | _ => none

def int? : Json → Option Int
  | .int n => some n
  | _ => none

def arr? : Json → Option (List Json)
  | .arr items => some items
  | _ => none

def obj? : Json → Option (List (String × Json))
  | .obj fields => some fields
  | _ => none

/-- An object of the fields that have a value. -/
def objOf (fields : List (String × Option Json)) : Json :=
  .obj (fields.filterMap fun e => e.2.map (e.1, ·))

def ofStrings (items : List String) : Json := .arr (items.map .str)

def ofStringMap (m : SortedMap String) : Json := .obj (m.mapValues .str).toList

/-- The step of a JSON pointer: a field of an object or a position in a list. -/
def child? (j : Json) (step : String) : Option Json :=
  match j with
  | .obj _ => j.field? step
  | .arr items =>
    if step.startsWith "+" || (step.startsWith "0" && step ≠ "0") then none
    else if step.toList.all Char.isDigit then step.toNat?.bind (items[·]?) else none
  | _ => none

/-- In a pointer `~1` stands for a slash and `~0` for a tilde. -/
def unescapeStep : List Char → List Char
  | '~' :: '1' :: rest => '/' :: unescapeStep rest
  | '~' :: '0' :: rest => '~' :: unescapeStep rest
  | c :: rest => c :: unescapeStep rest
  | [] => []

/-- The value a JSON pointer names. -/
def pointer? (j : Json) (path : String) : Option Json :=
  if path.isEmpty then some j
  else if path.startsWith "/" then
    ((path.splitOn "/").drop 1).foldlM
      (fun v step => v.child? (String.ofList (unescapeStep step.toList))) j
  else none

end Json
end BridgeOperator
