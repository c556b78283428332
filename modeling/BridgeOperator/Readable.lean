import BridgeOperator.Json.Basic

/-!
Trees that typed values are read from. JSON and YAML differ in which scalar may stand for what;
a reader written against `Readable` serves both.
-/

namespace BridgeOperator

class Readable (ν : Type) where
  text? : ν → Option String
  natural? : ν → Option Nat
  integer? : ν → Option Int
  /-- Does the node stand for an optional value that is not there? `none` if it claims to, and
  holds something. -/
  absent? : ν → Option Bool
  items? : ν → Option (List ν)
  /-- The entries of a map from strings, in the order they stand in. -/
  entries? : ν → Option (List (String × ν))
  /-- The fields of a record with the given field names; a field given twice is refused and an
  unknown one ignored. -/
  record? : List String → ν → Option (List (String × ν))
  /-- The name of a variant without contents. -/
  variant? : ν → Option String

namespace Readable

/-- Pick the known fields out of named entries. -/
def pick {ν : Type} (names : List String) : List (String × ν) → Option (List (String × ν))
  | [] => some []
  | (k, v) :: rest => do
    let more ← pick names rest
    if !names.contains k then some more
    else if more.any (fun e => e.1 = k) then none
    else some ((k, v) :: more)

variable {ν : Type} [Readable ν] {α : Type}

def lookup (fields : List (String × ν)) (k : String) : Option ν :=
  (fields.find? (fun e => e.1 = k)).map (·.2)

/-- A field that has to be there. -/
def required (fields : List (String × ν)) (k : String) (read : ν → Option α) : Option α :=
  (lookup fields k).bind read

def optional (fields : List (String × ν)) (k : String) (read : ν → Option α) :
    Option (Option α) :=
  match lookup fields k with
  | none => some none
  | some v => do if ← absent? v then some none else (read v).map some

def withDefault (fields : List (String × ν)) (k : String) (default : α) (read : ν → Option α) :
    Option α :=
  match lookup fields k with
  | none => some default
  | some v => read v

def list? (read : ν → Option α) (v : ν) : Option (List α) := (items? v).bind (·.mapM read)

def map? (read : ν → Option α) (v : ν) : Option (SortedMap α) := do
  let entries ← entries? v
  let read' ← entries.mapM fun e => (read e.2).map (e.1, ·)
  some (SortedMap.ofList read')

def uint16? (v : ν) : Option UInt16 :=
  (natural? v).bind fun n => if n < UInt16.size then some (UInt16.ofNat n) else none

def uint32? (v : ν) : Option UInt32 :=
  (natural? v).bind fun n => if n < UInt32.size then some (UInt32.ofNat n) else none

def int32? (v : ν) : Option Int32 :=
  (integer? v).bind fun n =>
    if Int32.minValue.toInt ≤ n ∧ n ≤ Int32.maxValue.toInt then some (Int32.ofInt n) else none

def int64? (v : ν) : Option Int64 :=
  (integer? v).bind fun n =>
    if Int64.minValue.toInt ≤ n ∧ n ≤ Int64.maxValue.toInt then some (Int64.ofInt n) else none

end Readable

/-- In JSON a record may also be a list of its fields in the order of their declaration, and a
variant an object with one null field. -/
instance : Readable Json where
  text? := Json.str?
  natural? j := j.int?.bind fun n => if 0 ≤ n then some n.toNat else none
  integer? := Json.int?
  absent? j := match j with
    | .null => some true
    | _ => some false
  items? := Json.arr?
  entries? := Json.obj?
  record? names j := match j with
    | .obj fields => Readable.pick names fields
    | .arr items => if items.length ≤ names.length then some (names.zip items) else none
    | _ => none
  variant? j := match j with
    | .str s => some s
    | .obj [(k, .null)] => some k
    | _ => none

end BridgeOperator
