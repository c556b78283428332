import BridgeOperator.Json.Basic

/-!
The JSON merge patch of RFC 7386: objects are merged key by key, `null` removes a key, and any
other value replaces what stood there.
-/

namespace BridgeOperator.Json

/-- The value at `k` becomes `f` of the old one, or the field is dropped. -/
def setField (k : String) (v : Json) : List (String × Json) → List (String × Json)
  | [] => [(k, v)]
  | (k', v') :: rest => if k = k' then (k, v) :: rest else (k', v') :: setField k v rest

def dropField (k : String) (fields : List (String × Json)) : List (String × Json) :=
  fields.filter (fun e => e.1 ≠ k)

/-- The fields an object patch is applied to; whatever is not an object counts as an empty one. -/
def targetFields : Json → List (String × Json)
  | .obj fields => fields
  | _ => []

/-- `mergePatch patch target` is the target after the patch. -/
def mergePatch : Json → Json → Json
  | .obj changes, target => .obj (mergeFields changes (targetFields target))
  | patch, _ => patch
where
  mergeFields : List (String × Json) → List (String × Json) → List (String × Json)
    | [], fields => fields
    | (k, change) :: rest, fields =>
      mergeFields rest <|
        match change with
        | .null => dropField k fields
        | change =>
          let former := ((fields.find? (fun e => e.1 = k)).map (·.2)).getD .null
          setField k (mergePatch change former) fields

end BridgeOperator.Json
