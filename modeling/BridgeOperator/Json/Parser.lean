import BridgeOperator.Json.Lexer

/-!
Reading a JSON text. The parser walks once over the tokens and keeps the containers that are
still open on a stack, whose height is limited.
-/

namespace BridgeOperator.Json

/-- An open container with the members read so far, newest first. -/
inductive Frame where
  | arr (items : List Json)
  | obj (fields : List (String × Json)) (key : String)

/-- What may come next. -/
inductive Expect where
  | value
  | valueOrClose
  | key
  | keyOrClose
  | colon (key : String)
  | separator
  | finished (j : Json)

/-- Containers may be nested this deep. -/
def maxDepth : Nat := 127

/-- A value is complete: it joins the innermost open container. -/
def complete (j : Json) : List Frame → Expect × List Frame
  | [] => (.finished j, [])
  | .arr items :: rest => (.separator, .arr (j :: items) :: rest)
  | .obj fields key :: rest => (.separator, .obj ((key, j) :: fields) key :: rest)

def beginValue (t : Token) (stack : List Frame) : Option (Expect × List Frame) :=
  match t with
  | .scalar j => some (complete j stack)
  | .openArr =>
    if stack.length < maxDepth then some (.valueOrClose, .arr [] :: stack) else none
  | .openObj =>
    if stack.length < maxDepth then some (.keyOrClose, .obj [] "" :: stack) else none
  | _ => none

def closeArr : List Frame → Option (Expect × List Frame)
  | .arr items :: rest => some (complete (.arr items.reverse) rest)
  | _ => none

def closeObj : List Frame → Option (Expect × List Frame)
  | .obj fields _ :: rest => some (complete (.obj fields.reverse) rest)
  | _ => none

def parseStep (expect : Expect) (stack : List Frame) (t : Token) :
    Option (Expect × List Frame) :=
  match expect, t with
  | .value, t => beginValue t stack
  | .valueOrClose, .closeArr => closeArr stack
  | .valueOrClose, t => beginValue t stack
  | .key, .scalar (.str k) | .keyOrClose, .scalar (.str k) => some (.colon k, stack)
  | .keyOrClose, .closeObj => closeObj stack
  | .colon k, .colon =>
    match stack with
    | .obj fields _ :: rest => some (.value, .obj fields k :: rest)
    | _ => none
  | .separator, .comma =>
    match stack with
    | .arr _ :: _ => some (.value, stack)
    | .obj _ _ :: _ => some (.key, stack)
    | [] => none
  | .separator, .closeArr => closeArr stack
  | .separator, .closeObj => closeObj stack
  | _, _ => none

def parseAll : Expect → List Frame → List Token → Option Json
  | .finished j, _, [] => some j
  | _, _, [] => none
  | expect, stack, t :: rest =>
    (parseStep expect stack t).bind fun next => parseAll next.1 next.2 rest

/-- The value of a JSON text; `none` if the text is not JSON. -/
def parse? (text : String) : Option Json :=
  (tokens? text.toList).bind (parseAll .value [])

end BridgeOperator.Json
