import BridgeOperator.Json.Parser
import BridgeOperator.Program
import BridgeOperator.Readable
import BridgeOperator.Time.Instant

/-!
Requests to the Kubernetes API, and how their answers are told apart.
-/

namespace BridgeOperator.Api

inductive Method where
  | get
  | post
  | patch
  | delete
  deriving DecidableEq, Repr

def Method.text : Method → String
  | .get => "GET"
  | .post => "POST"
  | .patch => "PATCH"
  | .delete => "DELETE"

structure Request where
  method : Method
  path : String
  query : List (String × String)
  contentType : Option String
  body : Option Json

/-- The streams of a command that was run in a container, and the status it ended with. -/
structure Execution where
  stdout : String
  stderr : String
  status : Option String

inductive Response where
  | text (status : Nat) (body : String)
  | streams (e : Execution)
  | none

/-- What the operator asks of the API server, the clock and the source of fresh names. -/
inductive ApiCall where
  | send (r : Request)
  | now
  | sleep (duration : Nat)
  | fresh

def ApiCall.Result : ApiCall → Type
  | send _ => Response
  | now => Instant
  | sleep _ => Unit
  | fresh => String

instance : Calls ApiCall := ⟨ApiCall.Result⟩

abbrev ApiWork (α : Type) : Type := Attempt ApiCall α

/-- The status an API server reports a failure with. -/
def readStatus (j : Json) : Option ApiStatus := do
  let f ← Readable.record? ["status", "message", "reason", "code"] j
  some {
    status := ← Readable.required f "status" Json.str?
    message := ← Readable.withDefault f "message" "" Json.str?
    reason := ← Readable.withDefault f "reason" "" Json.str?
    code := (← Readable.required f "code" Readable.uint16?).toNat }

/-- The failure of an answer with a status from 400 to 599, reported as JSON or as it is. -/
def failure (status : Nat) (body : String) : ApiStatus :=
  match (Json.parse? body).bind readStatus with
  | some s => s
  | none => {
      status := httpStatusText status
      message := Text.quoted body
      reason := "Failed to parse error data"
      code := status }

/-- The text of an answer that reports no failure. -/
def Response.success : Response → Except Error String
  | .text status body =>
    if 400 ≤ status ∧ status < 600 then .error (.kube (.api (failure status body))) else .ok body
  | .streams _ => .ok ""
  | .none => .error (.kube .noAnswer)

/-- Send a request and return the text of its answer. -/
def sendText (r : Request) : ApiWork String := do
  let response ← Attempt.always (.perform (ApiCall.send r))
  response.success

def decode {α : Type} (read : Json → Option α) (text : String) : Except Error α :=
  match (Json.parse? text).bind read with
  | some a => .ok a
  | none => .error (.kube .unreadable)

/-- Send a request and read its answer. -/
def send {α : Type} (r : Request) (read : Json → Option α) : ApiWork α := do
  decode read (← sendText r)

end BridgeOperator.Api
