import BridgeOperator.Api.Operator

/-!
A session with an API server whose answers are known beforehand, and a record of what was asked.
Requests take no time; only sleeping does.
-/

namespace BridgeOperator.Api

structure Session where
  /-- The answers still to be given. -/
  responses : List Response
  /-- What was asked, newest first. -/
  requests : List Request
  /-- The time that has passed. -/
  clock : Nat
  now : Instant
  /-- What fresh names end in. -/
  fresh : String
  /-- Where events are posted. -/
  eventsNamespace : String

namespace Session

def setClock (t : Nat) (s : Session) : Session := { s with clock := t }

def answer (call : ApiCall) (s : Session) : Answer call × Session :=
  match call with
  | .send r =>
    let s := { s with requests := r :: s.requests }
    match s.responses with
    | [] => (Response.none, s)
    | a :: rest => (a, { s with responses := rest })
  | .now => (s.now, s)
  | .sleep duration => ((), s.setClock (s.clock + duration))
  | .fresh => (s.fresh, s)

def carryOut {α : Type} (s : Session) (work : ApiWork α) : Except Error α × Session :=
  work.run.run answer s

def answerTarget (call : TargetCall) (s : Session) : Answer call × Session :=
  (performTarget s.eventsNamespace call).run answer s

def answerClient (call : ClientCall) (s : Session) : Answer call × Session :=
  (performClient s.eventsNamespace call).run answer s

def carryOutTarget {α : Type} (s : Session) (work : Work α) : Except Error α × Session :=
  work.run.run answerTarget s

def answerBridge (call : BridgeCall) (s : Session) : Answer call × Session :=
  match call with
  | .now => (s.now, s)
  | .sleep duration => ((), s.setClock (s.clock + duration))
  | .publish n => (quietly (publish s.eventsNamespace n)).run answer s
  | .listBridges => s.carryOut listBridges
  | .patchStatus ns name status => s.carryOut (bridges.patchStatus ns name status.toJson)
  | .addFinalizer ns name => s.carryOut (bridges.addFinalizer ns name Bridge.finalizer)
  | .removeFinalizer ns name => s.carryOut (bridges.removeFinalizer ns name Bridge.finalizer)
  | .validate p request peers => s.carryOutTarget (p.provider.validate p.binding request peers)
  | .install p => s.carryOutTarget (p.provider.install p.binding)
  | .ready p limit =>
    match (p.provider.ready p.binding).run.runUntil answerTarget Session.clock setClock
        (s.clock + limit) s with
    | (none, after) => (.late, after)
    | (some r, after) => (.finished (after.clock - s.clock) r, after)
  | .uninstall p => s.carryOutTarget (p.provider.uninstall p.binding)

end Session
end BridgeOperator.Api
