import BridgeOperator.Api.Session
import BridgeOperator.Bridge.Reconcile
import BridgeOperator.Client.Reconcile
import BridgeOperator.Provider.Standard

/-!
The loop of a controller: list the objects, then reconcile each whenever its last reconciliation
asked for it, for as long as the loop runs.
-/

namespace BridgeOperator.Api

/-- What the loop of a controller did: whether it came to watch, and the session after it. -/
structure Loop where
  watched : Bool
  session : Session

namespace Session

/-- Reconcile an object again and again until the deadline. The time to the next round is a matter
of whole milliseconds, and none comes after a panic; `fuel` bounds the rounds. -/
def follow {C α : Type} [Calls C] (reconcile : α → Prog C (Except Error Action))
    (answer : (c : C) → Session → Answer c × Session) (deadline : Nat) (a : α) :
    Nat → Session → Session
  | 0, s => s
  | fuel + 1, s =>
    match (reconcile a).runUntil answer Session.clock setClock deadline s with
    | (none, s) => s
    | (some result, s) =>
      let action := match result with
        | .ok action => action
        | .error (.panic _) => .awaitChange
        | .error e => errorPolicy e
      match action with
      | .awaitChange => s
      | .requeue after =>
        let next := s.clock + Duration.millis ((after + 999999) / 1000000)
        if next ≤ deadline then follow reconcile answer deadline a fuel (s.setClock next) else s

/-- The loop over the objects of one resource, for so many milliseconds. -/
def control {C α : Type} [Calls C] (r : Resource α)
    (reconcile : α → Prog C (Except Error Action))
    (answer : (c : C) → Session → Answer c × Session) (millis : Nat) (s : Session) : Loop :=
  match s.carryOut (r.listAt r.everywhere [("limit", "500")]) with
  | (.error _, s) => ⟨false, s⟩
  | (.ok objects, s) =>
    let deadline := s.clock + Duration.millis millis
    ⟨true, objects.foldl
      (fun s a => follow reconcile answer deadline a (millis + 1) s) s⟩

def controlBridges (config : OperatorConfig) (millis : Nat) (s : Session) : Loop :=
  s.control bridges (fun b => (b.reconcile ⟨config, Registry.standard⟩).run) answerBridge millis

def controlClients (config : OperatorConfig) (millis : Nat) (s : Session) : Loop :=
  s.control clients (fun c => (c.reconcile config).run) answerClient millis

end Session
end BridgeOperator.Api
