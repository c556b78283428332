import BridgeOperator.Carrier.Config
import BridgeOperator.Cluster.Controllers
import BridgeOperator.Proofs.Program
import Mathlib.Logic.Function.Basic

/-!
The outside of the passes over bridges: the bridges that are stored, and what their installs have
made in the cluster. It answers every call, and nothing is determined about its answers but what
they say of itself: a call that is answered with an error may have had its effect or not. The files
of the sidecars are kept as they were written, so that what an uninstall reads is what an install
has left there; but only if nobody else writes to them (`Estate.undisturbed`).
-/

namespace BridgeOperator

open Kube (Controller)

/-- Where a bridge is stored. -/
structure Address where
  namespaceName : String
  name : String
  deriving DecidableEq

def Bridge.address (b : Bridge) : Address := ⟨b.metadata.namespaceName.getD "", b.name⟩

/-- An object that an install makes in the cluster. -/
inductive Asset where
  | workload (c : Controller) (namespaceName name : String)
  | service (namespaceName name : String)
  deriving DecidableEq

/-- Something that an install leaves in the cluster. -/
inductive Fixture where
  | object (a : Asset)
  /-- A route to the bridge of a name in the configuration of a sidecar. -/
  | route (sidecar : ContainerId) (bridge : String)
  deriving DecidableEq

/-- Who wrote a fixture: a bridge, known by its address and uid, or somebody else. -/
inductive Writer where
  | bridge (a : Address) (uid : Option String)
  | stranger
  deriving DecidableEq

def Bridge.writer (b : Bridge) : Writer := .bridge b.address b.metadata.uid

/-- What stands in the cluster, and who wrote it last. -/
structure Estate where
  objects : Asset → Option Writer
  /-- What is in the files the sidecars read. -/
  documents : ContainerId → Option String
  /-- Who wrote the route to the bridge of a name, where there is one. -/
  routers : ContainerId → String → Writer
  /-- Nobody but the operator writes to the sidecars. -/
  undisturbed : Bool

/-- What a provider is called for: to look at the cluster, to mount or to unmount. -/
inductive Errand where
  | look
  | mount
  | unmount
  deriving DecidableEq

/-- What is left by a call with the effect `done`; after an error it may not have come about. -/
def Settles {σ α : Type} (done s : σ) (r : Except Error α) (s' : σ) : Prop :=
  s' = done ∨ (∃ e, r = .error e) ∧ s' = s

/-- A call that settles keeps what its effect keeps. -/
@[elab_as_elim]
theorem Settles.elim {σ α : Type} {done s s' : σ} {r : Except Error α} {motive : σ → Prop}
    (h : Settles done s r s') (hdone : motive done) (hs : motive s) : motive s' := by
  obtain rfl | ⟨-, rfl⟩ := h
  · exact hdone
  · exact hs

namespace Estate

def empty : Estate := ⟨fun _ => none, fun _ => none, fun _ _ => .stranger, true⟩

/-- What is configured in a sidecar. A file that cannot be read counts as none. -/
def config? (e : Estate) (id : ContainerId) : Option Carrier.Config :=
  (e.documents id).bind Carrier.Config.ofYaml?

def routes (e : Estate) (id : ContainerId) (n : String) : Bool := (e.config? id).any (·.hasBridge n)

/-- Who wrote a fixture last, if it stands. The routes are those of the documents. -/
def holder (e : Estate) : Fixture → Option Writer
  | .object a => e.objects a
  | .route id n => if e.routes id n then some (e.routers id n) else none

instance : CoeFun Estate fun _ => Fixture → Option Writer := ⟨holder⟩

/-- An object is written or deleted. -/
def put (e : Estate) (a : Asset) (v : Option Writer) : Estate :=
  { e with objects := Function.update e.objects a v }

/-- A document is found in a sidecar. One that is not the operator's last was put there by somebody
else. -/
def found (e : Estate) (id : ContainerId) (document : String) : Estate :=
  if e.documents id = some document then e
  else { e with
    documents := Function.update e.documents id (some document)
    routers := Function.update e.routers id fun _ => .stranger }

/-- A sidecar is given a document on behalf of `x`. A mount writes all of its routes anew; an
unmount keeps those that stood in the name of whoever wrote them. -/
def configured (e : Estate) (x : Bridge) (errand : Errand) (id : ContainerId) (document : String) :
    Estate :=
  { e with
    documents := Function.update e.documents id (some document)
    routers := Function.update e.routers id fun n =>
      if errand = .unmount ∧ e.routes id n then e.routers id n else x.writer }

/-- How a provider that is called on behalf of `x` is answered. A file may always be missing, as
after a restart. -/
def Serves (x : Bridge) (errand : Errand) :
    (c : TargetCall) → Estate → Answer c → Estate → Prop
  | .getPod _ name, e, r, e' => e' = e ∧ ∀ pod, r = .ok (some pod) → pod.name = name
  | .applyWorkload c ns w, e, r, e' =>
    Settles (e.put (.workload c ns w.metadata.nameOrEmpty) (some x.writer)) e r e'
  | .deleteWorkload c ns name, e, r, e' => Settles (e.put (.workload c ns name) none) e r e'
  | .applyService ns s, e, r, e' =>
    Settles (e.put (.service ns s.metadata.nameOrEmpty) (some x.writer)) e r e'
  | .deleteService ns name, e, r, e' => Settles (e.put (.service ns name) none) e r e'
  | .readConfig id, e, .ok (some document), e' =>
    (e.undisturbed = true → e.documents id = some document) ∧ e' = e.found id document
  | .readConfig _, e, _, e' => e' = e
  | .applyConfig id document _, e, r, e' => Settles (e.configured x errand id document) e r e'
  | .listPods .., e, _, e' | .getWorkload .., e, _, e' | .getService .., e, _, e'
  | .processAlive _, e, _, e' | .publish _, e, _, e' | .external _, e, _, e' => e' = e

variable {e e' : Estate} {x : Bridge} {errand : Errand} {id id' : ContainerId} {n : String}
  {document : String}

@[simp] theorem empty_apply (f : Fixture) : empty f = none := by
  cases f <;> rfl

theorem holder_put (e : Estate) (a : Asset) (v : Option Writer) :
    (e.put a v).holder = Function.update e.holder (.object a) v := by
  funext f
  cases f with
  | object b =>
    by_cases hb : b = a
    · subst hb
      rw [Function.update_self]
      exact Function.update_self ..
    · rw [Function.update_of_ne (by simpa using hb)]
      exact Function.update_of_ne hb ..
  | route id n => exact (Function.update_of_ne (by simp) ..).symm

@[simp] theorem put_self (e : Estate) (a : Asset) (v : Option Writer) :
    (e.put a v) (.object a) = v := Function.update_self ..

@[simp] theorem put_of_ne {a b : Asset} (h : b ≠ a) (v : Option Writer) :
    (e.put a v) (.object b) = e (.object b) := Function.update_of_ne h ..

theorem found_eq (h : e.documents id = some document) : e.found id document = e := if_pos h

/-- The routes of a sidecar that was given a document. -/
theorem configured_route : (e.configured x errand id document) (.route id n) =
    if (Carrier.Config.ofYaml? document).any (·.hasBridge n) then
      some (if errand = .unmount ∧ e.routes id n then e.routers id n else x.writer)
    else none := by
  simp only [holder, routes, config?, configured, Function.update_self, Option.bind_some]

theorem configured_route_of_ne (h : id' ≠ id) :
    (e.configured x errand id document) (.route id' n) = e (.route id' n) := by
  have hdocument : (e.configured x errand id document).documents id' = e.documents id' :=
    Function.update_of_ne h ..
  have hrouter : (e.configured x errand id document).routers id' = e.routers id' :=
    Function.update_of_ne h ..
  have hroutes : (e.configured x errand id document).routes id' n = e.routes id' n := by
    simp only [routes, config?, hdocument]
  simp only [holder, hroutes, hrouter]

/-- What is read is what the operator has written, if nobody else writes to the sidecars. -/
theorem Serves.readConfig {r : Except Error (Option String)} (he : e.undisturbed = true)
    (h : Serves x errand (.readConfig id) e r e') :
    e' = e ∧ ∀ document, r = .ok (some document) → e.documents id = some document := by
  rcases r with error | _ | document
  · exact ⟨h, nofun⟩
  · exact ⟨h, nofun⟩
  · obtain ⟨hdocument, hfound⟩ := h
    refine ⟨hfound.trans (found_eq (hdocument he)), fun _ hr => ?_⟩
    cases hr
    exact hdocument he

theorem Serves.undisturbed {c : TargetCall} {r : Answer c} (h : Serves x errand c e r e') :
    e'.undisturbed = e.undisturbed := by
  cases c with
  | getPod ns name => exact congrArg Estate.undisturbed h.1
  | readConfig id =>
    rcases r with error | _ | document
    · exact congrArg Estate.undisturbed h
    · exact congrArg Estate.undisturbed h
    · rw [h.2, found]
      split <;> rfl
  | applyWorkload c ns w => exact Settles.elim h rfl rfl
  | deleteWorkload c ns name => exact Settles.elim h rfl rfl
  | applyService ns s => exact Settles.elim h rfl rfl
  | deleteService ns name => exact Settles.elim h rfl rfl
  | applyConfig id document level => exact Settles.elim h rfl rfl
  | _ => exact congrArg Estate.undisturbed h

end Estate

structure World where
  store : Address → Option Bridge
  estate : Estate

namespace World

/-- Change what is stored at an address, if something is. -/
def modify (w : World) (a : Address) (f : Bridge → Option Bridge) : World :=
  { w with store := Function.update w.store a ((w.store a).bind f) }

/-- A bridge after its status has been patched. -/
def patched (s : BridgeStatus) (b : Bridge) : Option Bridge := some { b with status := some s }

def claimed (b : Bridge) : Option Bridge :=
  some { b with metadata := b.metadata.addFinalizer Bridge.finalizer }

/-- A deleted bridge goes with its last finalizer. -/
def released (b : Bridge) : Option Bridge :=
  let m := b.metadata.removeFinalizer Bridge.finalizer
  if m.isReleased then none else some { b with metadata := m }

/-- A provider does its work on behalf of `x`, and nothing but the estate may change. -/
def Employs {α : Type} (x : Bridge) (errand : Errand) (work : Work α) (w : World)
    (r : Except Error α) (w' : World) : Prop :=
  w'.store = w.store ∧ work.run.Exec (Estate.Serves x errand) w.estate r w'.estate

/-- How a pass over `x` is answered. -/
def Serves (x : Bridge) : (c : BridgeCall) → World → Answer c → World → Prop
  | .patchStatus ns name s, w, r, w' => Settles (w.modify ⟨ns, name⟩ (patched s)) w r w'
  | .addFinalizer ns name, w, r, w' => Settles (w.modify ⟨ns, name⟩ claimed) w r w'
  | .removeFinalizer ns name, w, r, w' => Settles (w.modify ⟨ns, name⟩ released) w r w'
  | .validate p request peers, w, r, w' =>
    Employs x .look (p.provider.validate p.binding request peers) w r w'
  | .install p, w, r, w' => Employs x .mount (p.provider.install p.binding) w r w'
  | .ready p _, w, r, w' => ∃ v, Employs x .look (p.provider.ready p.binding) w v w' ∧
      ∀ elapsed v', r = .finished elapsed v' → v' = v
  | .uninstall p, w, r, w' => Employs x .unmount (p.provider.uninstall p.binding) w r w'
  | .now, w, _, w' | .sleep _, w, _, w' | .publish _, w, _, w' | .listBridges, w, _, w' => w' = w

end World
end BridgeOperator
