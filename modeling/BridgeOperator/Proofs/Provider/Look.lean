import BridgeOperator.Proofs.Provider.Ownership
import BridgeOperator.Proofs.World.Basic

/-!
Providers that leave the cluster as it is. Validation and readiness checks only look, and an install
writes in the name of its bridge.
-/

namespace BridgeOperator

open Kube (Controller Pod Workload)

def TargetCall.isLook : TargetCall → Bool
  | .getPod .. | .listPods .. | .getWorkload .. | .getService .. | .readConfig _
  | .processAlive _ => true
  | _ => false

namespace Work

variable {α β : Type}

/-- The work asks for nothing to be changed. -/
def Looks (work : Work α) : Prop :=
  work.run.Keeps (fun _ c _ _ => c.isLook = true) () fun _ _ => True

theorem looks_pure (a : α) : Looks (pure a : Work α) := trivial

theorem looks_throw (e : Error) : Looks (throw e : Work α) := trivial

theorem looks_lift (r : Except Error α) : Looks (liftM r : Work α) := trivial

theorem Looks.bind {x : Work α} {f : α → Work β} (hx : x.Looks) (hf : ∀ a, (f a).Looks) :
    (x >>= f).Looks := by
  unfold Looks
  rw [Attempt.keeps_bind]
  refine Prog.Keeps.mono hx fun r _ _ => ?_
  cases r with
  | ok a => exact hf a
  | error e => exact trivial

theorem looks_getPod (ns name : String) : (getPod ns name).Looks := fun _ => ⟨(), rfl, trivial⟩

theorem looks_listPods (ns selector : String) : (listPods ns selector).Looks :=
  fun _ => ⟨(), rfl, trivial⟩

theorem looks_getWorkload (c : Controller) (ns name : String) : (getWorkload c ns name).Looks :=
  fun _ => ⟨(), rfl, trivial⟩

theorem looks_getService (ns name : String) : (getService ns name).Looks :=
  fun _ => ⟨(), rfl, trivial⟩

theorem looks_readConfig (id : ContainerId) : (readConfig id).Looks := fun _ => ⟨(), rfl, trivial⟩

theorem looks_processAlive (id : ContainerId) : (processAlive id).Looks :=
  fun _ => ⟨(), rfl, trivial⟩

/-- Looking leaves everything where it is. -/
theorem Looks.exec {work : Work α} (h : work.Looks) {x : Bridge} {errand : Errand} {e e' : Estate}
    {r : Except Error α} (he : e.undisturbed = true)
    (hexec : work.run.Exec (Estate.Serves x errand) e r e') : e' = e := by
  refine Prog.Exec.invariant (I := fun e' => e' = e) ?_ h hexec rfl
  intro φ φ' c r s s' hc hserve hs
  subst hs
  cases c with
  | getPod ns name => exact hserve.1
  | listPods ns selector => exact hserve
  | getWorkload c ns name => exact hserve
  | getService ns name => exact hserve
  | readConfig id => exact (Estate.Serves.readConfig he hserve).1
  | processAlive id => exact hserve
  | _ => cases hc

end Work

open Work

theorem looks_podsForWorkload (ns : String) (target : WorkloadRef) :
    (podsForWorkload ns target).Looks := by
  unfold podsForWorkload
  cases target.kind.controller? with
  | none => exact (looks_getPod _ _).bind fun _ => looks_pure _
  | some c =>
    refine (looks_getWorkload _ _ _).bind fun w => ?_
    cases w with
    | none => exact looks_pure _
    | some w =>
      dsimp only
      split
      · exact looks_pure _
      · exact (looks_listPods _ _).bind fun _ => looks_pure _

theorem Binding.looks_pods (b : Binding) : b.pods.Looks :=
  (looks_podsForWorkload _ _).bind fun _ => looks_pure _

theorem Binding.looks_currentConfig (b : Binding) (pod : Pod) : (b.currentConfig pod).Looks :=
  (looks_readConfig _).bind fun _ => looks_pure _

theorem Duplicate.looks_validate (b : Binding) (request : Bridge) (peers : List Bridge) :
    (Duplicate.validate b request peers).Looks := by
  unfold Duplicate.validate
  refine (looks_lift _).bind fun _ => (looks_lift _).bind fun _ => (looks_lift _).bind fun _ => ?_
  cases b.target.kind.controller? with
  | none => exact looks_throw _
  | some c =>
    refine (looks_getWorkload _ _ _).bind fun base => ?_
    split
    · exact looks_throw _
    · split
      · exact looks_throw _
      · exact looks_pure _

theorem Duplicate.looks_ready (b : Binding) : (Duplicate.ready b).Looks := by
  unfold Duplicate.ready
  cases b.target.kind.controller? with
  | none => exact looks_pure _
  | some c =>
    refine (looks_getWorkload _ _ _).bind fun w => ?_
    cases w with
    | none => exact looks_pure _
    | some w =>
      dsimp only
      split
      · exact looks_pure _
      · exact (looks_getService _ _).bind fun _ => looks_pure _

theorem Sidecar.looks_validate (b : Binding) (request : Bridge) (peers : List Bridge) :
    (Sidecar.validate b request peers).Looks := by
  unfold Sidecar.validate
  refine (looks_lift _).bind fun _ => (looks_lift _).bind fun _ => ?_
  refine (looks_podsForWorkload _ _).bind fun pods => ?_
  split
  · exact looks_throw _
  · exact looks_throw _
  · exact looks_lift _

theorem Sidecar.looks_readyEach (b : Binding) (pods : List Pod) :
    (Sidecar.readyEach b pods).Looks := by
  induction pods with
  | nil => exact looks_pure _
  | cons pod rest ih =>
    unfold Sidecar.readyEach
    split
    · exact looks_pure _
    · refine (looks_lift _).bind fun desired => ?_
      refine (b.looks_currentConfig pod).bind fun current => ?_
      split
      · exact looks_pure _
      · refine (looks_processAlive _).bind fun alive => ?_
        split
        · exact looks_pure _
        · exact ih

theorem Sidecar.looks_ready (b : Binding) : (Sidecar.ready b).Looks := by
  unfold Sidecar.ready
  refine b.looks_pods.bind fun pods => ?_
  split
  · exact looks_pure _
  · exact Sidecar.looks_readyEach b pods

/-- A fixture is left alone, written in the name of the bridge, or gone. -/
def Estate.Writes (x : Bridge) (f : Fixture) (e e' : Estate) : Prop :=
  e' f = e f ∨ e' f = some x.writer ∨ e' f = none

theorem Estate.Writes.put {x : Bridge} {f : Fixture} {e : Estate} {a : Asset} {v : Option Writer}
    (hv : v = some x.writer ∨ v = none) : Writes x f e (e.put a v) := by
  unfold Writes
  rw [holder_put]
  by_cases hf : f = .object a
  · subst hf
    rw [Function.update_self]
    exact .inr hv
  · exact .inl (Function.update_of_ne hf ..)

theorem Estate.Writes.configured {x : Bridge} {f : Fixture} {e : Estate} {errand : Errand}
    {id : ContainerId} {document : String} :
    Writes x f e (e.configured x errand id document) := by
  cases f with
  | object a => exact .inl rfl
  | route id' n =>
    by_cases hid : id' = id
    · subst hid
      unfold Writes
      rw [configured_route]
      split
      · split
        · next hkept => exact .inl (if_pos hkept.2).symm
        · exact .inr (.inl rfl)
      · exact .inr (.inr rfl)
    · exact .inl (configured_route_of_ne hid)

/-- Whatever is asked, nothing is left behind that is newly in somebody else's name. -/
theorem Estate.Serves.writes {x : Bridge} {errand : Errand} {c : TargetCall} {r : Answer c}
    {e e' : Estate} (he : e.undisturbed = true) (h : Estate.Serves x errand c e r e')
    (f : Fixture) : Writes x f e e' := by
  have hsame : e' = e → Writes x f e e' := by
    rintro rfl
    exact .inl rfl
  cases c with
  | getPod ns name => exact hsame h.1
  | readConfig id => exact hsame (h.readConfig he).1
  | applyWorkload c ns w => exact Settles.elim h (.put (.inl rfl)) (.inl rfl)
  | deleteWorkload c ns name => exact Settles.elim h (.put (.inr rfl)) (.inl rfl)
  | applyService ns s => exact Settles.elim h (.put (.inl rfl)) (.inl rfl)
  | deleteService ns name => exact Settles.elim h (.put (.inr rfl)) (.inl rfl)
  | applyConfig id document level => exact Settles.elim h .configured (.inl rfl)
  | _ => exact hsame h

theorem Estate.exec_undisturbed {α : Type} {work : Prog TargetCall α} {x : Bridge}
    {errand : Errand} {e e' : Estate} {a : α} (h : work.Exec (Estate.Serves x errand) e a e') :
    e'.undisturbed = e.undisturbed :=
  h.preserves (I := fun e' => e'.undisturbed = e.undisturbed)
    (fun hserve hs => hserve.undisturbed.trans hs) rfl

/-- An install leaves nothing behind that is in somebody else's name. -/
theorem Estate.exec_writes {α : Type} {work : Prog TargetCall α} {x : Bridge} {errand : Errand}
    {e e' : Estate} {a : α} (he : e.undisturbed = true)
    (h : work.Exec (Estate.Serves x errand) e a e') (f : Fixture) : Writes x f e e' := by
  refine (h.preserves (I := fun e' => e'.undisturbed = true ∧ Writes x f e e') ?_
    ⟨he, .inl rfl⟩).2
  rintro c r s s' hserve ⟨hs, hwrites⟩
  refine ⟨hserve.undisturbed.trans hs, ?_⟩
  rcases hserve.writes hs f with hf | hf
  · unfold Writes
    rw [hf]
    exact hwrites
  · exact .inr hf

theorem BoundProvider.looks_validate {q : BoundProvider} (request : Bridge) (peers : List Bridge)
    (hq : q.provider = .sidecar ∨ q.provider = .duplicate) :
    (q.provider.validate q.binding request peers).Looks := by
  obtain ⟨provider, binding⟩ := q
  rcases hq with rfl | rfl
  · exact Sidecar.looks_validate binding request peers
  · exact Duplicate.looks_validate binding request peers

theorem BoundProvider.looks_ready {q : BoundProvider}
    (hq : q.provider = .sidecar ∨ q.provider = .duplicate) :
    (q.provider.ready q.binding).Looks := by
  obtain ⟨provider, binding⟩ := q
  rcases hq with rfl | rfl
  · exact Sidecar.looks_ready binding
  · exact Duplicate.looks_ready binding

end BridgeOperator
