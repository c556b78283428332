import BridgeOperator.Bridge.Reconcile
import BridgeOperator.Client.Reconcile
import BridgeOperator.Proofs.Program

/-!
Deleted objects are let go. Reconciling a deleted bridge or client that carries the finalizer ends
with the call that removes it, whatever the calls before were answered; an object that does not
carry it is left alone (`deletion_completes`).
-/

namespace BridgeOperator

/-- What is asked for after the finalizer was to be removed. -/
def Action.released : Except Error Unit → Action
  | .ok () => .awaitChange
  | .error _ => .requeue (Duration.seconds 5)

namespace Log

variable {C : Type} [Calls C]

/-- The last call of the log is this one, and no call before is of its kind. -/
def EndsOnlyWith (w : Log C) (kind : C → Bool) (c : C) (r : Answer c) : Prop :=
  ∃ before, w = before ++ [⟨c, r⟩] ∧ ∀ e ∈ before, kind e.1 = false

theorem EndsOnlyWith.prepend {w w' : Log C} {kind : C → Bool} {c : C} {r : Answer c}
    (hw : ∀ e ∈ w, kind e.1 = false) (h : w'.EndsOnlyWith kind c r) :
    (w ++ w').EndsOnlyWith kind c r := by
  obtain ⟨before, rfl, hbefore⟩ := h
  refine ⟨w ++ before, (List.append_assoc ..).symm, fun e he => ?_⟩
  exact (List.mem_append.mp he).elim (hw e) (hbefore e)

end Log

namespace BridgeCall

/-- The call lets a bridge go. -/
def isRelease : BridgeCall → Bool
  | removeFinalizer .. => true
  | _ => false

/-- The provider that is to take an installation down. -/
def uninstalls? : BridgeCall → Option BoundProvider
  | uninstall q => some q
  | _ => none

end BridgeCall

namespace Bridge

variable (b : Bridge) (ctx : BridgeContext)

/-- The providers that have something of the bridge to take down: the one of the recorded spec, if
there may be anything and it can be built. -/
def formerProviders : List BoundProvider :=
  if b.statusOrInitial.everInstalled then (b.applied.provider ctx).toOption.toList else []

/-- The log takes down what the bridge has installed, and only then lets it go. -/
structure LetGo (namespaceName : String) (v : Except Error Action) (w : Log BridgeCall) : Prop where
  tornDown : w.filterMap (·.1.uninstalls?) = b.formerProviders ctx
  released : ∃ r, w.EndsOnlyWith BridgeCall.isRelease (.removeFinalizer namespaceName b.name) r ∧
    v = .ok (.released r)

variable {b ctx} {namespaceName : String}

/-- These providers are to take something down, and nothing is let go. -/
structure Dismantled (qs : List BoundProvider) (w : Log BridgeCall) : Prop where
  providers : w.filterMap (·.1.uninstalls?) = qs
  holds : ∀ e ∈ w, e.1.isRelease = false

theorem Dismantled.nil : Dismantled [] [] := ⟨rfl, by simp⟩

theorem Dismantled.uninstall (q : BoundProvider) (r : Except Error Unit) :
    Dismantled [q] [⟨.uninstall q, r⟩] := ⟨rfl, by simp [BridgeCall.isRelease]⟩

theorem Dismantled.publish {qs : List BoundProvider} {w : Log BridgeCall} (h : Dismantled qs w)
    (n : Kube.Notice) (told : Unit) : Dismantled qs (w ++ [⟨.publish n, told⟩]) where
  providers := by
    rw [List.filterMap_append, h.providers]
    exact List.append_nil _
  holds e he := by
    rcases List.mem_append.mp he with he | he
    · exact h.holds e he
    · obtain rfl := List.mem_singleton.mp he
      rfl

theorem yields_tearDown :
    (b.tearDown ctx).run.Yields fun _ w =>
      Dismantled (b.applied.provider ctx).toOption.toList w := by
  unfold tearDown
  rw [Attempt.yields_bind]
  cases b.applied.provider ctx with
  | error e => exact .nil
  | ok former =>
    intro r
    cases r <;> exact .uninstall former _

theorem Dismantled.yields_warn {qs : List BoundProvider} {w : Log BridgeCall} (h : Dismantled qs w)
    (reason note : String) :
    (b.warn reason note).run.Yields fun v w' => v = .ok () ∧ Dismantled qs (w ++ w') :=
  fun told => ⟨rfl, h.publish _ told⟩

/-- A teardown that fails is reported, and that is all. -/
theorem yields_tearDownDeleted :
    (b.tearDownDeleted ctx).run.Yields fun v w =>
      v = .ok () ∧ Dismantled (b.formerProviders ctx) w := by
  unfold tearDownDeleted formerProviders
  split
  · show (_ >>= _ : BridgeWork Unit).run.Yields _
    rw [Attempt.yields_bind, Attempt.yields_outcome]
    refine yields_tearDown.mono fun r w hw => ?_
    cases r with
    | ok u => exact ⟨rfl, by rwa [List.append_nil]⟩
    | error e => exact hw.yields_warn _ _
  · exact ⟨rfl, .nil⟩

theorem yields_remove (hns : b.metadata.namespaceName = some namespaceName)
    (hfin : b.metadata.hasFinalizer finalizer = true) :
    (b.remove ctx).run.Yields (b.LetGo ctx namespaceName) := by
  unfold remove
  rw [hns]
  simp only [hfin, Bool.not_true, Bool.false_eq_true, if_false]
  show (_ >>= _ : BridgeWork Action).run.Yields _
  rw [Attempt.yields_bind]
  refine yields_tearDownDeleted.mono fun v w ⟨hv, hw⟩ => ?_
  subst hv
  have hletGo : ∀ now recorded told r s n, b.LetGo ctx namespaceName (.ok (.released r)) (w ++
      [⟨.now, now⟩, ⟨.patchStatus namespaceName b.name s, recorded⟩, ⟨.publish n, told⟩,
        ⟨.removeFinalizer namespaceName b.name, r⟩]) := by
    intro now recorded told r s n
    refine ⟨?_, r, .prepend hw.holds ⟨[_, _, _], rfl, ?_⟩, rfl⟩
    · rw [List.filterMap_append, hw.providers]
      exact List.append_nil _
    · simp [BridgeCall.isRelease]
  intro now recorded told r
  cases r with
  | ok u => exact hletGo now recorded told (.ok u) _ _
  | error e => exact hletGo now recorded told (.error e) _ _

end Bridge

namespace Client

variable {c : Client} {namespaceName : String}

/-- The bridges go first, then the client. -/
def LetGo (c : Client) (namespaceName : String) (v : Except Error Action) (w : Log ClientCall) :
    Prop :=
  ∃ deleted r, w = [⟨.deleteBridgesOf namespaceName c.name, deleted⟩,
    ⟨.removeFinalizer namespaceName c.name, r⟩] ∧ v = .ok (.released r)

theorem yields_remove (hns : c.metadata.namespaceName = some namespaceName)
    (hfin : c.metadata.hasFinalizer finalizer = true) :
    c.remove.run.Yields (c.LetGo namespaceName) := by
  unfold remove
  rw [hns]
  simp only [hfin, Bool.not_true, Bool.false_eq_true, if_false]
  intro deleted r
  cases r with
  | ok u => exact ⟨deleted, .ok u, rfl, rfl⟩
  | error e => exact ⟨deleted, .error e, rfl, rfl⟩

end Client

open Kube (Metadata)

/-- The object is being deleted, and this is its namespace. -/
structure Kube.Metadata.Leaving (m : Metadata) (namespaceName : String) : Prop where
  deleted : m.deletionTimestamp.isSome = true
  placed : m.namespaceName = some namespaceName

/-- The reconciliation was over before it asked for anything. -/
def LeftAlone {C : Type} [Calls C] (v : Except Error Action) (w : Log C) : Prop :=
  v = .ok .awaitChange ∧ w = []

theorem Bridge.leftAlone_remove {b : Bridge} {ctx : BridgeContext} {namespaceName : String}
    (hns : b.metadata.namespaceName = some namespaceName)
    (hfin : b.metadata.hasFinalizer finalizer = false) : (b.remove ctx).run.Yields LeftAlone := by
  unfold remove
  rw [hns]
  simp only [hfin, Bool.not_false, if_true]
  exact ⟨rfl, rfl⟩

theorem Client.leftAlone_remove {c : Client} {namespaceName : String}
    (hns : c.metadata.namespaceName = some namespaceName)
    (hfin : c.metadata.hasFinalizer finalizer = false) : c.remove.run.Yields LeftAlone := by
  unfold remove
  rw [hns]
  simp only [hfin, Bool.not_false, if_true]
  exact ⟨rfl, rfl⟩

/-- **Deletion completes.** Whatever its calls are answered, reconciling a deleted object succeeds.
If the object carries the finalizer, everything else is tried first, the last call is the only one
that removes the finalizer, and only its answer decides when to look again. If it does not, nothing
is called at all. -/
theorem deletion_completes (namespaceName : String) :
    (∀ (b : Bridge) (ctx : BridgeContext), b.metadata.Leaving namespaceName →
      (b.reconcile ctx).run.Yields (if b.metadata.hasFinalizer Bridge.finalizer
        then b.LetGo ctx namespaceName else LeftAlone)) ∧
    ∀ (c : Client) (config : OperatorConfig), c.metadata.Leaving namespaceName →
      (c.reconcile config).run.Yields (if c.metadata.hasFinalizer Client.finalizer
        then c.LetGo namespaceName else LeftAlone) := by
  constructor
  · intro b ctx ⟨hdeleted, hplaced⟩
    rw [Bridge.reconcile, if_pos hdeleted]
    split
    case isTrue hfin => exact Bridge.yields_remove hplaced hfin
    case isFalse hfin => exact Bridge.leftAlone_remove hplaced (by simpa using hfin)
  · intro c config ⟨hdeleted, hplaced⟩
    rw [Client.reconcile, if_pos hdeleted]
    split
    case isTrue hfin => exact Client.yields_remove hplaced hfin
    case isFalse hfin => exact Client.leftAlone_remove hplaced (by simpa using hfin)

namespace Sample

/-- The metadata of something that is being deleted. -/
def departing (finalizer : String) : Metadata :=
  { Metadata.empty with
    name := some "old"
    namespaceName := some "gefyra"
    deletionTimestamp := some ⟨1767225600, 0⟩
    finalizers := some [finalizer] }

theorem leaving_departing (finalizer : String) : (departing finalizer).Leaving "gefyra" :=
  ⟨rfl, rfl⟩

/-- An active bridge whose record no longer says what was installed. -/
def forgotten : Bridge where
  metadata := departing Bridge.finalizer
  spec := ⟨"duplicate", "default", "deploy/shop", "app", .empty, none⟩
  status := some { BridgeStatus.initial with state := .active, lastAppliedSpec := some "?" }

/-- A client that never got a status. -/
def newcomer : Client where
  metadata := departing Client.finalizer
  spec := ⟨ClientSpec.defaultProvider, none, none⟩
  status := none

end Sample

open Sample in
/-- Neither an unreadable record nor a missing status keeps an object, and there need not be any
provider. -/
theorem deletion_completes_departing :
    (forgotten.reconcile ⟨.default, ∅⟩).run.Yields (forgotten.LetGo ⟨.default, ∅⟩ "gefyra") ∧
      (newcomer.reconcile .default).run.Yields (newcomer.LetGo "gefyra") :=
  ⟨(deletion_completes "gefyra").1 forgotten ⟨.default, ∅⟩ (leaving_departing _),
    (deletion_completes "gefyra").2 newcomer .default (leaving_departing _)⟩

end BridgeOperator
