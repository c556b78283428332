import BridgeOperator.Bridge.Reconcile
import BridgeOperator.Proofs.Program

/-!
What a pass over a bridge may do, call by call. A `Phase` says how far a pass has come and holds
the status it builds on; `BridgePass.Does` gives the calls that are possible there and the phase
that each answer leads to. Every fact about passes is derived from this table, and
`reconcile_keeps` (module `Conformance`) says that reconciling a bridge keeps to it.
-/

namespace BridgeOperator

namespace BridgePass

/-- How far a pass has come, with the status that is stored (`s`) and what it knows by then. -/
inductive Phase where
  /-- The finalizer is to be added. -/
  | claiming
  /-- The spec has changed, and what the former one installed is to be taken down. -/
  | replacing (former : BoundProvider)
  | reopening
  | asking (s : BridgeStatus) (provider : BoundProvider)
  | checking (s : BridgeStatus) (provider : BoundProvider) (peers : List Bridge)
  | admitted (s : BridgeStatus) (provider : BoundProvider)
  /-- ERROR is to be stored for `e`. -/
  | failing (s : BridgeStatus) (e : Error)
  | mounting (s : BridgeStatus) (provider : BoundProvider)
  | waiting (s : BridgeStatus) (provider : BoundProvider)
  /-- The provider is ready, and INSTALLED is to be stored. -/
  | settling (s : BridgeStatus)
  | noting (s : BridgeStatus) (message : String)
  | mounted (s : BridgeStatus)
  | watching (s : BridgeStatus) (provider : BoundProvider)
  | drifted (s : BridgeStatus)
  /-- The bridge is deleted, and what it installed is to be taken down. -/
  | dismantling (former : BoundProvider)
  | dismissing
  | releasing
  | over

/-- A phase, and the last reading of the clock. -/
structure Moment where
  phase : Phase
  read : Option Instant

/-- The status that is stored on entering a state. -/
def entering (s : BridgeStatus) (state : BridgeState) (message : Option String) (now : Instant) :
    BridgeStatus :=
  (s.transition state message now).withReady state (message.getD "") now

variable (p : BridgePass)

/-- Where a pass goes on from a stored status. -/
def standing (s : BridgeStatus) : Phase :=
  match s.state, p.bridge.provider p.context with
  | .requested, .ok provider => .asking s provider
  | .requested, .error e => if e.isRetryable then .over else .failing (p.withSpec s) e
  | .installing, .ok provider => .mounting s provider
  | .installing, .error e => if e.isRetryable then .over else .failing s e
  | .installed, _ => .mounted s
  | .active, .ok provider => .watching s provider
  | .active, .error _ => .over
  | .error, _ => .over
  | .removed, _ => .over

/-- Where a claimed live bridge is taken up. -/
def opening : Phase :=
  let s := p.bridge.statusOrInitial
  if p.bridge.specChanged && s.state ≠ .requested && s.state ≠ .removed then
    if s.everInstalled then
      match p.bridge.applied.provider p.context with
      | .ok former => .replacing former
      | .error _ => .reopening
    else .reopening
  else p.standing s

/-- Where a deleted bridge is taken up. -/
def closing : Phase :=
  if p.bridge.statusOrInitial.everInstalled then
    match p.bridge.applied.provider p.context with
    | .ok former => .dismantling former
    | .error _ => .dismissing
  else .dismissing

/-- The pass that reconciling a stored bridge makes. -/
def ofBridge (ctx : BridgeContext) (b : Bridge) : BridgePass :=
  ⟨ctx, b, b.metadata.namespaceName.getD ""⟩

/-- Where reconciling a bridge begins. A bridge without a namespace is left alone. -/
def entry : Phase :=
  if p.bridge.metadata.namespaceName.isNone then .over
  else if p.bridge.metadata.deletionTimestamp.isSome then
    if p.bridge.metadata.hasFinalizer Bridge.finalizer then p.closing else .over
  else if p.bridge.metadata.hasFinalizer Bridge.finalizer then p.opening
  else .claiming

/-- The status that is stored next at the given reading of the clock, if that is what the phase is
for. -/
def Phase.pending : Phase → Option Instant → Option BridgeStatus
  | .reopening, some t => some (entering p.bridge.statusOrInitial .requested (some "spec changed") t)
  | .admitted s _, some t => some (entering (p.withSpec s) .installing none t)
  | .failing s e, some t => some (entering s .error (some e.message) t)
  | .settling s, some t => some (entering s .installed none t)
  | .noting s message, _ => some { s with message := some message }
  | .mounted s, some t => some (entering s .active none t)
  | .drifted s, some t => some (entering s .installing (some "reinstalling after drift") t)
  | .dismissing, some t =>
    some (p.bridge.statusOrInitial.transition .removed (some "bridge removed") t)
  | _, _ => none

/-- Where storing the status `s` leads to. Whatever ends in ERROR, ACTIVE or with a message is
over then. -/
def Phase.stored : Phase → BridgeStatus → Phase
  | .reopening, s => p.standing s
  | .admitted _ _, s => p.standing s
  | .settling _, s => p.standing s
  | .drifted _, s => p.standing s
  | .dismissing, _ => .releasing
  | _, _ => .over

/-- Where a status that could not be stored leads to. -/
def Phase.unstored : Phase → Phase
  | .dismissing => .releasing
  | _ => .over

/-- What a pass may do. The clock is read, notices are published and time is waited at any
moment. -/
inductive Does : Protocol BridgeCall Moment
  | now (φ : Phase) (t : Option Instant) (t' : Instant) : Does ⟨φ, t⟩ .now t' ⟨φ, some t'⟩
  | publish (m : Moment) (n : Kube.Notice) (r : Unit) : Does m (.publish n) r m
  | sleep (m : Moment) (d : Nat) (r : Unit) : Does m (.sleep d) r m
  | claim (t : Option Instant) :
      Does ⟨.claiming, t⟩ (.addFinalizer p.namespaceName p.bridge.name) (.ok ()) ⟨p.opening, t⟩
  | unclaimed (t : Option Instant) (e : Error) :
      Does ⟨.claiming, t⟩ (.addFinalizer p.namespaceName p.bridge.name) (.error e) ⟨.over, t⟩
  | replace (former : BoundProvider) (t : Option Instant) (r : Except Error Unit) :
      Does ⟨.replacing former, t⟩ (.uninstall former) r ⟨.reopening, t⟩
  | list (s : BridgeStatus) (provider : BoundProvider) (t : Option Instant)
      (peers : List Bridge) :
      Does ⟨.asking s provider, t⟩ .listBridges (.ok peers) ⟨.checking s provider peers, t⟩
  | unlisted (s : BridgeStatus) (provider : BoundProvider) (t : Option Instant) (e : Error) :
      Does ⟨.asking s provider, t⟩ .listBridges (.error e) ⟨.over, t⟩
  | accept (s : BridgeStatus) (provider : BoundProvider) (peers : List Bridge)
      (t : Option Instant) :
      Does ⟨.checking s provider peers, t⟩ (.validate provider p.bridge peers) (.ok ())
        ⟨.admitted s provider, t⟩
  | reject (s : BridgeStatus) (provider : BoundProvider) (peers : List Bridge)
      (t : Option Instant) (e : Error) (he : e.isRetryable = false) :
      Does ⟨.checking s provider peers, t⟩ (.validate provider p.bridge peers) (.error e)
        ⟨.failing (p.withSpec s) e, t⟩
  | postpone (s : BridgeStatus) (provider : BoundProvider) (peers : List Bridge)
      (t : Option Instant) (e : Error) (he : e.isRetryable = true) :
      Does ⟨.checking s provider peers, t⟩ (.validate provider p.bridge peers) (.error e)
        ⟨.over, t⟩
  | mount (s : BridgeStatus) (provider : BoundProvider) (t : Option Instant) :
      Does ⟨.mounting s provider, t⟩ (.install provider) (.ok ()) ⟨.waiting s provider, t⟩
  | unmounted (s : BridgeStatus) (provider : BoundProvider) (t : Option Instant) (e : Error)
      (he : e.isRetryable = false) :
      Does ⟨.mounting s provider, t⟩ (.install provider) (.error e) ⟨.failing s e, t⟩
  | mountLater (s : BridgeStatus) (provider : BoundProvider) (t : Option Instant) (e : Error)
      (message : String) (he : e.isRetryable = true) :
      Does ⟨.mounting s provider, t⟩ (.install provider) (.error e) ⟨.noting s message, t⟩
  | poll (s : BridgeStatus) (provider : BoundProvider) (t : Option Instant) (limit : Nat)
      (r : Timed (Except Error Bool)) :
      Does ⟨.waiting s provider, t⟩ (.ready provider limit) r ⟨.waiting s provider, t⟩
  | ready (s : BridgeStatus) (provider : BoundProvider) (t : Option Instant)
      (limit elapsed : Nat) :
      Does ⟨.waiting s provider, t⟩ (.ready provider limit) (.finished elapsed (.ok true))
        ⟨.settling s, t⟩
  | broken (s : BridgeStatus) (provider : BoundProvider) (t : Option Instant)
      (limit elapsed : Nat) (e : Error) (he : e.isRetryable = false) :
      Does ⟨.waiting s provider, t⟩ (.ready provider limit) (.finished elapsed (.error e))
        ⟨.failing s e, t⟩
  | expire (s : BridgeStatus) (provider : BoundProvider) (t : Option Instant) (limit : Nat)
      (r : Timed (Except Error Bool)) (message : String) :
      Does ⟨.waiting s provider, t⟩ (.ready provider limit) r ⟨.noting s message, t⟩
  | expireAsleep (s : BridgeStatus) (provider : BoundProvider) (t : Option Instant) (d : Nat)
      (r : Unit) (message : String) :
      Does ⟨.waiting s provider, t⟩ (.sleep d) r ⟨.noting s message, t⟩
  | intact (s : BridgeStatus) (provider : BoundProvider) (t : Option Instant) (limit : Nat)
      (r : Timed (Except Error Bool)) :
      Does ⟨.watching s provider, t⟩ (.ready provider limit) r ⟨.over, t⟩
  | drift (s : BridgeStatus) (provider : BoundProvider) (t : Option Instant)
      (limit elapsed : Nat) :
      Does ⟨.watching s provider, t⟩ (.ready provider limit) (.finished elapsed (.ok false))
        ⟨.drifted s, t⟩
  | store (φ : Phase) (t : Option Instant) (s : BridgeStatus) (hs : φ.pending p t = some s) :
      Does ⟨φ, t⟩ (.patchStatus p.namespaceName p.bridge.name s) (.ok ()) ⟨φ.stored p s, t⟩
  | lose (φ : Phase) (t : Option Instant) (s : BridgeStatus) (e : Error)
      (hs : φ.pending p t = some s) :
      Does ⟨φ, t⟩ (.patchStatus p.namespaceName p.bridge.name s) (.error e) ⟨φ.unstored, t⟩
  | dismantle (former : BoundProvider) (t : Option Instant) (r : Except Error Unit) :
      Does ⟨.dismantling former, t⟩ (.uninstall former) r ⟨.dismissing, t⟩
  | release (t : Option Instant) (r : Except Error Unit) :
      Does ⟨.releasing, t⟩ (.removeFinalizer p.namespaceName p.bridge.name) r ⟨.over, t⟩

end BridgePass
end BridgeOperator
