import BridgeOperator.Proofs.Client.Deadline
import BridgeOperator.Proofs.Client.Walk

/-!
What a pass over a client may do. It writes the state the client was found in, and from there on
only states further along; what it may write, and whether it may delete the client, goes by the
stored sunset and the first reading of the clock. `reconcile_keeps` says that reconciling a client
keeps to this, whatever the calls are answered.
-/

namespace BridgeOperator

/-- The call has to do with neither the clock nor the stored client's state. -/
def ClientCall.isAside : ClientCall → Bool
  | now | patchStatus .. | deleteClient .. => false
  | _ => true

namespace ClientPass

/-- The first reading of the clock, and the state that the client was found in or that has been
written since. -/
structure Moment where
  read : Option Instant
  reached : ClientState

/-- What a pass over the client `x` may do. -/
inductive Does (x : Client) (grace : Nat) : Protocol ClientCall Moment
  | now (m : Moment) (t : Instant) : Does x grace m .now t ⟨some (m.read.getD t), m.reached⟩
  | aside (m : Moment) (c : ClientCall) (r : Answer c) (hc : c.isAside = true) :
      Does x grace m c r m
  | keep (t : Option Instant) (ns name : String) (s : ClientStatus) (r : Except Error Unit)
      (hs : s.state = x.stateOrActive) :
      Does x grace ⟨t, x.stateOrActive⟩ (.patchStatus ns name s) r ⟨t, x.stateOrActive⟩
  | wait (t : Option Instant) (ns name : String) (s : ClientStatus) (r : Except Error Unit)
      (hx : x.stateOrActive = .active) (hsunset : x.sunset? ≠ none) (hs : s.state = .waiting) :
      Does x grace ⟨t, .active⟩ (.patchStatus ns name s) r ⟨t, .waiting⟩
  | expire (t : Instant) (ns name : String) (s : ClientStatus) (r : Except Error Unit)
      (hx : x.stateOrActive = .waiting) (hdue : x.Overdue grace t) (hs : s.state = .expired) :
      Does x grace ⟨some t, .waiting⟩ (.patchStatus ns name s) r ⟨some t, .expired⟩
  | delete (t : Instant) (reached : ClientState) (ns name : String) (r : Except Error Bool)
      (hx : x.stateOrActive ≠ .active) (hdue : x.Overdue grace t) :
      Does x grace ⟨some t, reached⟩ (.deleteClient ns name) r ⟨some t, reached⟩

/-- How a pass ends is its own affair. -/
def Ends : Except Error Action → Moment → Prop := fun _ _ => True

variable {x : Client} {grace : Nat} {p : ClientPass} {s : ClientStatus} {t : Option Instant}

theorem does_publish (m : Moment) (n : Kube.Notice) (r : Answer (ClientCall.publish n)) :
    Does x grace m (.publish n) r m := .aside m _ r rfl

theorem keeps_moveToWaiting {deadline : Instant} (hx : x.stateOrActive = .active)
    (hsunset : x.sunset? ≠ none) :
    (p.moveToWaiting s deadline).run.Keeps (Does x grace) ⟨t, .active⟩ fun _ _ => True :=
  moveToWaiting_keeps does_publish fun _ now =>
    ⟨_, .now _ now, fun r => ⟨_, .wait _ _ _ _ r hx hsunset rfl⟩⟩

theorem keeps_delete {t : Instant} (hs : s.state = x.stateOrActive)
    (hx : x.stateOrActive ≠ .active) (hdue : x.Overdue grace t) :
    (p.delete s).run.Keeps (Does x grace) ⟨some t, x.stateOrActive⟩ fun _ _ => True := by
  have hend : ∀ reached, MayEnd (Does x grace) p s ⟨some t, reached⟩ := fun reached r =>
    ⟨_, .aside _ _ r rfl, fun _ _ r' => ⟨_, .delete t reached _ _ r' hx hdue⟩⟩
  refine delete_keeps does_publish (fun _ => hend _) fun hstate _ now => ?_
  have hwaiting : x.stateOrActive = .waiting := by
    rw [hs] at hstate
    cases h : x.stateOrActive <;> simp_all
  rw [hwaiting]
  exact ⟨_, .now _ now, fun r => ⟨_, .expire t _ _ _ r hwaiting hdue rfl, hend _⟩⟩

section

variable (hs : s.state = p.client.stateOrActive) (ht : t = none ∨ p.client.stateOrActive = .active)

include hs ht

/-- A pass looks at the sunset by its first reading of the clock, unless the client is new. -/
theorem keeps_supervise {now : Instant} : (p.supervise s now).run.Keeps
    (Does p.client p.config.clientGrace) ⟨some (t.getD now), p.client.stateOrActive⟩
      fun _ _ => True := by
  refine supervise_keeps (fun deadline hdecision => ?_) fun hdecision => ?_
  · obtain ⟨hactive, hsunset⟩ := Client.evaluate_eq_moveToWaiting hdecision
    rw [hactive]
    exact keeps_moveToWaiting hactive hsunset
  · obtain ⟨hactive, hdue⟩ := Client.evaluate_eq_delete hdecision
    obtain rfl := ht.resolve_right hactive
    exact keeps_delete hs hactive hdue

theorem keeps_storing : (p.storing s).run.Keeps (Does p.client p.config.clientGrace)
    ⟨t, p.client.stateOrActive⟩ Ends := by
  have hwatching : (p.watching s).run.Keeps (Does p.client p.config.clientGrace)
      ⟨t, p.client.stateOrActive⟩ fun _ _ => True :=
    watching_keeps fun now => ⟨_, .now _ now, keeps_supervise hs ht⟩
  exact storing_keeps (fun _ r => ⟨_, .keep t _ _ s r hs, fun _ => hwatching⟩) fun _ => hwatching

theorem keeps_run : (p.run s).run.Keeps (Does p.client p.config.clientGrace)
    ⟨t, p.client.stateOrActive⟩ Ends := by
  refine run_keeps (fun _ => ?_) fun _ => keeps_storing hs ht
  refine syncSecret_keeps does_publish (fun _ r => .aside _ _ r rfl) (fun _ r => .aside _ _ r rfl)
    (fun _ r => .aside _ _ r rfl) (fun s' hs' => ?_) fun e => nofun
  rintro _ ⟨⟩
  exact keeps_storing (hs'.state.trans hs) ht

end

/-- Reconciling a client does what passes may do, whatever it is answered. -/
theorem reconcile_keeps (c : Client) (config : OperatorConfig) :
    (c.reconcile config).run.Keeps (Does c config.clientGrace) ⟨none, c.stateOrActive⟩ Ends := by
  refine Client.reconcile_keeps (fun _ r => .aside _ _ r rfl) (fun _ r => .aside _ _ r rfl)
    (fun _ r => .aside _ _ r rfl) (fun hnew ns _ message now => ⟨_, .now _ now, ?_⟩) fun ns _ => ?_
  · have hactive := Client.stateOrActive_of_new hnew
    exact keeps_run (p := ⟨config, c, ns⟩) hactive.symm (.inr hactive)
  · exact keeps_run (p := ⟨config, c, ns⟩) c.state_found (.inl rfl)

end ClientPass
end BridgeOperator
