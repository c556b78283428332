import BridgeOperator.Proofs.World.Serial
import BridgeOperator.Proofs.World.Verdict

/-!
Who has a container and who may have it are told from different specs: a bridge has what is
recorded, while a request is compared with the specs as they stand. Serial runs keep the recorded
targets of bridges apart except where a request slips through between the two, because a bridge was
edited and has not been passed over since (`Move.Lapses`).
-/

namespace BridgeOperator

open BridgePass (ofBridge Moment Phase)

/-- No two bridges hold what is recorded as one container. -/
def World.Exclusive (w : World) : Prop :=
  ∀ a a' b c, a ≠ a' → w.store a = some b → w.store a' = some c → b.state.holdsTarget = true →
    c.state.holdsTarget = true → b.applied.sameTarget c.applied = false

/-- A request enters INSTALLING while another bridge is recorded to hold its target, but has been
edited to target something else. -/
def Move.Lapses (m : Move) : Prop :=
  ∃ a a' p q, a' ≠ a ∧ m.Takes a .requested .installing q.spec ∧ m.after.store a = some q ∧
    m.before.store a' = some p ∧ p.state.holdsTarget = true ∧ p.applied.sameTarget q = true ∧
    p.sameTarget q = false

variable {ctx : BridgeContext} {s s' : Scene (.table ctx)} {e : Event}

/-- A bridge that holds its target held what it is applied with before, or has been admitted. -/
theorem Turn.held {a : Address} {b' : Bridge}
    (h : Turn s e a (s.world.store a) (some b')) (hs : s.Sound)
    (hold : b'.state.holdsTarget = true) :
    (∃ b, s.world.store a = some b ∧ b.state.holdsTarget = true ∧
        b'.applied.spec = b.applied.spec) ∨
      ∃ b x st q t, s.world.store a = some b ∧ s.passes a = some (x, ⟨.admitted st q, t⟩) ∧
        b.state = .requested ∧ b'.state = .installing ∧ b'.spec = b.spec ∧
        b'.applied.spec = x.spec := by
  generalize hbefore : s.world.store a = before at h
  have hkeep : ∀ {b : Bridge}, before = some b → b.state.holdsTarget = true →
      b'.statusOrInitial.lastAppliedSpec = b.statusOrInitial.lastAppliedSpec →
      b'.applied.spec = b.applied.spec := by
    intro b hb hheld
    rw [← b.state_statusOrInitial] at hheld
    exact Bridge.applied_spec_congr (hs.kept (hbefore.trans hb))
      (BridgeStatus.everInstalled_of_holdsTarget hheld)
  cases h with
  | keep => exact .inl ⟨b', rfl, hold, rfl⟩
  | create b he ha hf hst hp =>
    rw [Bridge.state, hst] at hold
    cases hold
  | edit b spec he => exact .inl ⟨b, rfl, hold, hkeep rfl hold rfl⟩
  | amend b m hm => exact .inl ⟨b, rfl, hold, hkeep rfl hold rfl⟩
  | advance b x φ st r hp he hadv =>
    obtain ⟨phase, t⟩ := φ
    rcases hadv.holdsTarget hold with ⟨hb, hsame⟩ | ⟨q, hφ, hrequested, hinstalling, hrecorded⟩
    · rw [b.state_statusOrInitial] at hb
      exact .inl ⟨b, rfl, hb, hkeep rfl hb hsame⟩
    · obtain rfl : phase = .admitted b.statusOrInitial q := hφ
      rw [b.state_statusOrInitial] at hrequested
      refine .inr ⟨b, x, _, q, t, rfl, hp, hrequested, hinstalling, rfl, ?_⟩
      rw [Bridge.applied_eq (b := { b with status := some st }) hrecorded]
      rfl

/-- A request that holds a target together with another bridge has slipped through. -/
theorem lapses_of_admitted (h : Serial s) (hs : s.Sound) (hrule : Rule.serial s.world s.bridges e)
    (hstep : Step (.table ctx) s e s') {a a' : Address} {b b' c' x : Bridge} {st : BridgeStatus}
    {q : BoundProvider} {t : Option Instant} (hne : a ≠ a') (hb : s.world.store a = some b)
    (hp : s.passes a = some (x, ⟨.admitted st q, t⟩)) (hrequested : b.state = .requested)
    (hb' : s'.world.store a = some b') (hinstalling : b'.state = .installing)
    (hspec : b'.spec = b.spec) (happlied : b'.applied.spec = x.spec)
    (hc' : s'.world.store a' = some c') (hcholds : c'.state.holdsTarget = true)
    (htarget : b'.applied.sameTarget c'.applied = true) : (Move.of s e s').Lapses := by
  have hc : s.world.store a' = some c' := by
    rw [← h.elsewhere hrule hs hstep (by rw [hp]; nofun) hne.symm]
    exact hc'
  have hx : b.spec = x.spec := h.spec hp hb
  have hrecord : c'.applied.sameTarget b' = true := by
    rw [Bridge.sameTarget_comm, ← htarget]
    exact Bridge.sameTarget_congr (hspec.trans (hx.trans happlied.symm)) rfl
  -- a holder that still targeted the container would have kept the request out
  have hnow : c'.sameTarget b' = false := by
    rw [Bridge.sameTarget_congr rfl hspec, Bridge.sameTarget_comm]
    exact h.not_sameTarget hp hne.symm hb hc hcholds
  refine ⟨a, a', c', b', hne.symm, ?_, hb', hc, hcholds, hrecord, hnow⟩
  exact ⟨b, b', x, hb, hb', Scene.bridges_eq_some.mpr ⟨_, hp⟩, hrequested, hinstalling,
    (hspec.trans hx).symm⟩

theorem exclusive_step (h : Serial s) (hs : s.Sound) (hrule : Rule.serial s.world s.bridges e)
    (hstep : Step (.table ctx) s e s') (hexcl : s.world.Exclusive)
    (hlapse : ¬ (Move.of s e s').Lapses) : s'.world.Exclusive := by
  intro a a' b' c' hne hb' hc' hbholds hcholds
  have hbturn := hstep.turn hs a
  have hcturn := hstep.turn hs a'
  rw [hb'] at hbturn
  rw [hc'] at hcturn
  rcases hbturn.held hs hbholds with
    ⟨b, hb, hbheld, hbspec⟩ | ⟨b, x, st, q, t, hb, hp, hrequested, hinstalling, hspec, happlied⟩
  · rcases hcturn.held hs hcholds with
      ⟨c, hc, hcheld, hcspec⟩ | ⟨c, x, st, q, t, hc, hp, hrequested, hinstalling, hspec, happlied⟩
    · rw [Bridge.sameTarget_congr hbspec hcspec]
      exact hexcl a a' b c hne hb hc hbheld hcheld
    · rw [Bridge.sameTarget_comm]
      refine Bool.eq_false_iff.mpr fun htarget => hlapse ?_
      exact lapses_of_admitted h hs hrule hstep hne.symm hc hp hrequested hc' hinstalling hspec
        happlied hb' hbholds htarget
  · refine Bool.eq_false_iff.mpr fun htarget => hlapse ?_
    exact lapses_of_admitted h hs hrule hstep hne hb hp hrequested hb' hinstalling hspec happlied
      hc' hcholds htarget

/-- A lapse leaves two bridges that hold one container. -/
theorem not_exclusive_of_lapses (h : Serial s) (hs : s.Sound)
    (hrule : Rule.serial s.world s.bridges e) (hstep : Step (.table ctx) s e s')
    (hlapse : (Move.of s e s').Lapses) : ¬ s'.world.Exclusive := by
  obtain ⟨a, a', p, q, hne, ⟨b, q', x, hb, hq', hx, hrequested, hinstalling, hspec⟩, hq, hp, hholds,
    htarget, -⟩ := hlapse
  have hqq : s'.world.store a = some q := hq
  obtain rfl : q = q' := by
    rw [hq] at hq'
    exact Option.some.inj hq'
  have hqholds : q.state.holdsTarget = true := by rw [hinstalling]; rfl
  obtain ⟨φ, hpass⟩ := Scene.bridges_eq_some.mp hx
  have hp' : s'.world.store a' = some p := by
    rw [h.elsewhere hrule hs hstep (by rw [hpass]; nofun) hne]
    exact hp
  have happlied : q.applied.spec = q.spec := by
    have hturn := hstep.turn hs a
    rw [hqq] at hturn
    rcases hturn.held hs hqholds with
      ⟨b', hb', hbholds, -⟩ | ⟨b', x', st, r, t, -, hpass', -, -, -, hx'⟩
    · obtain rfl : b = b' := Option.some.inj (hb.symm.trans hb')
      rw [hrequested] at hbholds
      cases hbholds
    · rw [hpass] at hpass'
      cases hpass'
      exact hx'.trans hspec
  intro hexcl
  have hnot := hexcl a' a p q hne hp' hqq hholds hqholds
  rw [Bridge.sameTarget_congr rfl happlied, htarget] at hnot
  cases hnot

namespace Sample

/-- The first bridge is edited while it holds its target, and the second is admitted to it. -/
theorem slips_through : ∃ trail e, Run (.programs context) Rule.serial start trail
    (.quiet _ (.ofBridges [edited, second.pending context] e)) := by
  obtain ⟨trail, hrun, -⟩ := Run.admits (k := []) (by simp) .start (permits_serial _)
    (admissible_first (serial_listed (by decide) _ _))
  have hedited := hrun.edits (spec "deploy/cart") (fun _ => rfl)
  have hfirst : ∀ c ∈ [edited], c.address ≠ second.address := by decide
  obtain ⟨trail', hrun', -⟩ := Run.admits hfirst hedited (permits_serial second)
    (admissible parse_shop rfl (serial_listed (by decide) _ _) rfl rfl)
  exact ⟨_, _, hrun'⟩

end Sample

/-- In a serial run no two bridges ever hold what is recorded as one container, exactly if no
request slips through beside a bridge that has been edited. -/
theorem exclusive_iff_never_lapses {config : OperatorConfig} {start : World} {trail : List Move}
    {s : Scene (.programs ⟨config, .standard⟩)} (hstart : start.Initial)
    (hrun : Run (.programs ⟨config, .standard⟩) Rule.serial start trail s) :
    (∀ m ∈ trail, m.after.Exclusive) ↔ ∀ m ∈ trail, ¬ m.Lapses := by
  obtain ⟨t, ht, -⟩ := hrun.tabulated
  refine ht.throughout_iff ?_ ?_ ?_
  · intro a a' b c hne hb hc hbholds
    rw [Bridge.state, hstart.status hb] at hbholds
    cases hbholds
  · intro rest s e s' hrun hrule hstep hexcl hlapse
    exact exclusive_step (Serial.run hrun rfl hstart) (hrun.sound hstart) hrule hstep hexcl hlapse
  · intro rest s e s' hrun hrule hstep hlapse
    exact not_exclusive_of_lapses (Serial.run hrun rfl hstart) (hrun.sound hstart) hrule hstep
      hlapse

theorem exclusive_iff_never_lapses_shop : ∃ trail w, Sample.start.Initial ∧
    Run (.programs Sample.context) Rule.serial Sample.start trail (.quiet _ w) ∧
    ((∀ m ∈ trail, m.after.Exclusive) ↔ ∀ m ∈ trail, ¬ m.Lapses) := by
  obtain ⟨trail, e, hrun⟩ := Sample.slips_through
  exact ⟨trail, _, Sample.initial_start, hrun,
    exclusive_iff_never_lapses Sample.initial_start hrun⟩

/-- The workload is held twice once the first of two bridges has been edited. -/
theorem shop_held_twice : ∃ trail w, Sample.start.Initial ∧
    Run (.programs Sample.context) Rule.serial Sample.start trail (.quiet _ w) ∧
    ¬ w.Exclusive := by
  obtain ⟨trail, e, hrun⟩ := Sample.slips_through
  refine ⟨trail, _, Sample.initial_start, hrun, fun hexcl => ?_⟩
  have hapart : ∀ c ∈ [Sample.edited], c.address ≠ Sample.second.address := by decide
  have hfirst := World.ofBridges_head (b := Sample.edited) (e := e)
    (l := [Sample.second.pending Sample.context])
  have hsecond := World.ofBridges_self (b := Sample.second.pending Sample.context) (l := [])
    (e := e) hapart
  have hnot := hexcl _ _ _ _ (by decide) hfirst hsecond rfl rfl
  have hrecord : Sample.edited.statusOrInitial.lastAppliedSpec =
      some (Sample.spec "deploy/shop").canonical := rfl
  have hrecord' : (Sample.second.pending Sample.context).statusOrInitial.lastAppliedSpec =
      some (Sample.spec "deploy/shop").canonical := rfl
  rw [Bridge.applied_eq hrecord, Bridge.applied_eq hrecord'] at hnot
  cases hnot

end BridgeOperator
