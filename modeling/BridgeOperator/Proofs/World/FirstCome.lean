import BridgeOperator.Proofs.World.Admission

/-!
As long as specs are left alone, no two bridges hold one target, however their passes overlap. A
pass decides from a list that may be out of date by the time it stores INSTALLING. What saves it is
the order of arrival: of two bridges the later one always finds the earlier one in its list, so it
can only be admitted once the earlier one has come to its end, and without a new spec there is no
way back from there (`Orderly`).
-/

namespace BridgeOperator

open BridgePass (ofBridge Moment Phase)

/-- No two bridges arrived as one. -/
def World.Ordered (w : World) : Prop :=
  ∀ a a' b c, w.store a = some b → w.store a' = some c →
    b.metadata.creationTimestamp = c.metadata.creationTimestamp → b.name = c.name → a = a'

/-- Specs are left alone, bridges come in the order of arrival, and a pass that asks for a list
finds in it every bridge that arrived before its own. -/
def Rule.firstCome : Rule
  | _, _, .edited .. => False
  | w, _, .created b => ∀ a c, w.store a = some c → c.arrivedBefore b = true
  | w, passes, .answered a .listBridges (.ok peers) => ∀ x, passes a = some x →
    ∀ a' c, w.store a' = some c → c.arrivedBefore x = true → c ∈ peers
  | _, _, _ => True

theorem permits_firstCome (b : Bridge) : Rule.firstCome.Permits b where
  began _ := trivial
  answered := by
    intro w c r hc
    cases c with
    | listBridges => exact absurd rfl hc
    | _ => trivial
  ended _ := trivial

/-- One bridge seen at two times between which it was not edited. -/
structure Bridge.Alike (b c : Bridge) : Prop where
  same : b.metadata.SameObject c.metadata
  spec : c.spec = b.spec

namespace Bridge.Alike

variable {b c d : Bridge}

theorem refl (b : Bridge) : b.Alike b := ⟨.refl _, rfl⟩

theorem trans (h : b.Alike c) (h' : c.Alike d) : b.Alike d :=
  ⟨h.same.trans h'.same, h'.spec.trans h.spec⟩

theorem name (h : b.Alike c) : c.name = b.name := h.same.anyName

theorem arrivedBefore_left (h : b.Alike c) (x : Bridge) :
    c.arrivedBefore x = b.arrivedBefore x := by
  unfold arrivedBefore
  rw [h.same.creationTimestamp, h.name]

theorem arrivedBefore_right (h : b.Alike c) (x : Bridge) :
    x.arrivedBefore c = x.arrivedBefore b := by
  unfold arrivedBefore
  rw [h.same.creationTimestamp, h.name]

theorem sameTarget_left (h : b.Alike c) (x : Bridge) : c.sameTarget x = b.sameTarget x :=
  Bridge.sameTarget_congr h.spec rfl

theorem sameTarget_right (h : b.Alike c) (x : Bridge) : x.sameTarget c = x.sameTarget b :=
  Bridge.sameTarget_congr rfl h.spec

end Bridge.Alike

theorem BridgeState.not_holdsTarget {s : BridgeState} (h : s.isTerminal = true) :
    s.holdsTarget = false := by
  cases s <;> first | rfl | cases h

/-- What the order of arrival amounts to in the middle of things. -/
structure Orderly {ctx : BridgeContext} (s : Scene (.table ctx)) : Prop where
  linear : ∀ {a a' b b'}, s.world.store a = some b → s.world.store a' = some b' → a ≠ a' →
    b.arrivedBefore b' = true ∨ b'.arrivedBefore b = true
  unchanged : ∀ {a b}, s.world.store a = some b → b.specChanged = false
  untouched : ∀ {a x φ}, s.passes a = some (x, φ) → x.specChanged = false
  spec : ∀ {a x φ b}, s.passes a = some (x, φ) → s.world.store a = some b → x.Alike b
  /-- Whoever arrived before a bridge that is being checked is through or stands in its way. -/
  checked : ∀ {a x st q peers t b a' c}, s.passes a = some (x, ⟨.checking st q peers, t⟩) →
    s.world.store a = some b → s.world.store a' = some c → c.arrivedBefore b = true →
    c.state.isTerminal = true ∨ ∃ c' ∈ peers, c'.Alike c ∧ c'.owns x = true
  admitted : ∀ {a x st q t b a' c}, s.passes a = some (x, ⟨.admitted st q, t⟩) →
    s.world.store a = some b → s.world.store a' = some c → c.arrivedBefore b = true →
    b.sameTarget c = true → c.state.isTerminal = true
  exclusive : ∀ {a a' b c}, s.world.store a = some b → s.world.store a' = some c →
    c.arrivedBefore b = true → b.sameTarget c = true → b.state.holdsTarget = true →
    c.state.isTerminal = true

namespace Orderly

variable {ctx : BridgeContext} {s s' : Scene (.table ctx)} {e : Event}

/-- How a bridge that is left alone goes on. -/
structure Later (s : Scene (.table ctx)) (a : Address) (b b' : Bridge) : Prop where
  alike : b.Alike b'
  unchanged : b'.specChanged = false
  terminal : b.state.isTerminal = true → b'.state.isTerminal = true
  holds : b'.state.holdsTarget = true → b.state.holdsTarget = true ∨
    ∃ x st q t, s.passes a = some (x, ⟨.admitted st q, t⟩)

/-- A pass over an unedited bridge records what is recorded already. -/
theorem advance_unchanged {x b : Bridge} {φ : Phase} {st : BridgeStatus}
    (hadv : (ofBridge ctx x).Advance b.statusOrInitial φ st) (hx : x.Alike b)
    (hb : b.specChanged = false) :
    ({ b with status := some st } : Bridge).specChanged = false := by
  rw [Bridge.specChanged_eq_false] at hb ⊢
  intro text htext
  change st.lastAppliedSpec = some text at htext
  rcases hadv.lastAppliedSpec with hst | hst
  · exact hb text (hst ▸ htext)
  · rw [hst, Option.some.injEq] at htext
    rw [← htext]
    exact congrArg BridgeSpec.canonical hx.spec.symm

/-- Without edits a bridge is the one it was, and the way it has come is not gone back. -/
theorem later (h : Orderly s) {a : Address} {b' : Bridge}
    (hturn : Turn s e a (s.world.store a) (some b')) (he : ∀ spec, e ≠ .edited a spec) :
    (e = .created b' ∧ s.world.Fresh b' ∧ b'.status = none ∧ s.passes a = none) ∨
      ∃ b, s.world.store a = some b ∧ Later s a b b' := by
  generalize hbefore : s.world.store a = before at hturn
  cases hturn with
  | keep => exact .inr ⟨b', rfl, .refl _, h.unchanged hbefore, id, .inl⟩
  | create b he' ha hf hst hp => exact .inl ⟨he', hf, hst, hp⟩
  | edit b spec he' => exact absurd he' (he spec)
  | amend b m hm =>
    have hb := h.unchanged hbefore
    exact .inr ⟨b, rfl, ⟨hm, rfl⟩, hb, id, .inl⟩
  | advance b x φ st r hp he' hadv =>
    have hx := h.spec hp hbefore
    refine .inr ⟨b, rfl, ⟨.refl _, rfl⟩, advance_unchanged hadv hx (h.unchanged hbefore), ?_, ?_⟩
    · intro hb
      rw [← Bridge.state_statusOrInitial] at hb
      refine hadv.terminal hb fun hsuper => ?_
      have hchanged := hsuper.changed
      change x.specChanged = true at hchanged
      rw [h.untouched hp] at hchanged
      cases hchanged
    · intro hst
      rw [← Bridge.state_statusOrInitial]
      refine (hadv.holdsTarget hst).imp (·.1) fun ⟨q, hφ, _⟩ => ?_
      refine ⟨x, b.statusOrInitial, q, φ.read, ?_⟩
      rw [hp, ← hφ]
      rfl

/-- Whoever comes is the last to have arrived. -/
theorem created_last (hrule : Rule.firstCome s.world s.bridges e) {a : Address} {b c c' : Bridge}
    (he : e = .created b) (hc : s.world.store a = some c) (hl : Later s a c c') :
    c'.arrivedBefore b = true := by
  subst he
  rw [hl.alike.arrivedBefore_left]
  exact hrule a c hc

theorem step_untouched (h : Orderly s) (hstep : Step (.table ctx) s e s') {a : Address}
    {x : Bridge} {φ : Moment} (hp : s'.passes a = some (x, φ)) : x.specChanged = false := by
  have hcourse := hstep.course a
  rw [hp] at hcourse
  generalize hbefore : s.passes a = before at hcourse
  cases hcourse with
  | keep => exact h.untouched hbefore
  | take b he hb hw => exact h.unchanged hb
  | answer => exact h.untouched hbefore

section

variable (h : Orderly s) (hs : s.Sound) (hstep : Step (.table ctx) s e s')
  (hrule : Rule.firstCome s.world s.bridges e)

include h hs hstep hrule

theorem step_later {a : Address} {b' : Bridge} (hb' : s'.world.store a = some b') :
    (e = .created b' ∧ s.world.Fresh b' ∧ b'.status = none ∧ s.passes a = none) ∨
      ∃ b, s.world.store a = some b ∧ Later s a b b' := by
  have hturn := hstep.turn hs a
  rw [hb'] at hturn
  refine h.later hturn fun spec he => ?_
  rw [he] at hrule
  exact hrule

/-- A bridge that arrived before one that was there has been there as well. -/
theorem earlier {a a' : Address} {b b' c' : Bridge} (hb : s.world.store a = some b)
    (hl : Later s a b b') (hc' : s'.world.store a' = some c')
    (hbefore : c'.arrivedBefore b' = true) :
    ∃ c, s.world.store a' = some c ∧ Later s a' c c' ∧ c.arrivedBefore b = true := by
  rcases step_later h hs hstep hrule hc' with ⟨he, -⟩ | ⟨c, hc, hlc⟩
  · have hlast := created_last hrule he hb hl
    rw [Bridge.arrivedBefore_asymm hlast] at hbefore
    cases hbefore
  · rw [hlc.alike.arrivedBefore_left, hl.alike.arrivedBefore_right] at hbefore
    exact ⟨c, hc, hlc, hbefore⟩

theorem step_linear {a a' : Address} {b' c' : Bridge} (hb' : s'.world.store a = some b')
    (hc' : s'.world.store a' = some c') (hne : a ≠ a') :
    b'.arrivedBefore c' = true ∨ c'.arrivedBefore b' = true := by
  have hs' := hstep.sound hs
  rcases step_later h hs hstep hrule hb' with ⟨heb, -⟩ | ⟨b, hb, hlb⟩ <;>
    rcases step_later h hs hstep hrule hc' with ⟨hec, -⟩ | ⟨c, hc, hlc⟩
  · rw [heb] at hec
    cases hec
    exact absurd ((hs'.addressed hb').symm.trans (hs'.addressed hc')) hne
  · exact .inr (created_last hrule heb hc hlc)
  · exact .inl (created_last hrule hec hb hlb)
  · rw [hlb.alike.arrivedBefore_left, hlc.alike.arrivedBefore_right,
      hlc.alike.arrivedBefore_left, hlb.alike.arrivedBefore_right]
    exact h.linear hb hc hne

theorem step_unchanged {a : Address} {b' : Bridge} (hb' : s'.world.store a = some b') :
    b'.specChanged = false := by
  rcases step_later h hs hstep hrule hb' with ⟨-, -, hst, -⟩ | ⟨b, hb, hl⟩
  · simp [Bridge.specChanged, hst]
  · exact hl.unchanged

/-- A bridge that is passed over was there before the event. -/
theorem passed_later {a : Address} {x b' : Bridge} {φ : Moment}
    (hp : s.passes a = some (x, φ)) (hb' : s'.world.store a = some b') :
    ∃ b, s.world.store a = some b ∧ Later s a b b' := by
  rcases step_later h hs hstep hrule hb' with ⟨-, -, -, hnone⟩ | hl
  · rw [hp] at hnone
    cases hnone
  · exact hl

theorem step_spec {a : Address} {x b' : Bridge} {φ : Moment} (hp : s'.passes a = some (x, φ))
    (hb' : s'.world.store a = some b') : x.Alike b' := by
  have hcourse := hstep.course a
  have hold : ∀ φ, s.passes a = some (x, φ) → x.Alike b' := by
    intro φ hbefore
    obtain ⟨b, hb, hl⟩ := passed_later h hs hstep hrule hbefore hb'
    exact (h.spec hbefore hb).trans hl.alike
  rw [hp] at hcourse
  generalize hbefore : s.passes a = before at hcourse
  cases hcourse with
  | keep => exact hold _ hbefore
  | take b he hb hw =>
    rw [hw, hb] at hb'
    cases hb'
    exact .refl _
  | answer => exact hold _ hbefore

/-- What was known of those who arrived before is still so. -/
theorem checked_later {a a' : Address} {x b' c' : Bridge} {st : BridgeStatus} {q : BoundProvider}
    {peers : List Bridge} {t : Option Instant}
    (hp : s.passes a = some (x, ⟨.checking st q peers, t⟩)) (hb' : s'.world.store a = some b')
    (hc' : s'.world.store a' = some c') (hbefore : c'.arrivedBefore b' = true) :
    c'.state.isTerminal = true ∨ ∃ d ∈ peers, d.Alike c' ∧ d.owns x = true := by
  obtain ⟨b, hb, hlb⟩ := passed_later h hs hstep hrule hp hb'
  obtain ⟨c, hc, hlc, hcb⟩ := earlier h hs hstep hrule hb hlb hc' hbefore
  rcases h.checked hp hb hc hcb with hterm | ⟨d, hd, hdc, hdx⟩
  · exact .inl (hlc.terminal hterm)
  · exact .inr ⟨d, hd, hdc.trans hlc.alike, hdx⟩

theorem step_checked {a a' : Address} {x b' c' : Bridge} {st : BridgeStatus} {q : BoundProvider}
    {peers : List Bridge} {t : Option Instant}
    (hp : s'.passes a = some (x, ⟨.checking st q peers, t⟩)) (hb' : s'.world.store a = some b')
    (hc' : s'.world.store a' = some c') (hbefore : c'.arrivedBefore b' = true) :
    c'.state.isTerminal = true ∨ ∃ d ∈ peers, d.Alike c' ∧ d.owns x = true := by
  rcases hstep.checking hp with ⟨t', hpass⟩ | ⟨φ, hpass, he, hw⟩
  · exact checked_later h hs hstep hrule hpass hb' hc' hbefore
  · rw [hw] at hb' hc'
    rw [he] at hrule
    have hxb := h.spec hpass hb'
    rw [hxb.arrivedBefore_right] at hbefore
    have hmem := hrule x (Scene.bridges_eq_some.mpr ⟨φ, hpass⟩) a' c' hc' hbefore
    cases hterm : c'.state.isTerminal with
    | true => exact .inl rfl
    | false =>
      refine .inr ⟨c', hmem, .refl _, ?_⟩
      unfold Bridge.owns
      cases hstate : c'.state <;> simp_all [BridgeState.isTerminal, BridgeState.holdsTarget]

theorem admitted_later {a a' : Address} {x b' c' : Bridge} {st : BridgeStatus}
    {q : BoundProvider} {t : Option Instant}
    (hp : s.passes a = some (x, ⟨.admitted st q, t⟩)) (hb' : s'.world.store a = some b')
    (hc' : s'.world.store a' = some c') (hbefore : c'.arrivedBefore b' = true)
    (htarget : b'.sameTarget c' = true) : c'.state.isTerminal = true := by
  obtain ⟨b, hb, hlb⟩ := passed_later h hs hstep hrule hp hb'
  obtain ⟨c, hc, hlc, hcb⟩ := earlier h hs hstep hrule hb hlb hc' hbefore
  rw [hlb.alike.sameTarget_left, hlc.alike.sameTarget_right] at htarget
  exact hlc.terminal (h.admitted hp hb hc hcb htarget)

theorem step_admitted (hreg : ctx.registry = .standard) {a a' : Address} {x b' c' : Bridge}
    {st : BridgeStatus} {q : BoundProvider} {t : Option Instant}
    (hp : s'.passes a = some (x, ⟨.admitted st q, t⟩)) (hb' : s'.world.store a = some b')
    (hc' : s'.world.store a' = some c') (hbefore : c'.arrivedBefore b' = true)
    (htarget : b'.sameTarget c' = true) : c'.state.isTerminal = true := by
  rcases hstep.admitted hp with ⟨t', hpass⟩ | ⟨peers, t', hpass, -, hserve⟩
  · exact admitted_later h hs hstep hrule hpass hb' hc' hbefore htarget
  · rw [hserve.store_eq (fun _ _ _ => nofun) (fun _ _ => nofun) fun _ _ => nofun] at hb' hc'
    have hxb := h.spec hpass hb'
    rcases h.checked hpass hb' hc' hbefore with hterm | ⟨d, hd, hdc, hdx⟩
    · exact hterm
    · -- the earlier bridge stood in the list and in the way, so the pass was not admitted
      obtain ⟨-, -, hprovider⟩ := hs.phase hpass hb'
      have hq : x.provider ⟨ctx.config, .standard⟩ = .ok q := by
        rw [← hreg]
        exact hprovider
      have hfree := Bridge.ensureExclusive_eq_ok.mp (validate_exclusive hq hserve.2) d hd
      have hne : a ≠ a' := by
        rintro rfl
        rw [hb'] at hc'
        cases hc'
        rw [Bridge.arrivedBefore_asymm hbefore] at hbefore
        cases hbefore
      have hobject := hs.sameObject_of_ne hb' hc' hne
      rw [Bridge.sameObject_congr hxb.same hdc.same] at hobject
      rw [hxb.sameTarget_left, hdc.sameTarget_right] at htarget
      have hnot : d.owns x = false := hfree hobject htarget
      rw [hnot] at hdx
      cases hdx

theorem step_exclusive {a a' : Address} {b' c' : Bridge} (hb' : s'.world.store a = some b')
    (hc' : s'.world.store a' = some c') (hbefore : c'.arrivedBefore b' = true)
    (htarget : b'.sameTarget c' = true) (hholds : b'.state.holdsTarget = true) :
    c'.state.isTerminal = true := by
  rcases step_later h hs hstep hrule hb' with ⟨-, -, hst, -⟩ | ⟨b, hb, hlb⟩
  · simp [Bridge.state, hst, BridgeState.holdsTarget] at hholds
  · obtain ⟨c, hc, hlc, hcb⟩ := earlier h hs hstep hrule hb hlb hc' hbefore
    rw [hlb.alike.sameTarget_left, hlc.alike.sameTarget_right] at htarget
    refine hlc.terminal ?_
    rcases hlb.holds hholds with hholds | ⟨x, st, q, t, hp⟩
    · exact h.exclusive hb hc hcb htarget hholds
    · exact h.admitted hp hb hc hcb htarget

theorem step (hreg : ctx.registry = .standard) : Orderly s' where
  linear := step_linear h hs hstep hrule
  unchanged := step_unchanged h hs hstep hrule
  untouched := h.step_untouched hstep
  spec := step_spec h hs hstep hrule
  checked := step_checked h hs hstep hrule
  admitted := step_admitted h hs hstep hrule hreg
  exclusive := step_exclusive h hs hstep hrule

end

theorem quiet {w : World} (hw : w.Initial) (hd : w.Ordered) :
    Orderly (.quiet (.table ctx) w) where
  linear hb hc hne := Bridge.arrivedBefore_total fun ht hn => hne (hd _ _ _ _ hb hc ht hn)
  unchanged hb := by simp [Bridge.specChanged, hw.status hb]
  untouched hp := nomatch hp
  spec hp := nomatch hp
  checked hp := nomatch hp
  admitted hp := nomatch hp
  exclusive hb _ _ _ hholds := by
    simp [Bridge.state, hw.status hb, BridgeState.holdsTarget] at hholds

theorem run {start : World} {trail : List Move}
    (hrun : Run (.table ctx) Rule.firstCome start trail s) (hreg : ctx.registry = .standard)
    (hw : start.Initial) (hd : start.Ordered) : Orderly s := by
  induction hrun with
  | start => exact quiet hw hd
  | move hrun hrule hstep ih => exact step ih (hrun.sound hw) hstep hrule hreg

end Orderly

theorem Sample.ordered_start : start.Ordered := by
  intro a a' b c hb hc _ hname
  rw [← initial_start.addressed hb, ← initial_start.addressed hc]
  rcases mem_start hb with rfl | rfl <;> rcases mem_start hc with rfl | rfl <;>
    simp_all [first, second, bridge, metadata, Bridge.name, Kube.Metadata.anyName]

/-- Of the bridges that target one container at most one holds it, whatever the providers and the
store answer and however the passes overlap. -/
theorem at_most_one_holder {config : OperatorConfig} {start : World} {trail : List Move}
    {s : Scene (.programs ⟨config, .standard⟩)} (hstart : start.Initial)
    (hordered : start.Ordered)
    (hrun : Run (.programs ⟨config, .standard⟩) Rule.firstCome start trail s)
    {a a' : Address} {b c : Bridge} (hne : a ≠ a') (hb : s.world.store a = some b)
    (hc : s.world.store a' = some c) (htarget : b.sameTarget c = true) :
    ¬ (b.state.holdsTarget = true ∧ c.state.holdsTarget = true) := by
  rintro ⟨hbholds, hcholds⟩
  obtain ⟨t, ht, htab⟩ := hrun.tabulated
  have horder := Orderly.run ht rfl hstart hordered
  rw [← htab.world] at hb hc
  rcases horder.linear hb hc hne with hbc | hcb
  · rw [Bridge.sameTarget_comm] at htarget
    have hend := BridgeState.not_holdsTarget (horder.exclusive hc hb hbc htarget hcholds)
    rw [hbholds] at hend
    cases hend
  · have hend := BridgeState.not_holdsTarget (horder.exclusive hb hc hcb htarget hbholds)
    rw [hcholds] at hend
    cases hend

/-- Of two requests for one workload the first is admitted. -/
theorem at_most_one_holder_shop : ∃ trail w b c,
    Run (.programs Sample.context) Rule.firstCome Sample.start trail (.quiet _ w) ∧
    w.store ⟨"gefyra", "first"⟩ = some b ∧ w.store ⟨"gefyra", "second"⟩ = some c ∧
    b.state = .installing ∧ b.sameTarget c = true ∧
    ¬ (b.state.holdsTarget = true ∧ c.state.holdsTarget = true) := by
  have hlisted : Rule.firstCome Sample.start (alone Sample.first)
      (.answered Sample.first.address .listBridges (.ok [Sample.first, Sample.second])) :=
    fun _ _ _ _ hc _ => (World.mem_of_ofBridges hc).1
  obtain ⟨trail, hrun, -⟩ := Run.admits (k := []) (by simp) .start (permits_firstCome _)
    (Sample.admissible_first hlisted)
  have hne : (⟨"gefyra", "first"⟩ : Address) ≠ ⟨"gefyra", "second"⟩ := by decide
  refine ⟨_, _, _, _, hrun, World.ofBridges_head, rfl, rfl, rfl, ?_⟩
  exact at_most_one_holder Sample.initial_start Sample.ordered_start hrun hne rfl rfl rfl

end BridgeOperator
