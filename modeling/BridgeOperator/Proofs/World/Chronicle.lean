import BridgeOperator.Proofs.World.Readiness

/-!
The log of transitions in the life of a bridge, which is from when it comes until it goes. The log
names exactly the states that the bridge has changed over to. Whatever a pass stores has the entries
of what was stored (`BridgeStatus.Extends`), so no entry is changed or removed, and a bridge that
was INSTALLING once is known to have been. The times of the entries are in order if the clock never
goes back (`log_only_grows`).
-/

namespace BridgeOperator

open BridgePass (ofBridge entering Moment Phase)

namespace BridgeStatus

variable {s st : BridgeStatus} {state : BridgeState} {message : Option String} {t : Instant}

/-- When the state was first entered. -/
def since? (s : BridgeStatus) (state : BridgeState) : Option Instant :=
  s.stateTransitions.get? state.text

/-- The entries of `s` are kept, and the one for the own state is the only new one. -/
structure Extends (st s : BridgeStatus) : Prop where
  contains : ∀ k, st.stateTransitions.contains k = true ↔
    st.state.text = k ∨ s.stateTransitions.contains k = true
  keeps : ∀ k t, s.stateTransitions.get? k = some t → st.stateTransitions.get? k = some t

/-- INSTALLED comes after INSTALLING, and ACTIVE after INSTALLED. -/
structure Ordered (s : BridgeStatus) : Prop where
  installed : ∀ t, s.since? .installed = some t →
    ∃ t₀, s.since? .installing = some t₀ ∧ t₀.notAfter t = true
  active : ∀ t, s.since? .active = some t →
    ∃ t₀, s.since? .installed = some t₀ ∧ t₀.notAfter t = true

theorem ordered_initial : initial.Ordered := ⟨nofun, nofun⟩

theorem extends_transition (s : BridgeStatus) (state : BridgeState) (message : Option String)
    (t : Instant) : (s.transition state message t).Extends s where
  contains k := by
    rw [BridgePass.transition_contains, Bool.or_eq_true, decide_eq_true_eq]
    rfl
  keeps k t' h := by
    unfold transition
    dsimp only
    split
    · exact h
    · next hnew =>
      have hne : k ≠ state.text := by
        rintro rfl
        exact hnew (SortedMap.contains_iff_get?.mpr ⟨t', h⟩)
      rw [SortedMap.get?_insert_of_ne _ _ hne]
      exact h

theorem extends_entering (s : BridgeStatus) (state : BridgeState) (message : Option String)
    (t : Instant) : (entering s state message t).Extends s :=
  ⟨(extends_transition s state message t).contains, (extends_transition s state message t).keeps⟩

/-- An entry is an old one or the one that a transition makes. -/
theorem get?_transition {k : String} {t' : Instant}
    (h : (s.transition state message t).stateTransitions.get? k = some t') :
    s.stateTransitions.get? k = some t' ∨ k = state.text ∧ t' = t := by
  unfold transition at h
  dsimp only at h
  split at h
  · exact .inl h
  · by_cases hk : k = state.text
    · subst hk
      rw [SortedMap.get?_insert_self] at h
      exact .inr ⟨rfl, (Option.some.inj h).symm⟩
    · rw [SortedMap.get?_insert_of_ne _ _ hk] at h
      exact .inl h

end BridgeStatus

namespace BridgePass

variable {p : BridgePass} {φ : Phase} {cur st : BridgeStatus} {read : Option Instant}

/-- A note is about a state that is in the log, and everything else enters a state. -/
theorem Advance.extends (h : p.Advance cur φ st) (hk : cur.Kept) : st.Extends cur := by
  have hspec : st.Extends (p.withSpec cur) → st.Extends cur := fun h => ⟨h.contains, h.keeps⟩
  cases h with
  | accept provider t => exact hspec (BridgeStatus.extends_entering _ _ _ t)
  | reject e t => exact hspec (BridgeStatus.extends_entering _ _ _ t)
  | dismiss t => exact BridgeStatus.extends_transition _ _ _ t
  | note message hs =>
    have hlogged := hk.logged (by rw [hs]; rfl)
    refine ⟨fun k => ⟨.inr, ?_⟩, fun _ _ => id⟩
    rintro (rfl | h)
    · rw [← hs] at hlogged
      exact hlogged
    · exact h
  | _ => exact BridgeStatus.extends_entering cur _ _ _

theorem Advance.from_installing (h : p.Advance cur φ st) (hst : st.state = .installed) :
    cur.state = .installing := by
  cases h with
  | settle t hs => exact hs
  | note message hs => exact hs
  | _ => cases hst

theorem Advance.from_installed (h : p.Advance cur φ st) (hst : st.state = .active) :
    cur.state = .installed := by
  cases h with
  | activate t hs => exact hs
  | note message hs =>
    rw [show cur.state = .active from hst] at hs
    cases hs
  | _ => cases hst

/-- What is stored has the log of what was stored, or that of a transition at the last reading of
the clock. -/
theorem Phase.Sound.log (h : φ.Sound p cur) (hst : φ.pending p read = some st) :
    st.stateTransitions = cur.stateTransitions ∨ ∃ t, read = some t ∧
      st.stateTransitions = (cur.transition st.state none t).stateTransitions := by
  cases φ <;> cases read <;> try cases hst
  case reopening.some t =>
    obtain ⟨rfl, -⟩ := h
    exact .inr ⟨t, rfl, rfl⟩
  case admitted.some s provider t =>
    obtain ⟨rfl, -⟩ := h
    exact .inr ⟨t, rfl, rfl⟩
  case failing.some s e t => rcases h with ⟨rfl, -⟩ | ⟨rfl, -⟩ <;> exact .inr ⟨t, rfl, rfl⟩
  case settling.some s t =>
    obtain ⟨rfl, -⟩ := h
    exact .inr ⟨t, rfl, rfl⟩
  case noting.none s message =>
    obtain ⟨rfl, -⟩ := h
    exact .inl rfl
  case noting.some s message t =>
    obtain ⟨rfl, -⟩ := h
    exact .inl rfl
  case mounted.some s t =>
    obtain ⟨rfl, -⟩ := h
    exact .inr ⟨t, rfl, rfl⟩
  case drifted.some s t =>
    obtain ⟨rfl, -⟩ := h
    exact .inr ⟨t, rfl, rfl⟩
  case dismissing.some t =>
    obtain rfl : cur = p.bridge.statusOrInitial := h
    exact .inr ⟨t, rfl, rfl⟩

/-- An entry that is new is for the state that is entered. -/
theorem Phase.Sound.entry (h : φ.Sound p cur) (hst : φ.pending p read = some st) {k : String}
    {t : Instant} (hget : st.stateTransitions.get? k = some t) :
    cur.stateTransitions.get? k = some t ∨ k = st.state.text ∧ read = some t := by
  rcases h.log hst with hsame | ⟨t', hread, hlog⟩
  · exact .inl (hsame ▸ hget)
  · rw [hlog] at hget
    rcases BridgeStatus.get?_transition hget with hold | ⟨hk, rfl⟩
    · exact .inl hold
    · exact .inr ⟨hk, hread⟩

/-- The order is kept by an entry that is not before the others. -/
theorem Advance.ordered (h : p.Advance cur φ st) (hk : cur.Kept)
    (hown : cur.state.holdsTarget = true →
      cur.stateTransitions.contains cur.state.text = true)
    (hnew : ∀ k t, st.stateTransitions.get? k = some t → cur.stateTransitions.get? k = some t ∨
      k = st.state.text ∧ ∀ k' t', cur.stateTransitions.get? k' = some t' → t'.notAfter t = true)
    (hcur : cur.Ordered) : st.Ordered := by
  have hext := h.extends hk
  -- what is logged of the state that is left is kept, and is not after the new entry
  have hafter : ∀ {source target : BridgeState} {t : Instant}, source.holdsTarget = true →
      (st.state = target → cur.state = source) → st.since? target = some t →
      (cur.since? target = some t → ∃ t₀, cur.since? source = some t₀ ∧ t₀.notAfter t = true) →
      ∃ t₀, st.since? source = some t₀ ∧ t₀.notAfter t = true := by
    intro source target t hheld hsource ht hbefore
    rcases hnew _ _ ht with hold | ⟨hstate, hlater⟩
    · obtain ⟨t₀, ht₀, hle⟩ := hbefore hold
      exact ⟨t₀, hext.keeps _ _ ht₀, hle⟩
    · have hfrom := hsource (BridgeState.text_injective hstate).symm
      obtain ⟨t₀, ht₀⟩ := SortedMap.contains_iff_get?.mp (hown (hfrom ▸ hheld))
      rw [hfrom] at ht₀
      exact ⟨t₀, hext.keeps _ _ ht₀, hlater _ _ ht₀⟩
  exact ⟨fun t ht => hafter rfl h.from_installing ht (hcur.installed t),
    fun t ht => hafter rfl h.from_installed ht (hcur.active t)⟩

/-- The last reading is the one before, or the clock has just been read. -/
theorem Does.reads {m m' : Moment} {c : BridgeCall} {r : Answer c} (h : Does p m c r m') :
    m'.read = m.read ∨ ∃ t, (⟨c, r⟩ : Σ c : BridgeCall, Answer c) = ⟨.now, t⟩ ∧
      m'.read = some t := by
  cases h with
  | now φ t t' => exact .inr ⟨t', rfl, rfl⟩
  | _ => exact .inl rfl

end BridgePass

/-! ## The life of a bridge -/

namespace Move

variable {m : Move} {a : Address} {b b' : Bridge} {state : BridgeState} {st : BridgeStatus}

/-- The status is stored when the move is over. -/
def Leaves (m : Move) (a : Address) (st : BridgeStatus) : Prop :=
  ∃ b, m.after.store a = some b ∧ b.status = some st

/-- The stored status changes over to a state. What is stored without a change of state, a note or
REMOVED once more, is in the log already. -/
def Turns (m : Move) (a : Address) (state : BridgeState) : Prop :=
  ∃ b b', m.before.store a = some b ∧ m.after.store a = some b' ∧
    b.status.map (·.state) ≠ some state ∧ b'.status.map (·.state) = some state

theorem not_turns (hb : m.before.store a = some b) (hb' : m.after.store a = some b')
    (h : b'.status = b.status) : ¬ m.Turns a state := by
  rintro ⟨c, c', hc, hc', hne, heq⟩
  cases hb.symm.trans hc
  cases hb'.symm.trans hc'
  rw [h] at heq
  exact hne heq

theorem not_leaves (hb' : m.after.store a = some b') (hst : b'.status = none) :
    ¬ m.Leaves a st := by
  rintro ⟨c, hc, hcst⟩
  cases hb'.symm.trans hc
  rw [hst] at hcst
  cases hcst

theorem Leaves.status_eq (h : m.Leaves a st) (hb' : m.after.store a = some b') :
    b'.status = some st := by
  obtain ⟨c, hc, hst⟩ := h
  cases hb'.symm.trans hc
  exact hst

end Move

/-- The moves since the bridge at an address came, its coming included. -/
def lifetime (a : Address) (trail : List Move) : List Move :=
  trail.takeWhile fun m => (m.after.store a).isSome

theorem mem_of_mem_lifetime {a : Address} {m : Move} {trail : List Move}
    (h : m ∈ lifetime a trail) : m ∈ trail :=
  (List.takeWhile_sublist _).subset h

theorem lifetime_cons {a : Address} {m : Move} {trail : List Move} {b : Bridge}
    (h : m.after.store a = some b) : lifetime a (m :: trail) = m :: lifetime a trail := by
  simp [lifetime, h]

/-- What the log of a bridge says of its life: it names the states that the bridge has changed over
to and no others, among them that of every status that was stored, and each entry is as it was. -/
structure Bridge.Chronicled (b : Bridge) (a : Address) (life : List Move) : Prop where
  own : ∀ st, b.status = some st → st.stateTransitions.contains st.state.text = true
  turned : ∀ k, b.statusOrInitial.stateTransitions.contains k = true ↔
    ∃ state : BridgeState, state.text = k ∧ ∃ m ∈ life, m.Turns a state
  named : ∀ m ∈ life, ∀ st, m.Leaves a st →
    b.statusOrInitial.stateTransitions.contains st.state.text = true
  kept : ∀ m ∈ life, ∀ st, m.Leaves a st → ∀ k t, st.stateTransitions.get? k = some t →
    b.statusOrInitial.stateTransitions.get? k = some t

/-- Whether there may be something to take down, as the status has it, is whether the bridge was
ever stored as INSTALLING. It is never forgotten. -/
structure Bridge.Remembers (b : Bridge) (a : Address) (life : List Move) : Prop where
  installed : b.statusOrInitial.everInstalled = true ↔
    ∃ m ∈ life, ∃ st, m.Leaves a st ∧ st.state = .installing
  lasting : ∀ m ∈ life, ∀ st, m.Leaves a st → st.everInstalled = true →
    b.statusOrInitial.everInstalled = true

namespace Bridge.Chronicled

variable {m : Move} {a : Address} {b b' : Bridge} {st : BridgeStatus} {life : List Move}

/-- Nothing has been stored yet. -/
theorem of_none (hb : b.status = none)
    (hlife : ∀ m ∈ life, (∀ state, ¬ m.Turns a state) ∧ ∀ st, ¬ m.Leaves a st) :
    b.Chronicled a life where
  own st hst := by
    rw [hb] at hst
    cases hst
  turned k := by
    rw [Bridge.statusOrInitial, hb]
    constructor
    · intro hlogged
      cases hlogged
    · rintro ⟨state, -, m, hm, hturns⟩
      exact absurd hturns ((hlife m hm).1 state)
  named m hm st hst := absurd hst ((hlife m hm).2 st)
  kept m hm st hst := absurd hst ((hlife m hm).2 st)

section

variable (h : b.Chronicled a life) (hb : m.before.store a = some b)
  (hb' : m.after.store a = some b')

include h hb hb'

theorem same (hst : b'.status = b.status) : b'.Chronicled a (m :: life) := by
  have hstatus := Bridge.statusOrInitial_congr hst
  refine ⟨hst ▸ h.own, fun k => ?_, fun m' hm' st hst' => ?_, fun m' hm' st hst' k t ht => ?_⟩
  · rw [hstatus, h.turned]
    simp [Move.not_turns hb hb' hst]
  · rw [hstatus]
    rcases List.mem_cons.mp hm' with rfl | hm'
    · have hown := h.own st (hst ▸ hst'.status_eq hb')
      rwa [← hstatus, Bridge.statusOrInitial_of_some (hst'.status_eq hb')]
    · exact h.named m' hm' st hst'
  · rcases List.mem_cons.mp hm' with rfl | hm'
    · rwa [Bridge.statusOrInitial_of_some (hst'.status_eq hb')]
    · rw [hstatus]
      exact h.kept m' hm' st hst' k t ht

/-- A status that is stored is of a new state, or its state is in the log already. -/
theorem extended (hst : b'.status = some st) (hext : st.Extends b.statusOrInitial) :
    b'.Chronicled a (m :: life) := by
  have hstatus := Bridge.statusOrInitial_of_some hst
  have hown : st.stateTransitions.contains st.state.text = true :=
    (hext.contains _).mpr (.inl rfl)
  have hleaves : ∀ {st'}, m.Leaves a st' → st' = st := fun hst' =>
    Option.some.inj ((hst'.status_eq hb').symm.trans hst)
  refine ⟨fun st' hst' => ?_, fun k => ?_, fun m' hm' st' hst' => ?_,
    fun m' hm' st' hst' k t ht => ?_⟩
  · cases hst.symm.trans hst'
    exact hown
  · rw [hstatus, hext.contains]
    constructor
    · rintro (rfl | hold)
      · by_cases hturn : b.status.map (·.state) = some st.state
        · obtain ⟨c, hc, hstate⟩ := Option.map_eq_some_iff.mp hturn
          have hlogged := h.own c hc
          rw [hstate] at hlogged
          rw [← Bridge.statusOrInitial_of_some hc] at hlogged
          obtain ⟨state, htext, m', hm', hturns⟩ := (h.turned _).mp hlogged
          exact ⟨state, htext, m', .tail _ hm', hturns⟩
        · exact ⟨st.state, rfl, m, .head _, b, b', hb, hb', hturn, by rw [hst]; rfl⟩
      · obtain ⟨state, htext, m', hm', hturns⟩ := (h.turned k).mp hold
        exact ⟨state, htext, m', .tail _ hm', hturns⟩
    · rintro ⟨state, rfl, m', hm', hturns⟩
      rcases List.mem_cons.mp hm' with rfl | hm'
      · obtain ⟨c, c', hc, hc', -, hstate⟩ := hturns
        cases hb'.symm.trans hc'
        rw [hst] at hstate
        exact .inl (congrArg BridgeState.text (Option.some.inj hstate))
      · exact .inr ((h.turned _).mpr ⟨state, rfl, m', hm', hturns⟩)
  · rw [hstatus]
    rcases List.mem_cons.mp hm' with rfl | hm'
    · rw [hleaves hst']
      exact hown
    · exact (hext.contains _).mpr (.inr (h.named m' hm' st' hst'))
  · rw [hstatus]
    rcases List.mem_cons.mp hm' with rfl | hm'
    · exact hleaves hst' ▸ ht
    · exact hext.keeps k t (h.kept m' hm' st' hst' k t ht)

end

theorem of_holdsTarget (h : b.Chronicled a life)
    (hheld : b.statusOrInitial.state.holdsTarget = true) :
    b.statusOrInitial.stateTransitions.contains b.statusOrInitial.state.text = true := by
  cases hst : b.status with
  | none =>
    rw [Bridge.statusOrInitial, hst] at hheld
    cases hheld
  | some st =>
    rw [Bridge.statusOrInitial_of_some hst]
    exact h.own st hst

/-- What the log shows of an install, if every stored status shows what its state is. -/
theorem remembers (h : b.Chronicled a life) (hk : b.statusOrInitial.Kept)
    (hlife : ∀ m ∈ life, ∀ st, m.Leaves a st → st.Kept) : b.Remembers a life where
  installed := by
    rw [hk.everInstalled]
    constructor
    · intro hlogged
      obtain ⟨state, htext, m, hm, c, c', -, hc', -, hstate⟩ := (h.turned _).mp hlogged
      obtain ⟨st, hst, hs⟩ := Option.map_eq_some_iff.mp hstate
      exact ⟨m, hm, st, ⟨c', hc', hst⟩, hs.trans (BridgeState.text_injective htext)⟩
    · rintro ⟨m, hm, st, hst, hs⟩
      rw [← hs]
      exact h.named m hm st hst
  lasting m hm st hst hever := by
    rw [(hlife m hm st hst).everInstalled] at hever
    rw [hk.everInstalled]
    obtain ⟨t, ht⟩ := SortedMap.contains_iff_get?.mp hever
    exact SortedMap.contains_iff_get?.mpr ⟨t, h.kept m hm st hst _ t ht⟩

end Bridge.Chronicled

/-! ## Along a run -/

def Event.reads? : Event → Option Instant
  | .answered _ .now t => some t
  | _ => none

/-- What the clock showed whenever a pass has read it, the newest first. -/
def readings (trail : List Move) : List Instant := trail.filterMap (·.event.reads?)

/-- The clock never goes back. -/
def ClockForward (trail : List Move) : Prop :=
  (readings trail).Pairwise fun later earlier => earlier.notAfter later = true

section

variable {ctx : BridgeContext} {rule : Rule} {start : World} {trail rest : List Move}
  {s s' : Scene (.table ctx)} {e : Event} {a : Address} {b b' x : Bridge} {m : Move} {φ : Moment}

theorem mem_readings_cons {t : Instant} (h : t ∈ readings rest) : t ∈ readings (m :: rest) := by
  unfold readings at h ⊢
  rw [List.filterMap_cons]
  split
  · exact h
  · exact .tail _ h

theorem ClockForward.before (h : ClockForward (m :: rest)) : ClockForward rest := by
  unfold ClockForward readings at h ⊢
  rw [List.filterMap_cons] at h
  split at h
  · exact h
  · exact (List.pairwise_cons.mp h).2

theorem ClockForward.newest (h : ClockForward (m :: rest)) {t t' : Instant}
    (hm : m.event.reads? = some t) (ht' : t' ∈ readings rest) : t'.notAfter t = true := by
  unfold ClockForward readings at h
  rw [List.filterMap_cons, hm] at h
  exact (List.pairwise_cons.mp h).1 t' ht'

theorem Run.lifetime_eq_nil {m : Machine} {s : Scene m} (hrun : Run m rule start trail s)
    (h : s.world.store a = none) : lifetime a trail = [] := by
  cases hrun with
  | start => rfl
  | move => simp [lifetime, h]

theorem Run.chronicled (hrun : Run (.table ctx) rule start trail s) (hstart : start.Initial) :
    ∀ {b}, s.world.store a = some b → b.Chronicled a (lifetime a trail) := by
  induction hrun with
  | start => exact fun hb => .of_none (hstart.status hb) fun m hm => absurd hm List.not_mem_nil
  | @move rest s s' e hrun hrule hstep ih =>
    intro b' hb'
    have hs := hrun.sound hstart
    rw [lifetime_cons hb']
    rcases hstep.status hs hb' with
      ⟨hnone, hst⟩ | ⟨b, hb, hst | ⟨x, φ, st, _, _, r, hst, -, -, hadv⟩⟩
    · rw [hrun.lifetime_eq_nil hnone]
      refine .of_none hst fun m hm => ?_
      obtain rfl := List.mem_singleton.mp hm
      refine ⟨fun state => ?_, fun st => Move.not_leaves hb' hst⟩
      rintro ⟨c, c', hc, -⟩
      cases hnone.symm.trans hc
    · exact (ih hb).same hb hb' hst
    · exact (ih hb).extended hb hb' hst (hadv.extends (hs.kept hb))

/-- What is known of the times in the log of a bridge: all of them have been read from the clock,
and no later than the pass over the bridge has read it last. -/
structure Dated (a : Address) (trail : List Move) (s : Scene (.table ctx)) : Prop where
  logged : ∀ {b k t}, s.world.store a = some b →
    b.statusOrInitial.stateTransitions.get? k = some t → t ∈ readings trail
  read : ∀ {x φ t}, s.passes a = some (x, φ) → φ.read = some t → t ∈ readings trail
  latest : ∀ {x φ t b k t'}, s.passes a = some (x, φ) → φ.read = some t →
    s.world.store a = some b → b.statusOrInitial.stateTransitions.get? k = some t' →
    t'.notAfter t = true
  ordered : ∀ {b}, s.world.store a = some b → b.statusOrInitial.Ordered

theorem Dated.quiet (h : start.Initial) : Dated a [] (.quiet (.table ctx) start) where
  logged hb hget := by
    rw [Bridge.statusOrInitial, h.status hb] at hget
    cases hget
  read hp := nomatch hp
  latest hp := nomatch hp
  ordered hb := by
    rw [Bridge.statusOrInitial, h.status hb]
    exact BridgeStatus.ordered_initial

/-- What a pass stores is what it was about to store. -/
theorem Step.pending {ns name : String} {st : BridgeStatus} {r : Except Error Unit}
    (hstep : Step (.table ctx) s (.answered a (.patchStatus ns name st) r) s')
    (hp : s.passes a = some (x, φ)) : φ.phase.pending (ofBridge ctx x) φ.read = some st := by
  cases hstep with
  | answer hp' hdoes hserve =>
    cases hp.symm.trans hp'
    exact hdoes.patchStatus.2.2.1

/-- An entry of a stored log was there before, or its time is the last reading of the pass over the
bridge. -/
theorem Step.entry (hstep : Step (.table ctx) s e s') (hs : s.Sound) {k : String} {t : Instant}
    (hb' : s'.world.store a = some b')
    (hget : b'.statusOrInitial.stateTransitions.get? k = some t) :
    (∃ b, s.world.store a = some b ∧ b.statusOrInitial.stateTransitions.get? k = some t) ∨
      ∃ x φ, s.passes a = some (x, φ) ∧ φ.read = some t := by
  rcases hstep.status hs hb' with
    ⟨-, hst⟩ | ⟨b, hb, hst | ⟨x, φ, st, _, _, r, hst, hp, rfl, hadv⟩⟩
  · rw [Bridge.statusOrInitial, hst] at hget
    cases hget
  · rw [Bridge.statusOrInitial_congr hst] at hget
    exact .inl ⟨b, hb, hget⟩
  · rw [Bridge.statusOrInitial_of_some hst] at hget
    rcases (hs.phase hp hb).entry (hstep.pending hp) hget with hold | ⟨-, hread⟩
    · exact .inl ⟨b, hb, hold⟩
    · exact .inr ⟨x, φ, hp, hread⟩

namespace Dated

section

variable (h : Dated a rest s) (hs : s.Sound) (hstep : Step (.table ctx) s e s')

include h hs hstep

theorem step_logged {k : String} {t : Instant} (hb' : s'.world.store a = some b')
    (hget : b'.statusOrInitial.stateTransitions.get? k = some t) : t ∈ readings rest := by
  rcases hstep.entry hs hb' hget with ⟨b, hb, hold⟩ | ⟨x, φ, hp, hread⟩
  · exact h.logged hb hold
  · exact h.read hp hread

omit hs in
theorem step_read {t : Instant} (hp : s'.passes a = some (x, φ)) (hread : φ.read = some t) :
    t ∈ readings (Move.of s e s' :: rest) := by
  have hcourse := hstep.course a
  rw [hp] at hcourse
  generalize hbefore : s.passes a = before at hcourse
  cases hcourse with
  | keep => exact mem_readings_cons (h.read hbefore hread)
  | take b => cases hread
  | answer x φ φ' c r he hdoes hserve =>
    rcases hdoes.reads with hsame | ⟨t', hcall, hnow⟩
    · exact mem_readings_cons (h.read hbefore (hsame ▸ hread))
    · cases hcall
      cases hnow.symm.trans hread
      rw [readings, List.filterMap_cons, show (Move.of s e s').event = e from rfl, he]
      exact .head _

theorem step_latest (hclock : ClockForward (Move.of s e s' :: rest)) {k : String} {t t' : Instant}
    (hp : s'.passes a = some (x, φ)) (hread : φ.read = some t)
    (hb' : s'.world.store a = some b')
    (hget : b'.statusOrInitial.stateTransitions.get? k = some t') : t'.notAfter t = true := by
  -- a pass that had read the clock before stores no other time
  have hsince : ∀ {φ}, s.passes a = some (x, φ) → φ.read = some t → t'.notAfter t = true := by
    intro φ hp hread
    rcases hstep.entry hs hb' hget with ⟨b, hb, hold⟩ | ⟨x', φ', hp', hread'⟩
    · exact h.latest hp hread hb hold
    · cases hp.symm.trans hp'
      cases hread.symm.trans hread'
      simp [Instant.notAfter, Instant.before_irrefl]
  have hcourse := hstep.course a
  rw [hp] at hcourse
  generalize hbefore : s.passes a = before at hcourse
  cases hcourse with
  | keep => exact hsince hbefore hread
  | take b => cases hread
  | answer x φ φ' c r he hdoes hserve =>
    rcases hdoes.reads with hsame | ⟨t₀, hcall, hnow⟩
    · exact hsince hbefore (hsame ▸ hread)
    · cases hcall
      cases hnow.symm.trans hread
      refine hclock.newest ?_ (h.step_logged hs hstep hb' hget)
      rw [show (Move.of s e s').event = e from rfl, he]
      rfl

theorem step_ordered {life : List Move}
    (hchronicled : ∀ {b}, s.world.store a = some b → b.Chronicled a life)
    (hb' : s'.world.store a = some b') : b'.statusOrInitial.Ordered := by
  rcases hstep.status hs hb' with
    ⟨-, hst⟩ | ⟨b, hb, hst | ⟨x, φ, st, _, _, r, hst, hp, rfl, hadv⟩⟩
  · rw [Bridge.statusOrInitial, hst]
    exact BridgeStatus.ordered_initial
  · rw [Bridge.statusOrInitial_congr hst]
    exact h.ordered hb
  · rw [Bridge.statusOrInitial_of_some hst]
    refine hadv.ordered (hs.kept hb) (hchronicled hb).of_holdsTarget (fun k t hget => ?_)
      (h.ordered hb)
    rcases (hs.phase hp hb).entry (hstep.pending hp) hget with hold | ⟨hk, hread⟩
    · exact .inl hold
    · exact .inr ⟨hk, fun k' t' => h.latest hp hread hb⟩

theorem step {life : List Move} (hclock : ClockForward (Move.of s e s' :: rest))
    (hchronicled : ∀ {b}, s.world.store a = some b → b.Chronicled a life) :
    Dated a (Move.of s e s' :: rest) s' where
  logged hb hget := mem_readings_cons (h.step_logged hs hstep hb hget)
  read := h.step_read hstep
  latest := h.step_latest hs hstep hclock
  ordered := h.step_ordered hs hstep hchronicled

end

theorem run (hrun : Run (.table ctx) rule start trail s) (hstart : start.Initial)
    (hclock : ClockForward trail) : Dated a trail s := by
  induction hrun with
  | start => exact quiet hstart
  | move hrun hrule hstep ih =>
    exact (ih hclock.before).step (hrun.sound hstart) hstep hclock (hrun.chronicled hstart)

end Dated

end

/-- **The log of transitions only grows.** Whatever happens to a bridge after it has come, its log
names exactly the states that it has changed over to, it has every entry of every status that was
stored, and by it the bridge is known to have been INSTALLING. If the clock never goes back, then
INSTALLED is not before INSTALLING, nor ACTIVE before INSTALLED. -/
theorem log_only_grows {ctx : BridgeContext} {rule : Rule} {start : World} {trail : List Move}
    {s : Scene (.programs ctx)} {a : Address} {b : Bridge} (hstart : start.Initial)
    (hrun : Run (.programs ctx) rule start trail s) (hb : s.world.store a = some b) :
    b.Chronicled a (lifetime a trail) ∧ b.Remembers a (lifetime a trail) ∧
      (ClockForward trail → b.statusOrInitial.Ordered) := by
  obtain ⟨t, ht, htab⟩ := hrun.tabulated
  rw [← htab.world] at hb
  have hchronicled := ht.chronicled hstart hb
  refine ⟨hchronicled, ?_, fun hclock => (Dated.run ht hstart hclock).ordered hb⟩
  refine hchronicled.remembers ((ht.sound hstart).kept hb) fun m hm st hst => ?_
  obtain ⟨rest, s₀, e, s₁, hrest, -, -, hstep, rfl⟩ := ht.of_mem (mem_of_mem_lifetime hm)
  obtain ⟨c, hc, hcst⟩ := hst
  have hkept := (hstep.sound (hrest.sound hstart)).kept hc
  rwa [Bridge.statusOrInitial_of_some hcst] at hkept

/-! ## A bridge that becomes ACTIVE while the clock stands still -/

/-- Whoever reads the clock, it shows the same. -/
def Rule.still : Rule
  | _, _, .answered _ .now t => t = ⟨0, 0⟩
  | _, _, _ => True

theorem clockForward_of_still {m : Machine} {start : World} {trail : List Move} {s : Scene m}
    (hrun : Run m .still start trail s) : ClockForward trail := by
  have hreads : ∀ t ∈ readings trail, t = ⟨0, 0⟩ := by
    intro t ht
    obtain ⟨mv, hmv, hread⟩ := List.mem_filterMap.mp ht
    obtain ⟨rest, s₀, e, s₁, -, -, hrule, -, rfl⟩ := hrun.of_mem hmv
    have hevent : e.reads? = some t := hread
    unfold Event.reads? at hevent
    split at hevent
    · cases hevent
      exact hrule
    · cases hevent
  refine List.pairwise_of_forall_mem_list fun t ht t' ht' => ?_
  rw [hreads t ht, hreads t' ht']
  rfl

namespace Sample

/-- How the pass over the first bridge is answered while the clock stands still. -/
def Answers (c : BridgeCall) (w : World) (r : Answer c) (w' : World) : Prop :=
  w.Serves first c r w' ∧ Rule.still w (alone first) (.answered first.address c r)

section

variable {w w' : World} {s : BridgeStatus} {state : BridgeState} {message : Option String}

theorem exec_published (n : Kube.Notice) :
    (BridgeWork.publish n).run.Exec Answers w (.ok ()) w :=
  Attempt.exec_always.mpr ⟨(), Prog.exec_perform.mpr ⟨rfl, trivial⟩, rfl⟩

theorem exec_entered {st₀ : Option BridgeStatus}
    (h : w.store first.address = some { first with status := st₀ }) :
    ((ofBridge context first).enter s state message).run.Exec Answers w
      (.ok (entering s state message ⟨0, 0⟩))
      (w.having first (entering s state message ⟨0, 0⟩)) := by
  have hrecord : ((ofBridge context first).record (entering s state message ⟨0, 0⟩)).run.Exec
      Answers w (.ok ()) (w.having first (entering s state message ⟨0, 0⟩)) :=
    Prog.exec_perform.mpr ⟨.inl (World.modify_patched h).symm, trivial⟩
  refine Attempt.exec_ok (a := (⟨0, 0⟩ : Instant)) (Attempt.exec_always.mpr
    ⟨_, Prog.exec_perform.mpr ⟨rfl, rfl⟩, rfl⟩) ?_
  exact Attempt.exec_ok hrecord (Attempt.exec_pure.mpr ⟨rfl, rfl⟩)

theorem exec_requested (h : w.store first.address = some first)
    (hvalid : w.Employs first .look (copier.provider.validate copier.binding first [first]) (.ok ())
      w) : ((ofBridge context first).requested .initial).run.Exec Answers w
        (.ok (.next (first.admittedStatus context)))
        (w.having first (first.admittedStatus context)) := by
  have hnew : w.store first.address = some { first with status := none } := h
  unfold BridgePass.requested
  rw [show (ofBridge context first).bridge.provider (ofBridge context first).context = .ok copier
    from provider_first]
  refine Attempt.exec_ok (a := [first]) (Prog.exec_perform.mpr ⟨rfl, trivial⟩) ?_
  refine Attempt.exec_ok (a := .ok ()) (Attempt.exec_outcome.mpr
    ⟨_, Prog.exec_perform.mpr ⟨hvalid, trivial⟩, rfl⟩) ?_
  refine Attempt.exec_ok (exec_published _) ?_
  refine Attempt.exec_ok (exec_entered hnew) ?_
  exact Attempt.exec_ok (exec_published _) (Attempt.exec_pure.mpr ⟨rfl, rfl⟩)

theorem exec_installed (hinstall : w.Employs first .mount
      (copier.provider.install copier.binding) (.ok ()) w')
    (hready : w'.Employs first .look (copier.provider.ready copier.binding) (.ok true) w')
    (h : w'.store first.address = some { first with status := some s }) :
    ((ofBridge context first).installing s).run.Exec Answers w
      (.ok (.next (entering s .installed none ⟨0, 0⟩)))
      (w'.having first (entering s .installed none ⟨0, 0⟩)) := by
  have hcheck : (BridgeWork.checkReady copier context.config.readinessTimeout).Exec Answers w'
      (.finished 0 (.ok true)) w' := by
    refine Prog.exec_perform.mpr ⟨⟨_, hready, fun elapsed v hv => ?_⟩, trivial⟩
    cases hv
    rfl
  unfold BridgePass.installing
  rw [show (ofBridge context first).bridge.provider (ofBridge context first).context = .ok copier
    from provider_first]
  refine Attempt.exec_ok (a := .ok ()) (Attempt.exec_outcome.mpr
    ⟨_, Prog.exec_perform.mpr ⟨hinstall, trivial⟩, rfl⟩) ?_
  refine Attempt.exec_ok (BridgePass.exec_awaitReady hcheck) ?_
  refine Attempt.exec_ok (exec_entered h) ?_
  exact Attempt.exec_ok (exec_published _) (Attempt.exec_pure.mpr ⟨rfl, rfl⟩)

end

/-- The first bridge goes from its request to ACTIVE in one pass. -/
theorem activates_still : ∃ trail s, Run (.programs context) .still
    (.ofBridges [first] .empty) trail s ∧
    s.world.store first.address = some activated := by
  let w : World := .ofBridges [first] .empty
  let admitted := first.admittedStatus context
  have hvalid : w.Employs first .look (copier.provider.validate copier.binding first [first])
      (.ok ()) w := ⟨rfl, (Duplicate.exec_validate (c := .deployment) rfl rfl rfl rfl).1⟩
  obtain ⟨e', hmount, hready⟩ := installs_first (w.having first admitted)
  let w' : World := ⟨(w.having first admitted).store, e'⟩
  have hstored : (w.having first admitted).store first.address =
      some { first with status := some admitted } := World.having_store
  have hactive : ((ofBridge context first).fromInstalling admitted).run.Exec Answers
      (w.having first admitted) (.ok (.requeue context.config.bridgeInterval))
      ((w'.having first (entering admitted .installed none ⟨0, 0⟩)).having first
        admitted.activated) := by
    refine Attempt.exec_ok (exec_installed hmount hready hstored) ?_
    refine Attempt.exec_ok (exec_entered World.having_store) ?_
    exact Attempt.exec_ok (exec_published _) (Attempt.exec_pure.mpr ⟨rfl, rfl⟩)
  have hpass := exec_live claimed_bridge (exec_accepted (exec_new rfl) rfl
    (exec_requested World.ofBridges_head hvalid) hactive)
  have hquiet : Run (.programs context) .still w [] _ := .start
  have hbegins : Rule.still w (fun _ => none) (.began first.address) := trivial
  have hbegan := hquiet.move hbegins (Scene.take_single World.ofBridges_head)
  obtain ⟨later, hlater⟩ := hbegan.steps hpass.steps
  exact ⟨_, _, hlater, World.having_store⟩

end Sample

theorem log_only_grows_shop : ∃ trail s,
    (World.ofBridges [Sample.first] .empty).Initial ∧
    Run (.programs Sample.context) .still (.ofBridges [Sample.first] .empty) trail s ∧
    s.world.store Sample.first.address = some Sample.activated ∧ ClockForward trail ∧
    Sample.activated.Chronicled Sample.first.address (lifetime Sample.first.address trail) ∧
    Sample.activated.Remembers Sample.first.address (lifetime Sample.first.address trail) ∧
    Sample.activated.statusOrInitial.Ordered := by
  obtain ⟨trail, s, hrun, hstored⟩ := Sample.activates_still
  have hclock := clockForward_of_still hrun
  obtain ⟨hchronicled, hremembers, hordered⟩ := log_only_grows Sample.initial_first hrun hstored
  exact ⟨trail, s, Sample.initial_first, hrun, hstored, hclock, hchronicled, hremembers,
    hordered hclock⟩

end BridgeOperator
