import BridgeOperator.Proofs.Pass.Protocol
import BridgeOperator.Proofs.SortedMap

/-!
What a pass knows about the stored status in each of its phases, and from that the ways in which
it may change it. A pass that installs, waits or watches does so for the spec that is recorded.
-/

namespace BridgeOperator

theorem BridgeState.text_injective : Function.Injective BridgeState.text := by
  intro x y h
  cases x <;> cases y <;> first | rfl | (revert h; decide)

namespace BridgeStatus

@[simp] theorem everInstalled_initial : initial.everInstalled = false := by decide

/-- The record of a bridge agrees with its state: whoever holds a target has been INSTALLING, and
whoever has been INSTALLING has recorded a spec. What is recorded is the text of a spec. -/
structure Kept (s : BridgeStatus) : Prop where
  logged : s.state.holdsTarget = true →
    s.stateTransitions.contains BridgeState.installing.text = true
  recorded : s.stateTransitions.contains BridgeState.installing.text = true →
    s.lastAppliedSpec.isSome = true
  written : ∀ text, s.lastAppliedSpec = some text → ∃ spec : BridgeSpec, text = spec.canonical

theorem kept_initial : initial.Kept where
  logged h := by simp [initial, BridgeState.holdsTarget] at h
  recorded h := by simp [initial] at h
  written _ h := nomatch h

variable {s : BridgeStatus}

theorem everInstalled_of_holdsTarget (h : s.state.holdsTarget = true) :
    s.everInstalled = true := by
  simp [everInstalled, h]

theorem Kept.everInstalled (h : s.Kept) :
    s.everInstalled = s.stateTransitions.contains BridgeState.installing.text := by
  unfold BridgeStatus.everInstalled
  cases hs : s.state.holdsTarget with
  | true => simp [h.logged hs]
  | false => simp

theorem Kept.recorded_of_everInstalled (h : s.Kept) (hs : s.everInstalled = true) :
    ∃ spec : BridgeSpec, s.lastAppliedSpec = some spec.canonical := by
  rw [h.everInstalled] at hs
  obtain ⟨text, htext⟩ := Option.isSome_iff_exists.mp (h.recorded hs)
  obtain ⟨spec, rfl⟩ := h.written text htext
  exact ⟨spec, htext⟩

end BridgeStatus

namespace Bridge

theorem statusOrInitial_congr {b b' : Bridge} (h : b'.status = b.status) :
    b'.statusOrInitial = b.statusOrInitial := by
  simp only [statusOrInitial, h]

theorem statusOrInitial_of_some {b : Bridge} {st : BridgeStatus} (h : b.status = some st) :
    b.statusOrInitial = st := by
  rw [statusOrInitial, h]
  rfl

theorem lastAppliedSpec_statusOrInitial (b : Bridge) :
    b.statusOrInitial.lastAppliedSpec = b.status.bind (·.lastAppliedSpec) := by
  unfold statusOrInitial
  cases b.status <;> rfl

theorem state_statusOrInitial (b : Bridge) : b.statusOrInitial.state = b.state := by
  unfold statusOrInitial state
  cases b.status <;> rfl

/-- The spec has not changed if what is recorded, if anything, is its text. -/
theorem specChanged_eq_false {b : Bridge} :
    b.specChanged = false ↔
      ∀ text, b.statusOrInitial.lastAppliedSpec = some text → text = b.spec.canonical := by
  unfold specChanged
  rw [lastAppliedSpec_statusOrInitial]
  cases b.status.bind (·.lastAppliedSpec) with
  | none => simp
  | some last =>
    simp only [ne_eq, decide_not, Bool.not_eq_false', decide_eq_true_eq, Option.some.injEq,
      forall_eq']
    exact eq_comm

end Bridge

namespace BridgePass

variable {p : BridgePass} {s : BridgeStatus} {state : BridgeState} {message : Option String}
  {t : Instant}

@[simp] theorem entering_state : (entering s state message t).state = state := rfl

@[simp] theorem entering_lastAppliedSpec :
    (entering s state message t).lastAppliedSpec = s.lastAppliedSpec := rfl

@[simp] theorem transition_contains (k : String) :
    (s.transition state message t).stateTransitions.contains k =
      (decide (state.text = k) || s.stateTransitions.contains k) := by
  unfold BridgeStatus.transition
  by_cases hc : s.stateTransitions.contains state.text = true
  · simp only [if_pos hc]
    by_cases hk : state.text = k
    · rw [← hk, hc, Bool.or_true]
    · simp [hk]
  · simp only [if_neg hc]
    exact SortedMap.contains_insert _ _ _ _

@[simp] theorem entering_contains (k : String) :
    (entering s state message t).stateTransitions.contains k =
      (decide (state.text = k) || s.stateTransitions.contains k) := by
  show (s.transition state message t).stateTransitions.contains k = _
  exact transition_contains k

@[simp] theorem text_eq_installing :
    decide (state.text = BridgeState.installing.text) = decide (state = .installing) := by
  cases state <;> decide

/-- The status is about the spec that the pass is for. -/
def Recorded (p : BridgePass) (s : BridgeStatus) : Prop :=
  s.lastAppliedSpec = some p.bridge.spec.canonical

/-- The spec has been edited since it was decided about. -/
structure Superseded (p : BridgePass) : Prop where
  changed : p.bridge.specChanged = true
  state : p.bridge.statusOrInitial.state ≠ .requested
  present : p.bridge.statusOrInitial.state ≠ .removed

/-- What the pass knows in a phase, where `cur` is the status that is stored. -/
def Phase.Sound (p : BridgePass) (cur : BridgeStatus) : Phase → Prop
  | .claiming | .dismissing => cur = p.bridge.statusOrInitial
  | .reopening => cur = p.bridge.statusOrInitial ∧ p.Superseded
  | .replacing former => cur = p.bridge.statusOrInitial ∧ p.Superseded ∧
    cur.everInstalled = true ∧ p.bridge.applied.provider p.context = .ok former
  | .dismantling former => cur = p.bridge.statusOrInitial ∧ cur.everInstalled = true ∧
    p.bridge.applied.provider p.context = .ok former
  | .asking s provider | .checking s provider _ | .admitted s provider =>
    cur = s ∧ s.state = .requested ∧ p.bridge.provider p.context = .ok provider
  | .failing s _ => (s = p.withSpec cur ∧ cur.state = .requested) ∨
    (s = cur ∧ s.state = .installing ∧ p.Recorded s)
  | .mounting s provider | .waiting s provider => cur = s ∧ s.state = .installing ∧
    p.Recorded s ∧ p.bridge.provider p.context = .ok provider
  | .settling s | .noting s _ => cur = s ∧ s.state = .installing ∧ p.Recorded s
  | .mounted s => cur = s ∧ s.state = .installed ∧ p.Recorded s
  | .watching s provider => cur = s ∧ s.state = .active ∧ p.Recorded s ∧
    p.bridge.provider p.context = .ok provider
  | .drifted s => cur = s ∧ s.state = .active ∧ p.Recorded s
  | .releasing | .over => True

/-- The ways in which a pass changes the stored status. -/
inductive Advance (p : BridgePass) (cur : BridgeStatus) : Phase → BridgeStatus → Prop
  | reopen (t : Instant) : p.Superseded → cur = p.bridge.statusOrInitial →
    Advance p cur .reopening (entering cur .requested (some "spec changed") t)
  | accept (provider : BoundProvider) (t : Instant) : cur.state = .requested →
    Advance p cur (.admitted cur provider) (entering (p.withSpec cur) .installing none t)
  | reject (e : Error) (t : Instant) : cur.state = .requested →
    Advance p cur (.failing (p.withSpec cur) e)
      (entering (p.withSpec cur) .error (some e.message) t)
  | fail (e : Error) (t : Instant) : cur.state = .installing → p.Recorded cur →
    Advance p cur (.failing cur e) (entering cur .error (some e.message) t)
  | settle (t : Instant) : cur.state = .installing → p.Recorded cur →
    Advance p cur (.settling cur) (entering cur .installed none t)
  | note (message : String) : cur.state = .installing → p.Recorded cur →
    Advance p cur (.noting cur message) { cur with message := some message }
  | activate (t : Instant) : cur.state = .installed → p.Recorded cur →
    Advance p cur (.mounted cur) (entering cur .active none t)
  | drift (t : Instant) : cur.state = .active → p.Recorded cur →
    Advance p cur (.drifted cur) (entering cur .installing (some "reinstalling after drift") t)
  | dismiss (t : Instant) :
    Advance p cur .dismissing (cur.transition .removed (some "bridge removed") t)

variable {cur st : BridgeStatus} {φ : Phase} {read : Option Instant}

/-- What a sound phase stores is one of the ways. -/
theorem Phase.Sound.advance (h : φ.Sound p cur) (hst : φ.pending p read = some st) :
    p.Advance cur φ st := by
  cases φ <;> cases read <;> try cases hst
  case reopening.some t =>
    obtain ⟨rfl, hchanged⟩ := h
    exact .reopen t hchanged rfl
  case admitted.some s provider t =>
    obtain ⟨rfl, hs, -⟩ := h
    exact .accept provider t hs
  case failing.some s e t =>
    rcases h with ⟨rfl, hs⟩ | ⟨rfl, hs, hr⟩
    · exact .reject e t hs
    · exact .fail e t hs hr
  case settling.some s t =>
    obtain ⟨rfl, hs, hr⟩ := h
    exact .settle t hs hr
  case noting.none s message =>
    obtain ⟨rfl, hs, hr⟩ := h
    exact .note message hs hr
  case noting.some s message t =>
    obtain ⟨rfl, hs, hr⟩ := h
    exact .note message hs hr
  case mounted.some s t =>
    obtain ⟨rfl, hs, hr⟩ := h
    exact .activate t hs hr
  case drifted.some s t =>
    obtain ⟨rfl, hs, hr⟩ := h
    exact .drift t hs hr
  case dismissing.some t =>
    obtain rfl : cur = p.bridge.statusOrInitial := h
    exact .dismiss t

/-- Where a pass goes on from a status it knows, unless it holds a target for another spec. -/
theorem standing_sound (hs : s.state.holdsTarget = true → p.Recorded s) :
    (p.standing s).Sound p s := by
  unfold standing
  cases hstate : s.state with
  | requested =>
    cases hp : p.bridge.provider p.context with
    | ok provider => exact ⟨rfl, hstate, hp⟩
    | error e =>
      show Phase.Sound p s (if e.isRetryable then _ else _)
      split
      · exact trivial
      · exact .inl ⟨rfl, hstate⟩
  | installing =>
    have hr := hs (by rw [hstate]; rfl)
    cases hp : p.bridge.provider p.context with
    | ok provider => exact ⟨rfl, hstate, hr, hp⟩
    | error e =>
      show Phase.Sound p s (if e.isRetryable then _ else _)
      split
      · exact trivial
      · exact .inr ⟨rfl, hstate, hr⟩
  | installed => exact ⟨rfl, hstate, hs (by rw [hstate]; rfl)⟩
  | active =>
    have hr := hs (by rw [hstate]; rfl)
    cases hp : p.bridge.provider p.context with
    | ok provider => exact ⟨rfl, hstate, hr, hp⟩
    | error e => exact trivial
  | error => exact trivial
  | removed => exact trivial

/-- What is recorded is kept, or it is the spec that the pass is for. -/
theorem Advance.lastAppliedSpec (h : p.Advance cur φ st) :
    st.lastAppliedSpec = cur.lastAppliedSpec ∨ p.Recorded st := by
  cases h with
  | accept => exact .inr rfl
  | reject => exact .inr rfl
  | _ => exact .inl rfl

/-- The record is written where INSTALLING is entered and where a request is rejected. -/
theorem Advance.verdict (h : p.Advance cur φ st) :
    ((cur.state ≠ .installing ∧ st.state = .installing ∨
        cur.state = .requested ∧ st.state = .error) ∧ p.Recorded st) ∨
      st.lastAppliedSpec = cur.lastAppliedSpec ∧
        (st.state = .installing → cur.state = .installing) ∧
        (st.state = .error → cur.state ≠ .requested) ∧
        (st.everInstalled = true → cur.everInstalled = true) := by
  have hheld : cur.state.holdsTarget = true → st.everInstalled = true →
      cur.everInstalled = true := fun h _ => BridgeStatus.everInstalled_of_holdsTarget h
  cases h with
  | reopen t hs hcur =>
    exact .inr ⟨rfl, nofun, nofun, by simp +contextual [BridgeStatus.everInstalled,
      BridgeState.holdsTarget]⟩
  | accept provider t hs => exact .inl ⟨.inl ⟨by simp [hs], rfl⟩, rfl⟩
  | reject e t hs => exact .inl ⟨.inr ⟨hs, rfl⟩, rfl⟩
  | fail e t hs hr =>
    exact .inr ⟨rfl, nofun, fun _ => by simp [hs], hheld (by rw [hs]; rfl)⟩
  | settle t hs hr => exact .inr ⟨rfl, nofun, nofun, hheld (by rw [hs]; rfl)⟩
  | note message hs hr => exact .inr ⟨rfl, fun _ => hs, fun _ => by simp [hs], id⟩
  | activate t hs hr => exact .inr ⟨rfl, nofun, nofun, hheld (by rw [hs]; rfl)⟩
  | drift t hs hr => exact .inl ⟨.inl ⟨by simp [hs], rfl⟩, hr⟩
  | dismiss t =>
    refine .inr ⟨rfl, nofun, nofun, fun h => ?_⟩
    rw [BridgeStatus.everInstalled, transition_contains] at h
    have hlog : cur.stateTransitions.contains BridgeState.installing.text = true := h
    rw [BridgeStatus.everInstalled, hlog, Bool.or_true]

/-- Whatever a pass stores keeps the record in agreement with the state. -/
theorem Advance.kept (h : p.Advance cur φ st) (hk : cur.Kept) : st.Kept := by
  have hrecorded : ∀ {s : BridgeStatus}, p.Recorded s → s.lastAppliedSpec.isSome = true := by
    intro s hs
    rw [hs]
    rfl
  refine ⟨?_, ?_, ?_⟩
  · intro hst
    cases h with
    | reopen t hs hcur => simp [BridgeState.holdsTarget] at hst
    | accept provider t hs => simp
    | reject e t hs => simp [BridgeState.holdsTarget] at hst
    | fail e t hs hr => simp [BridgeState.holdsTarget] at hst
    | settle t hs hr => simp [hk.logged, hs, BridgeState.holdsTarget]
    | note message hs hr => exact hk.logged hst
    | activate t hs hr => simp [hk.logged, hs, BridgeState.holdsTarget]
    | drift t hs hr => simp
    | dismiss t => simp [BridgeStatus.transition, BridgeState.holdsTarget] at hst
  · intro hst
    cases h with
    | reopen t hs hcur => exact hk.recorded (by simpa using hst)
    | accept provider t hs => rfl
    | reject e t hs => rfl
    | fail e t hs hr => exact hrecorded hr
    | settle t hs hr => exact hrecorded hr
    | note message hs hr => exact hrecorded hr
    | activate t hs hr => exact hrecorded hr
    | drift t hs hr => exact hrecorded hr
    | dismiss t => exact hk.recorded (by simpa using hst)
  · intro text htext
    rcases h.lastAppliedSpec with hst | hst
    · exact hk.written text (hst ▸ htext)
    · rw [hst] at htext
      cases htext
      exact ⟨_, rfl⟩

/-- Only an edited spec leads back from the end. -/
theorem Advance.terminal (h : p.Advance cur φ st) (hcur : cur.state.isTerminal = true)
    (hs : ¬ p.Superseded) : st.state.isTerminal = true := by
  cases h with
  | reopen t hsuper _ => exact absurd hsuper hs
  | accept provider t hstate => simp [hstate, BridgeState.isTerminal] at hcur
  | reject => rfl
  | fail => rfl
  | settle t hstate => simp [hstate, BridgeState.isTerminal] at hcur
  | note message hstate => simp [hstate, BridgeState.isTerminal] at hcur
  | activate t hstate => simp [hstate, BridgeState.isTerminal] at hcur
  | drift t hstate => simp [hstate, BridgeState.isTerminal] at hcur
  | dismiss => rfl

/-- A target is held from the admission on, with what was recorded then. -/
theorem Advance.holdsTarget (h : p.Advance cur φ st) (hst : st.state.holdsTarget = true) :
    (cur.state.holdsTarget = true ∧ st.lastAppliedSpec = cur.lastAppliedSpec) ∨
      ∃ provider, φ = .admitted cur provider ∧ cur.state = .requested ∧
        st.state = .installing ∧ p.Recorded st := by
  cases h with
  | reopen => simp [BridgeState.holdsTarget] at hst
  | accept provider t hs => exact .inr ⟨provider, rfl, hs, rfl, rfl⟩
  | reject => simp [BridgeState.holdsTarget] at hst
  | fail => simp [BridgeState.holdsTarget] at hst
  | settle t hs => simp [hs, BridgeState.holdsTarget]
  | note message hs => simp [hs, BridgeState.holdsTarget]
  | activate t hs => simp [hs, BridgeState.holdsTarget]
  | drift t hs => simp [hs, BridgeState.holdsTarget]
  | dismiss => simp [BridgeStatus.transition, BridgeState.holdsTarget] at hst

theorem Advance.stored_sound (h : p.Advance cur φ st) : (φ.stored p st).Sound p st := by
  cases h with
  | reopen t hs hcur => exact standing_sound fun hst => by simp [BridgeState.holdsTarget] at hst
  | accept provider t hs => exact standing_sound fun _ => rfl
  | settle t hs hr => exact standing_sound fun _ => hr
  | drift t hs hr => exact standing_sound fun _ => hr
  | reject => exact trivial
  | fail => exact trivial
  | note => exact trivial
  | activate => exact trivial
  | dismiss => exact trivial

theorem Phase.unstored_sound : φ.unstored.Sound p cur := by
  cases φ <;> exact trivial

theorem opening_sound (hk : p.bridge.statusOrInitial.Kept) :
    p.opening.Sound p p.bridge.statusOrInitial := by
  unfold opening
  by_cases hc : (p.bridge.specChanged && p.bridge.statusOrInitial.state ≠ .requested
      && p.bridge.statusOrInitial.state ≠ .removed) = true
  · simp only [if_pos hc]
    simp only [ne_eq, Bool.and_eq_true, decide_eq_true_eq] at hc
    have hs : p.Superseded := ⟨hc.1.1, hc.1.2, hc.2⟩
    by_cases hi : p.bridge.statusOrInitial.everInstalled = true
    · simp only [if_pos hi]
      cases hp : p.bridge.applied.provider p.context with
      | ok former => exact ⟨rfl, hs, hi, hp⟩
      | error e => exact ⟨rfl, hs⟩
    · simp only [if_neg hi]
      exact ⟨rfl, hs⟩
  · simp only [if_neg hc]
    refine standing_sound fun hst => ?_
    have hsame : p.bridge.specChanged = false := by
      cases hstate : p.bridge.statusOrInitial.state <;> simp_all [BridgeState.holdsTarget]
    obtain ⟨text, htext⟩ := Option.isSome_iff_exists.mp (hk.recorded (hk.logged hst))
    rw [Recorded, htext, Bridge.specChanged_eq_false.mp hsame text htext]

theorem closing_sound : p.closing.Sound p p.bridge.statusOrInitial := by
  unfold closing
  split
  · next hi =>
    cases hp : p.bridge.applied.provider p.context with
    | ok former => exact ⟨rfl, hi, hp⟩
    | error e => rfl
  · rfl

theorem entry_sound (hk : p.bridge.statusOrInitial.Kept) :
    p.entry.Sound p p.bridge.statusOrInitial := by
  unfold entry
  split
  · exact trivial
  · split
    · split
      · exact closing_sound
      · exact trivial
    · split
      · exact opening_sound hk
      · rfl

/-! What a call says about the pass that makes it. -/

variable {m m' : Moment}

theorem Does.patchStatus {ns name : String} {r : Answer (BridgeCall.patchStatus ns name st)}
    (h : Does p m (.patchStatus ns name st) r m') :
    ns = p.namespaceName ∧ name = p.bridge.name ∧ m.phase.pending p m.read = some st ∧
      (r = .ok () ∧ m'.phase = m.phase.stored p st ∨
        (∃ e, r = .error e) ∧ m'.phase = m.phase.unstored) := by
  cases h with
  | store φ t s hs => exact ⟨rfl, rfl, hs, .inl ⟨rfl, rfl⟩⟩
  | lose φ t s e hs => exact ⟨rfl, rfl, hs, .inr ⟨⟨e, rfl⟩, rfl⟩⟩

theorem Does.addFinalizer {ns name : String} {r : Answer (BridgeCall.addFinalizer ns name)}
    (h : Does p m (.addFinalizer ns name) r m') : ns = p.namespaceName ∧ name = p.bridge.name := by
  cases h <;> exact ⟨rfl, rfl⟩

theorem Does.removeFinalizer {ns name : String} {r : Answer (BridgeCall.removeFinalizer ns name)}
    (h : Does p m (.removeFinalizer ns name) r m') :
    ns = p.namespaceName ∧ name = p.bridge.name ∧ m'.phase = .over := by
  cases h
  exact ⟨rfl, rfl, rfl⟩

theorem Does.validate_phase {q : BoundProvider} {request : Bridge} {peers : List Bridge}
    {r : Answer (BridgeCall.validate q request peers)}
    (h : Does p m (.validate q request peers) r m') : ∃ s, m.phase = .checking s q peers := by
  cases h <;> exact ⟨_, rfl⟩

theorem Does.ready_phase {q : BoundProvider} {limit : Nat} {r : Answer (BridgeCall.ready q limit)}
    (h : Does p m (.ready q limit) r m') :
    ∃ s, m.phase = .waiting s q ∨ m.phase = .watching s q := by
  cases h <;> first | exact ⟨_, .inl rfl⟩ | exact ⟨_, .inr rfl⟩

theorem Does.over {c : BridgeCall} {r : Answer c} (h : Does p m c r m') (hm : m.phase = .over) :
    m'.phase = .over := by
  cases h with
  | now => exact hm
  | publish => exact hm
  | sleep => exact hm
  | store φ t s hs =>
    obtain rfl : φ = .over := hm
    rfl
  | lose φ t s e hs =>
    obtain rfl : φ = .over := hm
    rfl
  | _ => cases hm

/-- A call that stores nothing leaves the pass knowing the status. -/
theorem Does.sound {c : BridgeCall} {r : Answer c} (h : Does p m c r m')
    (hc : ∀ ns name st, c ≠ .patchStatus ns name st) (hm : m.phase.Sound p cur) (hk : cur.Kept) :
    m'.phase.Sound p cur := by
  cases h with
  | now => exact hm
  | publish => exact hm
  | sleep => exact hm
  | claim =>
    obtain rfl : cur = p.bridge.statusOrInitial := hm
    exact opening_sound hk
  | unclaimed => exact trivial
  | replace => exact ⟨hm.1, hm.2.1⟩
  | list => exact hm
  | unlisted => exact trivial
  | accept => exact hm
  | reject s provider peers t e he =>
    obtain ⟨rfl, hs, -⟩ := hm
    exact .inl ⟨rfl, hs⟩
  | postpone => exact trivial
  | mount => exact hm
  | unmounted s provider t e he =>
    obtain ⟨rfl, hs, hr, -⟩ := hm
    exact .inr ⟨rfl, hs, hr⟩
  | mountLater => exact ⟨hm.1, hm.2.1, hm.2.2.1⟩
  | poll => exact hm
  | ready => exact ⟨hm.1, hm.2.1, hm.2.2.1⟩
  | broken s provider t limit elapsed e he =>
    obtain ⟨rfl, hs, hr, -⟩ := hm
    exact .inr ⟨rfl, hs, hr⟩
  | expire => exact ⟨hm.1, hm.2.1, hm.2.2.1⟩
  | expireAsleep => exact ⟨hm.1, hm.2.1, hm.2.2.1⟩
  | intact => exact trivial
  | drift => exact ⟨hm.1, hm.2.1, hm.2.2.1⟩
  | store φ t s hs => exact absurd rfl (hc _ _ s)
  | lose φ t s e hs => exact absurd rfl (hc _ _ s)
  | dismantle => exact hm.1
  | release => exact trivial

/-! How the phases of a request are come by. -/

/-- The pass has seen the other bridges and has yet to say what follows. -/
def Phase.isVetting : Phase → Bool
  | .checking .. | .admitted .. => true
  | _ => false

@[simp] theorem isVetting_standing : (p.standing s).isVetting = false := by
  unfold standing
  split <;> try rfl
  all_goals split <;> rfl

@[simp] theorem isVetting_opening : p.opening.isVetting = false := by
  unfold opening
  dsimp only
  split
  · split
    · split <;> rfl
    · rfl
  · exact isVetting_standing

@[simp] theorem isVetting_entry : p.entry.isVetting = false := by
  unfold entry closing
  cases p.bridge.applied.provider p.context <;> simp only <;> repeat' split
  all_goals first | rfl | exact isVetting_opening

@[simp] theorem isVetting_stored : (φ.stored p st).isVetting = false := by
  cases φ <;> first | rfl | exact isVetting_standing

@[simp] theorem isVetting_unstored : φ.unstored.isVetting = false := by
  cases φ <;> rfl

/-- Peers are what a list has said. -/
theorem Does.checking {c : BridgeCall} {r : Answer c} (h : Does p m c r m') {s : BridgeStatus}
    {q : BoundProvider} {peers : List Bridge} (hm' : m'.phase = .checking s q peers) :
    m.phase = .checking s q peers ∨ m.phase = .asking s q ∧
      (⟨c, r⟩ : Σ c : BridgeCall, Answer c) = ⟨.listBridges, .ok peers⟩ := by
  have hvetting : m'.phase.isVetting = true := by rw [hm']; rfl
  cases h with
  | now => exact .inl hm'
  | publish => exact .inl hm'
  | sleep => exact .inl hm'
  | list s' q' t peers' =>
    cases hm'
    exact .inr ⟨rfl, rfl⟩
  | claim => simp at hvetting
  | store => simp at hvetting
  | lose => simp at hvetting
  | _ => cases hm'

/-- A request is admitted when its provider has found nothing against it. -/
theorem Does.admitted {c : BridgeCall} {r : Answer c} (h : Does p m c r m') {s : BridgeStatus}
    {q : BoundProvider} (hm' : m'.phase = .admitted s q) :
    m.phase = .admitted s q ∨ ∃ peers, m.phase = .checking s q peers ∧
      (⟨c, r⟩ : Σ c : BridgeCall, Answer c) = ⟨.validate q p.bridge peers, .ok ()⟩ := by
  have hvetting : m'.phase.isVetting = true := by rw [hm']; rfl
  cases h with
  | now => exact .inl hm'
  | publish => exact .inl hm'
  | sleep => exact .inl hm'
  | accept s' q' peers t =>
    cases hm'
    exact .inr ⟨peers, rfl, rfl⟩
  | claim => simp at hvetting
  | store => simp at hvetting
  | lose => simp at hvetting
  | _ => cases hm'

/-! What a pass takes down goes by what it found when it began. -/

/-- The provider by which what was there before is taken down. -/
def Phase.former? : Phase → Option BoundProvider
  | .replacing former | .dismantling former => some former
  | _ => none

/-- The pass has stored nothing yet, and is about to say whether there is something to take down,
or is taking it down. -/
def Phase.isEarly : Phase → Bool
  | .claiming | .replacing _ | .dismantling _ => true
  | _ => false

/-- The bridge may have installed something, and its record says by which provider. -/
structure Former (p : BridgePass) (q : BoundProvider) : Prop where
  installed : p.bridge.statusOrInitial.everInstalled = true
  provider : p.bridge.applied.provider p.context = .ok q

theorem Phase.isEarly_of_former {q : BoundProvider} (h : φ.former? = some q) :
    φ.isEarly = true := by
  cases φ <;> first | rfl | cases h

theorem Phase.Sound.former {q : BoundProvider} (h : φ.Sound p cur) (hq : φ.former? = some q) :
    cur = p.bridge.statusOrInitial ∧ p.Former q := by
  cases φ with
  | replacing former =>
    cases hq
    obtain ⟨rfl, -, hinstalled, hprovider⟩ := h
    exact ⟨rfl, hinstalled, hprovider⟩
  | dismantling former =>
    cases hq
    obtain ⟨rfl, hinstalled, hprovider⟩ := h
    exact ⟨rfl, hinstalled, hprovider⟩
  | _ => cases hq

@[simp] theorem former_standing : (p.standing s).former? = none := by
  unfold standing
  split <;> try rfl
  all_goals split <;> rfl

@[simp] theorem isEarly_standing : (p.standing s).isEarly = false := by
  unfold standing
  split <;> try rfl
  all_goals split <;> rfl

theorem opening_former {q : BoundProvider} (h : p.opening.former? = some q) : p.Former q := by
  unfold opening at h
  dsimp only at h
  split at h
  · split at h
    · next hi =>
      cases hp : p.bridge.applied.provider p.context with
      | ok former =>
        rw [hp] at h
        cases h
        exact ⟨hi, hp⟩
      | error e =>
        rw [hp] at h
        cases h
    · cases h
  · rw [former_standing] at h
    cases h

theorem closing_former {q : BoundProvider} (h : p.closing.former? = some q) : p.Former q := by
  unfold closing at h
  split at h
  · next hi =>
    cases hp : p.bridge.applied.provider p.context with
    | ok former =>
      rw [hp] at h
      cases h
      exact ⟨hi, hp⟩
    | error e =>
      rw [hp] at h
      cases h
  · cases h

theorem entry_former {q : BoundProvider} (h : p.entry.former? = some q) : p.Former q := by
  unfold entry at h
  split at h
  · cases h
  · split at h
    · split at h
      · exact closing_former h
      · cases h
    · split at h
      · exact opening_former h
      · cases h

theorem former_stored : (φ.stored p st).former? = none := by
  cases φ <;> first | rfl | exact former_standing

theorem isEarly_stored : (φ.stored p st).isEarly = false := by
  cases φ <;> first | rfl | exact isEarly_standing

theorem former_unstored : φ.unstored.former? = none := by
  cases φ <;> rfl

theorem isEarly_unstored : φ.unstored.isEarly = false := by
  cases φ <;> rfl

theorem Does.former {c : BridgeCall} {r : Answer c} (h : Does p m c r m') {q : BoundProvider}
    (hq : m'.phase.former? = some q) : m.phase.former? = some q ∨ p.Former q := by
  cases h with
  | now => exact .inl hq
  | publish => exact .inl hq
  | sleep => exact .inl hq
  | claim => exact .inr (opening_former hq)
  | store =>
    rw [former_stored] at hq
    cases hq
  | lose =>
    rw [former_unstored] at hq
    cases hq
  | _ => cases hq

/-- There is no way back to where nothing has been stored. -/
theorem Does.isEarly {c : BridgeCall} {r : Answer c} (h : Does p m c r m')
    (hm' : m'.phase.isEarly = true) :
    m.phase.isEarly = true ∧ ∀ ns name st, c ≠ .patchStatus ns name st := by
  cases h with
  | now => exact ⟨hm', fun _ _ _ => nofun⟩
  | publish => exact ⟨hm', fun _ _ _ => nofun⟩
  | sleep => exact ⟨hm', fun _ _ _ => nofun⟩
  | claim => exact ⟨rfl, fun _ _ _ => nofun⟩
  | store =>
    rw [isEarly_stored] at hm'
    cases hm'
  | lose =>
    rw [isEarly_unstored] at hm'
    cases hm'
  | _ => cases hm'

theorem Does.uninstall {q : BoundProvider} {r : Answer (BridgeCall.uninstall q)}
    (h : Does p m (.uninstall q) r m') : m.phase.former? = some q := by
  cases h <;> rfl

end BridgePass
end BridgeOperator
