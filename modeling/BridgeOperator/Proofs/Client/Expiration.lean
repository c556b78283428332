import BridgeOperator.Proofs.Client.Protocol
import BridgeOperator.Proofs.World.Basic

/-!
Runs of passes over one client. Between their calls the client is edited and goes as it likes; the
operator may stop at any moment, and the clock may show anything. The states that are stored only
ever go forward, and the client is not deleted before its time.
-/

namespace BridgeOperator

/-- How far a state is along the way from ACTIVE over WAITING to EXPIRED. -/
def ClientState.stage : ClientState → Nat
  | .active => 0
  | .waiting => 1
  | .expired => 2

namespace ClientPass

variable {x : Client} {grace : Nat} {m m' : Moment} {ns name : String}

theorem Does.now_eq {r : Answer ClientCall.now} (h : Does x grace m .now r m') :
    m' = ⟨some (m.read.getD r), m.reached⟩ := by
  cases h with
  | now => rfl
  | aside _ _ _ hc => cases hc

theorem Does.patchStatus {s : ClientStatus} {r : Answer (ClientCall.patchStatus ns name s)}
    (h : Does x grace m (.patchStatus ns name s) r m') :
    m' = ⟨m.read, s.state⟩ ∧ m.reached.stage ≤ s.state.stage ∧
      (s.state = .active ∨ s.state = .waiting ∨ x.stateOrActive ≠ .active) ∧
      (x.sunset? = none → s.state = x.stateOrActive) := by
  cases h with
  | aside _ _ _ hc => cases hc
  | keep t _ _ _ _ hs =>
    rw [hs]
    refine ⟨rfl, Nat.le_refl _, ?_, fun _ => rfl⟩
    cases x.stateOrActive <;> simp
  | wait t _ _ _ _ hx hsunset hs =>
    rw [hs]
    exact ⟨rfl, Nat.zero_le _, .inr (.inl rfl), fun hnone => absurd hnone hsunset⟩
  | expire t _ _ _ _ hx hdue hs =>
    rw [hs, hx]
    refine ⟨rfl, Nat.le_succ _, .inr (.inr nofun), fun hnone => ?_⟩
    obtain ⟨sunset, hsunset, -⟩ := hdue
    rw [hnone] at hsunset
    cases hsunset

theorem Does.deleteClient {r : Answer (ClientCall.deleteClient ns name)}
    (h : Does x grace m (.deleteClient ns name) r m') :
    x.stateOrActive ≠ .active ∧ ∃ t, m.read = some t ∧ x.Overdue grace t := by
  cases h with
  | aside _ _ _ hc => cases hc
  | delete t reached _ _ _ hx hdue => exact ⟨hx, t, rfl, hdue⟩

/-- Only the clock and the status make a difference to where a pass stands. -/
theorem Does.unmoved {c : ClientCall} {r : Answer c} (h : Does x grace m c r m')
    (hnow : c ≠ .now) (hpatch : ∀ ns name s, c ≠ .patchStatus ns name s) : m' = m := by
  cases h with
  | now => exact absurd rfl hnow
  | keep t ns name s => exact absurd rfl (hpatch ns name s)
  | wait t ns name s => exact absurd rfl (hpatch ns name s)
  | expire t ns name s => exact absurd rfl (hpatch ns name s)
  | aside => rfl
  | delete => rfl

end ClientPass

namespace Client

/-- How a call is answered, and what it leaves of the stored client. After an error the effect may
not have come about. What a status does not mention may stay as it was, but it always mentions the
state. Finalizers and deletion are a matter of the metadata, or the client goes. -/
def Serves : (c : ClientCall) → Option Client → Answer c → Option Client → Prop
  | .patchStatus _ _ s, b, r, b' => ∃ s' : ClientStatus, s'.state = s.state ∧
    Settles (b.map fun c => { c with status := some s' }) b r b'
  | .addFinalizer .., b, _, b' | .removeFinalizer .., b, _, b' | .deleteClient .., b, _, b' =>
    b' = none ∨ ∃ metadata, b' = b.map fun c => { c with metadata }
  | .now, b, _, b' | .publish _, b, _, b' | .getSecret .., b, _, b' | .createSecret .., b, _, b'
  | .deleteSecret .., b, _, b' | .deleteBridgesOf .., b, _, b' => b' = b

/-- The stored client, if it is there, and the pass over it with what is left to do of it. -/
structure Scene where
  store : Option Client
  pass : Option (Client × Prog ClientCall (Except Error Action))

inductive Event where
  | edited (spec : ClientSpec)
  | amended (metadata : Kube.Metadata)
  | vanished
  | began
  | answered (c : ClientCall) (r : Answer c)
  /-- The pass is through, or the operator stops in the middle of it. -/
  | ended

/-- The event begins no pass, tells no time and writes no status. -/
def Event.isQuiet : Event → Bool
  | began | answered .now _ | answered (.patchStatus ..) _ => false
  | _ => true

/-- One event. A pass goes by the client as it was stored when the pass began. -/
inductive Step (config : OperatorConfig) : Scene → Event → Scene → Prop
  | edit {s : Scene} {spec : ClientSpec} :
    Step config s (.edited spec) { s with store := s.store.map fun c => { c with spec } }
  | amend {s : Scene} {metadata : Kube.Metadata} :
    Step config s (.amended metadata) { s with store := s.store.map fun c => { c with metadata } }
  | vanish {s : Scene} : Step config s .vanished { s with store := none }
  | take {s : Scene} {c : Client} : s.store = some c → s.pass = none →
    Step config s .began { s with pass := some (c, (c.reconcile config).run) }
  | answer {s : Scene} {x : Client} {c : ClientCall}
      {next : Answer c → Prog ClientCall (Except Error Action)} {r : Answer c}
      {b : Option Client} :
    s.pass = some (x, .call c next) → Serves c s.store r b →
    Step config s (.answered c r) ⟨b, some (x, next r)⟩
  | leave {s : Scene} : Step config s .ended { s with pass := none }

/-- What an event found stored and what it left. -/
structure Move where
  before : Option Client
  event : Event
  after : Option Client

/-- A run from a stored client without passes over it; the newest move stands first. -/
inductive Run (config : OperatorConfig) (start : Client) : List Move → Scene → Prop
  | start : Run config start [] ⟨some start, none⟩
  | move {trail : List Move} {s s' : Scene} {e : Event} :
    Run config start trail s → Step config s e s' →
    Run config start (⟨s.store, e, s'.store⟩ :: trail) s'

namespace Move

/-- A state is written, and stored. -/
def Stores (m : Move) (state : ClientState) : Prop :=
  ∃ ns name s r c, m.event = .answered (.patchStatus ns name s) r ∧ s.state = state ∧
    m.after = some c ∧ c.state = some state

/-- No state that is further along than `s` was ever stored. -/
def NoneBeyond (trail : List Move) (s : ClientState) : Prop :=
  ∀ m ∈ trail, ∀ state, m.Stores state → state.stage ≤ s.stage

/-- The client that the newest pass has found. -/
def found : List Move → Option Client
  | [] => none
  | ⟨before, .began, _⟩ :: _ => before
  | _ :: rest => found rest

/-- The first reading of the clock in the newest pass. -/
def reading : List Move → Option Instant
  | [] => none
  | ⟨_, .began, _⟩ :: _ => none
  | ⟨_, .answered .now t, _⟩ :: rest => some ((reading rest).getD t)
  | _ :: rest => reading rest

/-- What happened before the newest pass. -/
def earlier : List Move → List Move
  | [] => []
  | ⟨_, .began, _⟩ :: rest => rest
  | _ :: rest => earlier rest

theorem mem_of_earlier {m : Move} {trail : List Move} (h : m ∈ earlier trail) : m ∈ trail := by
  induction trail with
  | nil => cases h
  | cons m' rest ih =>
    obtain ⟨before, e, after⟩ := m'
    cases e with
    | began => exact .tail _ h
    | _ => exact .tail _ (ih h)

/-- Nothing is stored where no status is written. -/
theorem not_stores {m : Move} (h : ∀ ns name s r, m.event ≠ .answered (.patchStatus ns name s) r)
    (state : ClientState) : ¬ m.Stores state := by
  rintro ⟨ns, name, s, r, c, he, -⟩
  exact h ns name s r he

theorem NoneBeyond.later {m : Move} {rest : List Move} {state : ClientState}
    (h : NoneBeyond rest state) (hm : ∀ state, ¬ m.Stores state) : NoneBeyond (m :: rest) state :=
  List.forall_mem_cons.mpr ⟨fun state hstores => absurd hstores (hm state), h⟩

section

variable {ns name : String} {st : ClientStatus} {b b' : Option Client}
  {r : Answer (ClientCall.patchStatus ns name st)} {state : ClientState} {rest : List Move}

theorem stores_patchStatus (h : Stores ⟨b, .answered (.patchStatus ns name st) r, b'⟩ state) :
    st.state = state ∧ ∃ c, b' = some c ∧ c.state = some state := by
  obtain ⟨_, _, _, _, c, he, hstate, hc⟩ := h
  cases he
  exact ⟨hstate, c, hc⟩

theorem NoneBeyond.patched (h : NoneBeyond rest state) (hstage : state.stage ≤ st.state.stage) :
    NoneBeyond (⟨b, .answered (.patchStatus ns name st) r, b'⟩ :: rest) st.state :=
  List.forall_mem_cons.mpr
    ⟨fun _ hstores => Nat.le_of_eq (congrArg _ (stores_patchStatus hstores).1.symm),
      fun m hm state' hstores => Nat.le_trans (h m hm state' hstores) hstage⟩

end

section

variable {m : Move} {rest : List Move} (he : m.event.isQuiet = true)

include he

theorem found_cons : found (m :: rest) = found rest := by
  obtain ⟨before, e, after⟩ := m
  cases e <;> first | rfl | cases he

theorem earlier_cons : earlier (m :: rest) = earlier rest := by
  obtain ⟨before, e, after⟩ := m
  cases e <;> first | rfl | cases he

theorem reading_cons : reading (m :: rest) = reading rest := by
  obtain ⟨before, e, after⟩ := m
  cases e with
  | answered c r => cases c <;> first | rfl | cases he
  | began => cases he
  | _ => rfl

theorem not_stores_of_isQuiet (state : ClientState) : ¬ m.Stores state := by
  refine not_stores (fun ns name s r hpatch => ?_) state
  rw [hpatch] at he
  cases he

end

end Move

/-- What is known about the newest pass, if it is over `x` and stands at `m`. -/
structure Passing (trail : List Move) (x : Client) (m : ClientPass.Moment) : Prop where
  found : Move.found trail = some x
  read : Move.reading trail = m.read
  reached : Move.NoneBeyond trail m.reached
  waited : x.stateOrActive ≠ .active → ∃ m' ∈ Move.earlier trail, m'.Stores .waiting

/-- The stored state is as far along as anything that was ever stored, and beyond ACTIVE it has
been WAITING. -/
structure Kept (trail : List Move) (store : Option Client) : Prop where
  furthest : ∀ {c}, store = some c → Move.NoneBeyond trail c.stateOrActive
  waited : ∀ {c}, store = some c → c.stateOrActive ≠ .active → ∃ m ∈ trail, m.Stores .waiting

/-- The client, if it is still there, has the status that it had. -/
def SameStatus (b b' : Option Client) : Prop :=
  ∀ c', b' = some c' → ∃ c, b = some c ∧ c'.status = c.status

theorem SameStatus.refl (b : Option Client) : SameStatus b b := fun c hc => ⟨c, hc, rfl⟩

theorem SameStatus.map {b : Option Client} {f : Client → Client} (h : ∀ c, (f c).status = c.status) :
    SameStatus b (b.map f) := by
  intro c' hc'
  obtain ⟨c, hc, rfl⟩ := Option.map_eq_some_iff.mp hc'
  exact ⟨c, hc, h c⟩

/-- If the pass has found a client that is known and has no sunset, its state is the stored one. -/
def Steady (x : Client) (store : Option Client) : Prop :=
  x.sunset? = none → ∀ {st}, x.status = some st → ∀ {c}, store = some c → c.state = some st.state

section

variable {config : OperatorConfig} {s s' : Scene} {e : Event} {m : Move} {rest : List Move}
  {x : Client} {μ : ClientPass.Moment}

theorem state_congr {c c' : Client} (h : c'.status = c.status) : c'.state = c.state := by
  unfold state
  rw [h]

theorem stateOrActive_congr {c c' : Client} (h : c'.status = c.status) :
    c'.stateOrActive = c.stateOrActive := by
  unfold stateOrActive
  rw [state_congr h]

theorem state_of_status {c : Client} {st : ClientStatus} (h : c.status = some st) :
    c.state = some st.state := by
  rw [state, h]
  rfl

theorem stateOrActive_of_state {c : Client} {st : ClientState} (h : c.state = some st) :
    c.stateOrActive = st := by
  rw [stateOrActive, h]
  rfl

theorem Passing.later (h : Passing rest x μ) (he : m.event.isQuiet = true) :
    Passing (m :: rest) x μ where
  found := (Move.found_cons he).trans h.found
  read := (Move.reading_cons he).trans h.read
  reached := h.reached.later (Move.not_stores_of_isQuiet he)
  waited hx := by
    rw [Move.earlier_cons he]
    exact h.waited hx

theorem Passing.told {grace : Nat} {b : Option Client} {r : Answer ClientCall.now}
    {μ' : ClientPass.Moment} (h : Passing rest x μ)
    (hdoes : ClientPass.Does x grace μ .now r μ') :
    Passing (⟨b, .answered .now r, b⟩ :: rest) x μ' := by
  obtain rfl := hdoes.now_eq
  refine ⟨h.found, ?_, h.reached.later (Move.not_stores fun _ _ _ _ => nofun), h.waited⟩
  show some ((Move.reading rest).getD r) = some (μ.read.getD r)
  rw [h.read]

theorem Kept.later {b b' : Option Client} (h : Kept rest b) (hm : ∀ state, ¬ m.Stores state)
    (hb : SameStatus b b') : Kept (m :: rest) b' where
  furthest hc' := by
    obtain ⟨c, hc, hstatus⟩ := hb _ hc'
    rw [stateOrActive_congr hstatus]
    exact (h.furthest hc).later hm
  waited hc' hactive := by
    obtain ⟨c, hc, hstatus⟩ := hb _ hc'
    rw [stateOrActive_congr hstatus] at hactive
    obtain ⟨m', hm', hstores⟩ := h.waited hc hactive
    exact ⟨m', .tail _ hm', hstores⟩

theorem Steady.later {b b' : Option Client} (h : Steady x b) (hb : SameStatus b b') :
    Steady x b' := by
  intro hsunset st hst c' hc'
  obtain ⟨c, hc, hstatus⟩ := hb c' hc'
  rw [state_congr hstatus]
  exact h hsunset hst hc

/-- Everything but storing a status leaves the status as it is. -/
theorem Serves.sameStatus {c : ClientCall} {b b' : Option Client} {r : Answer c}
    (h : Serves c b r b') (hc : ∀ ns name s, c ≠ .patchStatus ns name s) : SameStatus b b' := by
  have hmeta : (b' = none ∨ ∃ metadata, b' = b.map fun c => { c with metadata }) →
      SameStatus b b' := by
    rintro (rfl | ⟨metadata, rfl⟩)
    · exact fun _ => nofun
    · exact .map fun _ => rfl
  cases c with
  | patchStatus ns name s => exact absurd rfl (hc ns name s)
  | addFinalizer => exact hmeta h
  | removeFinalizer => exact hmeta h
  | deleteClient => exact hmeta h
  | _ =>
    obtain rfl : b' = b := h
    exact .refl b'

section

variable {ns name : String} {st : ClientStatus} {b b' : Option Client}
  {r : Answer (ClientCall.patchStatus ns name st)} {μ' : ClientPass.Moment}
  (hpassing : Passing rest x μ)
  (hdoes : ClientPass.Does x config.clientGrace μ (.patchStatus ns name st) r μ')

include hpassing hdoes

theorem Passing.patched :
    Passing (⟨b, .answered (.patchStatus ns name st) r, b'⟩ :: rest) x μ' := by
  obtain ⟨rfl, hstage, -⟩ := hdoes.patchStatus
  exact ⟨hpassing.found, hpassing.read, hpassing.reached.patched hstage, hpassing.waited⟩

/-- The state has been stored. -/
theorem Kept.stored (hstored : ∀ {c}, b' = some c → c.state = some st.state) :
    Kept (⟨b, .answered (.patchStatus ns name st) r, b'⟩ :: rest) b' := by
  obtain ⟨-, hstage, hcome, -⟩ := hdoes.patchStatus
  constructor
  · intro c hc
    rw [stateOrActive_of_state (hstored hc)]
    exact hpassing.reached.patched hstage
  · intro c hc hactive
    rw [stateOrActive_of_state (hstored hc)] at hactive
    rcases hcome with hcome | hcome | hcome
    · exact absurd hcome hactive
    · exact ⟨_, .head _, ns, name, st, r, c, rfl, hcome, hc, hcome ▸ hstored hc⟩
    -- The client was found beyond ACTIVE, so it was WAITING before the pass began.
    · obtain ⟨m', hm', hstores⟩ := hpassing.waited hcome
      exact ⟨m', .tail _ (Move.mem_of_earlier hm'), hstores⟩

omit hpassing hdoes in
/-- A call has failed; the state may have been the stored one all the same. -/
theorem Kept.failed (h : Kept rest b) :
    Kept (⟨b, .answered (.patchStatus ns name st) r, b⟩ :: rest) b := by
  constructor
  · intro c hc
    refine List.forall_mem_cons.mpr ⟨fun state hstores => ?_, h.furthest hc⟩
    obtain ⟨-, c', hc', hstate⟩ := Move.stores_patchStatus hstores
    rw [hc] at hc'
    cases hc'
    exact Nat.le_of_eq (congrArg _ (stateOrActive_of_state hstate).symm)
  · intro c hc hactive
    obtain ⟨m', hm', hstores⟩ := h.waited hc hactive
    exact ⟨m', .tail _ hm', hstores⟩

theorem Kept.patched (h : Kept rest b) (hserve : Serves (.patchStatus ns name st) b r b') :
    Kept (⟨b, .answered (.patchStatus ns name st) r, b'⟩ :: rest) b' := by
  obtain ⟨st', hstate, rfl | ⟨-, rfl⟩⟩ := hserve
  · refine Kept.stored hpassing hdoes fun hc => ?_
    obtain ⟨c₀, -, rfl⟩ := Option.map_eq_some_iff.mp hc
    exact (state_of_status rfl).trans (congrArg some hstate)
  · exact h.failed

omit hpassing in
/-- Without a sunset what is written is the state that the pass has found. -/
theorem Steady.patched (h : Steady x b) (hserve : Serves (.patchStatus ns name st) b r b') :
    Steady x b' := by
  obtain ⟨-, -, -, hsame⟩ := hdoes.patchStatus
  intro hsunset st₀ hst₀ c hc
  obtain ⟨st', hstate, rfl | ⟨-, rfl⟩⟩ := hserve
  · obtain ⟨c₀, -, rfl⟩ := Option.map_eq_some_iff.mp hc
    rw [state_of_status rfl, hstate, hsame hsunset,
      stateOrActive_of_state (state_of_status hst₀)]
  · exact h hsunset hst₀ hc

end

/-- What holds of the stored client and of the pass over it at any time. -/
structure Sound (config : OperatorConfig) (trail : List Move) (s : Scene) : Prop where
  kept : Kept trail s.store
  pass : ∀ {x p}, s.pass = some (x, p) → ∃ μ,
    p.Keeps (ClientPass.Does x config.clientGrace) μ ClientPass.Ends ∧ Passing trail x μ
  steady : ∀ {x p}, s.pass = some (x, p) → Steady x s.store

theorem Sound.later (h : Sound config rest s) (he : m.event.isQuiet = true)
    (hb : SameStatus s.store s'.store)
    (hpass : ∀ {x p}, s'.pass = some (x, p) → ∃ p₀, s.pass = some (x, p₀) ∧
      ∀ μ, p₀.Keeps (ClientPass.Does x config.clientGrace) μ ClientPass.Ends →
        p.Keeps (ClientPass.Does x config.clientGrace) μ ClientPass.Ends) :
    Sound config (m :: rest) s' where
  kept := h.kept.later (Move.not_stores_of_isQuiet he) hb
  pass hp := by
    obtain ⟨p₀, hp₀, hkeeps⟩ := hpass hp
    obtain ⟨μ, hμ, hpassing⟩ := h.pass hp₀
    exact ⟨μ, hkeeps μ hμ, hpassing.later he⟩
  steady hp := by
    obtain ⟨p₀, hp₀, -⟩ := hpass hp
    exact (h.steady hp₀).later hb

end

section

variable {config : OperatorConfig} {s s' : Scene} {rest : List Move} {x : Client}

theorem Sound.taken {c : Client} (h : Sound config rest s) (hc : s.store = some c) :
    Sound config (⟨s.store, .began, s.store⟩ :: rest)
      { s with pass := some (c, (c.reconcile config).run) } := by
  have hstores : ∀ state, ¬ Move.Stores ⟨s.store, .began, s.store⟩ state :=
    Move.not_stores fun _ _ _ _ => nofun
  refine ⟨h.kept.later hstores (.refl _), ?_, ?_⟩
  · rintro y p hp
    cases hp
    exact ⟨_, ClientPass.reconcile_keeps c config, hc, rfl, (h.kept.furthest hc).later hstores,
      h.kept.waited hc⟩
  · rintro y p hp _ st hst c' hc'
    cases hp
    rw [hc] at hc'
    cases hc'
    exact state_of_status hst

theorem Sound.answered {c : ClientCall} {next : Answer c → Prog ClientCall (Except Error Action)}
    {r : Answer c} {b : Option Client} (h : Sound config rest s)
    (hp : s.pass = some (x, .call c next)) (hserve : Serves c s.store r b) :
    Sound config (⟨s.store, .answered c r, b⟩ :: rest) ⟨b, some (x, next r)⟩ := by
  obtain ⟨μ, hkeeps, hpassing⟩ := h.pass hp
  obtain ⟨μ', hdoes, hnext⟩ := hkeeps r
  cases c with
  | now =>
    obtain rfl : b = s.store := hserve
    have hstores : ∀ state, ¬ Move.Stores ⟨s.store, .answered .now r, s.store⟩ state :=
      Move.not_stores fun _ _ _ _ => nofun
    refine ⟨h.kept.later hstores (.refl _), ?_, ?_⟩
    · rintro y p hp'
      cases hp'
      exact ⟨μ', hnext, hpassing.told hdoes⟩
    · rintro y p hp'
      cases hp'
      exact h.steady hp
  | patchStatus ns name st =>
    refine ⟨h.kept.patched hpassing hdoes hserve, ?_, ?_⟩
    · rintro y p hp'
      cases hp'
      exact ⟨μ', hnext, hpassing.patched hdoes⟩
    · rintro y p hp'
      cases hp'
      exact (h.steady hp).patched hdoes hserve
  -- Any other call leaves the pass at the moment it was at.
  | _ =>
    refine h.later rfl (hserve.sameStatus nofun) ?_
    intro y p hp'
    cases hp'
    refine ⟨_, hp, fun μ hμ => ?_⟩
    obtain ⟨μ', hdoes, hnext⟩ := hμ r
    rwa [hdoes.unmoved nofun nofun] at hnext

theorem Sound.step (h : Sound config rest s) (hstep : Step config s e s') :
    Sound config (⟨s.store, e, s'.store⟩ :: rest) s' := by
  cases hstep with
  | edit => exact h.later rfl (.map fun _ => rfl) fun hp => ⟨_, hp, fun _ => id⟩
  | amend => exact h.later rfl (.map fun _ => rfl) fun hp => ⟨_, hp, fun _ => id⟩
  | vanish => exact h.later rfl (fun _ => nofun) fun hp => ⟨_, hp, fun _ => id⟩
  | take hc => exact h.taken hc
  | answer hp hserve => exact h.answered hp hserve
  | leave => exact h.later rfl (.refl _) nofun

theorem Sound.run {start : Client} {trail : List Move} (hstart : start.status = none)
    (h : Run config start trail s) : Sound config trail s := by
  induction h with
  | start =>
    refine ⟨⟨fun _ _ => nofun, ?_⟩, nofun, nofun⟩
    intro c hc hactive
    cases hc
    exact absurd (by simp [stateOrActive, state, hstart]) hactive
  | move _ hstep ih => exact ih.step hstep

end

/-- What a move of a run keeps to, after the moves `rest`. -/
structure Timely (config : OperatorConfig) (m : Move) (rest : List Move) : Prop where
  /-- No state is written that is behind one that was ever stored. -/
  forward : ∀ {ns name s r}, m.event = .answered (.patchStatus ns name s) r →
    Move.NoneBeyond rest s.state
  /-- A pass that deletes the client has found the sunset and the grace period gone by, or no later
  time to wait for, and an earlier pass has stored WAITING. -/
  due : ∀ {ns name r}, m.event = .answered (.deleteClient ns name) r →
    ∃ x sunset now, Move.found rest = some x ∧ x.sunset? = some sunset ∧
      Move.reading rest = some now ∧
      (deletionDeadline sunset config.clientGrace).notAfter now = true ∧
      (now.Ordinary → min (sunset.sinceEpoch + config.clientGrace)
        Instant.last.sinceEpoch ≤ now.sinceEpoch) ∧
      ∃ m' ∈ Move.earlier rest, m'.Stores .waiting
  /-- A client that was found with a state and without a sunset that can be read keeps the state
  and is not deleted. -/
  steady : ∀ {x st c r}, m.event = .answered c r → Move.found rest = some x →
    x.status = some st → x.sunset? = none →
    (∀ ns name, c ≠ .deleteClient ns name) ∧
      (∀ ns name s, c = .patchStatus ns name s → s.state = st.state) ∧
      ∀ {c'}, m.after = some c' → c'.state = some st.state

section

variable {config : OperatorConfig} {s s' : Scene} {e : Event} {rest : List Move}

theorem Sound.timely (h : Sound config rest s) (hstep : Step config s e s') :
    Timely config ⟨s.store, e, s'.store⟩ rest := by
  cases hstep with
  | @answer x c next r b hp hserve =>
    obtain ⟨μ, hkeeps, hpassing⟩ := h.pass hp
    obtain ⟨μ', hdoes, -⟩ := hkeeps r
    refine ⟨?_, ?_, ?_⟩
    · rintro ns name st r' he m' hm' state hstores
      cases he
      obtain ⟨-, hstage, -⟩ := hdoes.patchStatus
      exact Nat.le_trans (hpassing.reached m' hm' state hstores) hstage
    · rintro ns name r' he
      cases he
      obtain ⟨hactive, now, hread, sunset, hsunset, hdue⟩ := hdoes.deleteClient
      exact ⟨x, sunset, now, hpassing.found, hsunset, hpassing.read.trans hread, hdue,
        fun hnow => deadline_not_early hnow hdue, hpassing.waited hactive⟩
    · rintro y st c' r' he hfound hst hsunset
      cases he
      obtain rfl : x = y := Option.some.inj (hpassing.found.symm.trans hfound)
      refine ⟨?_, ?_, (h.answered hp hserve).steady rfl hsunset hst⟩
      · rintro ns name rfl
        obtain ⟨-, -, -, sunset, hsome, -⟩ := hdoes.deleteClient
        rw [hsunset] at hsome
        cases hsome
      · rintro ns name st' rfl
        obtain ⟨-, -, -, hsame⟩ := hdoes.patchStatus
        rw [hsame hsunset, stateOrActive_of_state (state_of_status hst)]
  | _ => exact ⟨nofun, nofun, nofun⟩

/-- The states that passes store go from ACTIVE over WAITING to EXPIRED and never back, and they
delete the client neither early nor by a sunset that cannot be read. -/
theorem expires_in_time {start : Client} {later : List Move} {m : Move}
    (hstart : start.status = none) (hrun : Run config start (later ++ m :: rest) s) :
    Timely config m rest := by
  induction later generalizing s with
  | nil =>
    cases hrun with
    | move hrest hstep => exact (Sound.run hstart hrest).timely hstep
  | cons m' later ih =>
    cases hrun with
    | move hrest _ => exact ih hrest

end

theorem Run.answered {config : OperatorConfig} {start x : Client} {trail : List Move}
    {b b' : Option Client} {p : Prog ClientCall (Except Error Action)} {c : ClientCall}
    {next : Answer c → Prog ClientCall (Except Error Action)}
    (h : Run config start trail ⟨b, some (x, p)⟩) (hp : p = .call c next) (r : Answer c)
    (hserve : Serves c b r b') :
    Run config start (⟨b, .answered c r, b'⟩ :: trail) ⟨b', some (x, next r)⟩ :=
  h.move (.answer (by rw [hp]) hserve)

namespace Sample

/-- A client that is claimed already and has a sunset at the beginning of 2026. -/
def alice : Client where
  metadata := { Kube.Metadata.empty with
    name := some "alice"
    namespaceName := some "gefyra"
    finalizers := some [finalizer] }
  spec := ⟨ClientSpec.defaultProvider, some "2026-01-01T00:00:00Z", none⟩
  status := none

/-- So many seconds into 2026. -/
def seconds (n : Nat) : Instant := ⟨1767225600 + n, 0⟩

end Sample

open BridgeOperator.Client.Sample in
/-- The client is first seen at its sunset, and again when the grace period is over. -/
theorem expires_in_time_alice : ∃ later m rest s r, alice.status = none ∧
    Run .default alice (later ++ m :: rest) s ∧
    m.event = .answered (.deleteClient "gefyra" "alice") r ∧ Timely .default m rest := by
  have hbegan : Run .default alice _ _ := .move .start (.take rfl rfl)
  have hactive := (hbegan.answered rfl (seconds 0) rfl).answered rfl (.ok ()) ⟨_, rfl, .inl rfl⟩
  have hwaiting := (((hactive.answered rfl (seconds 0) rfl).answered rfl (seconds 0) rfl).answered
    rfl (.ok ()) ⟨_, rfl, .inl rfl⟩).answered rfl () rfl
  have hagain := (hwaiting.move .leave).move (.take rfl rfl)
  have hexpired := (((hagain.answered rfl (seconds 30) rfl).answered rfl (seconds 30) rfl).answered
    rfl (.ok ()) ⟨_, rfl, .inl rfl⟩).answered rfl () rfl
  have hdeleted := (hexpired.answered rfl (.ok true) rfl).answered rfl (.ok true) (.inl rfl)
  have hrun : Run .default alice ([] ++ _ :: _) _ := hdeleted
  exact ⟨[], _, _, _, _, rfl, hrun, rfl, expires_in_time rfl hrun⟩

end Client
end BridgeOperator
