import BridgeOperator.Proofs.Bridge.Canonical
import BridgeOperator.Proofs.Provider.Reach
import BridgeOperator.Proofs.World.Serial

/-!
The verdicts on a bridge, as the worlds before and after a move show them: its spec enters
INSTALLING, or is rejected. What is recorded is the spec of the newest verdict, whichever it was
(`Registered`), and this is what a teardown goes by.
-/

namespace BridgeOperator

open BridgePass (ofBridge entering Moment Phase)

namespace Move

/-- A pass for `spec` takes the bridge at an address from one state to another. -/
def Takes (m : Move) (a : Address) (source target : BridgeState) (spec : BridgeSpec) : Prop :=
  ∃ b b' x, m.before.store a = some b ∧ m.after.store a = some b' ∧ m.passes a = some x ∧
    b.state = source ∧ b'.state = target ∧ x.spec = spec

/-- The bridge enters INSTALLING with `spec`. -/
def Enters (m : Move) (a : Address) (spec : BridgeSpec) : Prop :=
  ∃ source, source ≠ .installing ∧ m.Takes a source .installing spec

/-- The bridge requests `spec` and is refused it. -/
def Rejects (m : Move) (a : Address) (spec : BridgeSpec) : Prop :=
  m.Takes a .requested .error spec

def Verdict (m : Move) (a : Address) (spec : BridgeSpec) : Prop :=
  m.Enters a spec ∨ m.Rejects a spec

end Move

/-- The bridge has entered INSTALLING with `spec`. -/
def Entered (trail : List Move) (a : Address) (spec : BridgeSpec) : Prop :=
  ∃ m ∈ trail, m.Enters a spec

/-- The newest verdict on the bridge was about `spec`. -/
def LastVerdict (a : Address) : List Move → BridgeSpec → Prop
  | [], _ => False
  | m :: rest, spec =>
    m.Verdict a spec ∨ (¬ ∃ spec, m.Verdict a spec) ∧ LastVerdict a rest spec

/-- The newest verdict on the bridge was the rejection of a spec that it had never entered
INSTALLING with. -/
def Misled (a : Address) : List Move → Prop
  | [] => False
  | m :: rest => (∃ spec, m.Rejects a spec ∧ ¬ Entered rest a spec) ∨
    (¬ ∃ spec, m.Verdict a spec) ∧ Misled a rest

namespace Move

variable {m : Move} {a : Address} {b b' : Bridge} {spec spec' : BridgeSpec}

/-- There is no verdict where INSTALLING is not entered and no request ends in ERROR. -/
theorem not_verdict (hb : m.before.store a = some b) (hb' : m.after.store a = some b')
    (hi : b'.state = .installing → b.state = .installing)
    (he : b'.state = .error → b.state ≠ .requested) : ¬ ∃ spec, m.Verdict a spec := by
  rintro ⟨spec, ⟨source, hne, c, c', x, hc, hc', -, hfrom, hto, -⟩ |
    ⟨c, c', x, hc, hc', -, hfrom, hto, -⟩⟩
  · rw [hb] at hc
    rw [hb'] at hc'
    cases hc
    cases hc'
    exact hne (hfrom.symm.trans (hi hto))
  · rw [hb] at hc
    rw [hb'] at hc'
    cases hc
    cases hc'
    exact he hto hfrom

theorem not_verdict_of_absent (hb : m.before.store a = none ∨ m.after.store a = none) :
    ¬ ∃ spec, m.Verdict a spec := by
  rintro ⟨spec, ⟨source, -, c, c', x, hc, hc', -⟩ | ⟨c, c', x, hc, hc', -⟩⟩ <;>
    rcases hb with hb | hb <;> simp_all

theorem not_verdict_of_state (hb : m.before.store a = some b) (hb' : m.after.store a = some b')
    (hst : b'.state = b.state) : ¬ ∃ spec, m.Verdict a spec := by
  refine not_verdict hb hb' (fun h => hst ▸ h) fun h h' => ?_
  rw [hst, h'] at h
  cases h

/-- A move is one pass's, and says one thing about one spec. -/
theorem Takes.spec_eq {source source' target target' : BridgeState}
    (h : m.Takes a source target spec) (h' : m.Takes a source' target' spec') :
    target = target' ∧ spec = spec' := by
  obtain ⟨b, b', x, -, hb', hx, -, rfl, rfl⟩ := h
  obtain ⟨c, c', y, -, hc', hy, -, rfl, rfl⟩ := h'
  rw [hb'] at hc'
  rw [hx] at hy
  cases hc'
  cases hy
  exact ⟨rfl, rfl⟩

theorem Verdict.spec_eq (h : m.Verdict a spec) (h' : m.Verdict a spec') : spec = spec' := by
  rcases h with ⟨_, -, h⟩ | h <;> rcases h' with ⟨_, -, h'⟩ | h' <;> exact (h.spec_eq h').2

end Move

section

variable {a : Address} {trail : List Move} {spec spec' : BridgeSpec}

theorem LastVerdict.unique (h : LastVerdict a trail spec) (h' : LastVerdict a trail spec') :
    spec = spec' := by
  induction trail with
  | nil => exact h.elim
  | cons m rest ih =>
    rcases h with h | ⟨hnone, h⟩ <;> rcases h' with h' | ⟨hnone', h'⟩
    · exact h.spec_eq h'
    · exact absurd ⟨spec, h⟩ hnone'
    · exact absurd ⟨spec', h'⟩ hnone
    · exact ih h h'

/-- A spec that there was a verdict about was entered, unless it has been rejected and nothing
else. -/
theorem LastVerdict.entered_iff (h : LastVerdict a trail spec) :
    Entered trail a spec ↔ ¬ Misled a trail := by
  induction trail with
  | nil => exact h.elim
  | cons m rest ih =>
    have hcons : Entered (m :: rest) a spec ↔ m.Enters a spec ∨ Entered rest a spec := by
      simp [Entered]
    rw [hcons]
    rcases h with (hm | hm) | ⟨hnone, h⟩
    · refine ⟨fun _ => ?_, fun _ => .inl hm⟩
      rintro (⟨spec', hr, -⟩ | ⟨hnone, -⟩)
      · obtain ⟨_, -, ht⟩ := hm
        cases (ht.spec_eq hr).1
      · exact hnone ⟨spec, .inl hm⟩
    · -- the newest verdict is a rejection: it misleads unless the spec was entered before
      constructor
      · rintro (⟨_, -, ht⟩ | hentered)
        · cases (ht.spec_eq hm).1
        · rintro (⟨spec', hr, hnot⟩ | ⟨hnone, -⟩)
          · rw [← (hm.spec_eq hr).2] at hnot
            exact hnot hentered
          · exact hnone ⟨spec, .inr hm⟩
      · intro hmisled
        exact .inr (Classical.not_not.mp fun hnot => hmisled (.inl ⟨spec, hm, hnot⟩))
    · have hnotEnters : ¬ m.Enters a spec := fun hm => hnone ⟨spec, .inl hm⟩
      have hmisled : Misled a (m :: rest) ↔ Misled a rest := by
        refine ⟨?_, fun h => .inr ⟨hnone, h⟩⟩
        rintro (⟨spec', hr, -⟩ | ⟨-, h⟩)
        · exact absurd ⟨spec', .inr hr⟩ hnone
        · exact h
      rw [hmisled, ← ih h]
      exact or_iff_right hnotEnters

end

/-- A bridge that may have installed something is applied with what its record says. -/
theorem Bridge.applied_spec_congr {b b' : Bridge} (hk : b.statusOrInitial.Kept)
    (hb : b.statusOrInitial.everInstalled = true)
    (h : b'.statusOrInitial.lastAppliedSpec = b.statusOrInitial.lastAppliedSpec) :
    b'.applied.spec = b.applied.spec := by
  obtain ⟨spec, hspec⟩ := hk.recorded_of_everInstalled hb
  rw [applied_eq hspec, applied_eq (h.trans hspec)]

/-- What is recorded, if anything, is the text of the spec of the newest verdict. -/
def BridgeStatus.Tells (s : BridgeStatus) (a : Address) (trail : List Move) : Prop :=
  ∀ text, s.lastAppliedSpec = some text →
    ∃ spec : BridgeSpec, text = spec.canonical ∧ LastVerdict a trail spec

variable {ctx : BridgeContext} {s s' : Scene (.table ctx)} {e : Event} {a : Address}
  {rest : List Move}

theorem BridgeStatus.Tells.later {st : BridgeStatus} {m : Move} (h : st.Tells a rest)
    (hm : ¬ ∃ spec, m.Verdict a spec) : st.Tells a (m :: rest) := by
  intro text htext
  obtain ⟨spec, rfl, hlast⟩ := h text htext
  exact ⟨spec, rfl, .inr ⟨hm, hlast⟩⟩

/-- Verdicts are stored by the pass over the bridge. -/
theorem Turn.not_verdict (h : Turn s e a (s.world.store a) (s'.world.store a))
    (he : ∀ st r, e ≠ .answered a (.patchStatus a.namespaceName a.name st) r) :
    ¬ ∃ spec, (Move.of s e s').Verdict a spec := by
  generalize hbefore : s.world.store a = before, hafter : s'.world.store a = after at h
  cases h with
  | keep =>
    cases before with
    | none => exact Move.not_verdict_of_absent (.inl hbefore)
    | some b => exact Move.not_verdict_of_state hbefore hafter rfl
  | create => exact Move.not_verdict_of_absent (.inl hbefore)
  | edit => exact Move.not_verdict_of_state hbefore hafter rfl
  | amend => exact Move.not_verdict_of_state hbefore hafter rfl
  | vanish => exact Move.not_verdict_of_absent (.inr hafter)
  | advance b x φ st r hp he' => exact absurd he' (he st r)

/-- Without a verdict nothing is installed that was not, and the record stays as it is. -/
theorem Turn.recorded {b' : Bridge} (h : Turn s e a (s.world.store a) (some b')) (hs : s.Sound)
    (hb' : s'.world.store a = some b') (hnone : ¬ ∃ spec, (Move.of s e s').Verdict a spec)
    (hinstalled : b'.statusOrInitial.everInstalled = true) :
    ∃ b, s.world.store a = some b ∧ b.statusOrInitial.everInstalled = true ∧
      b'.applied.spec = b.applied.spec ∧ b.metadata.SameObject b'.metadata := by
  generalize hbefore : s.world.store a = before at h
  have hkept : ∀ {b : Bridge}, before = some b → b.statusOrInitial.Kept := fun hb =>
    hs.kept (hbefore.trans hb)
  cases h with
  | keep => exact ⟨b', rfl, hinstalled, rfl, .refl _⟩
  | create b he ha hf hst hp => simp [Bridge.statusOrInitial, hst] at hinstalled
  | edit b spec he =>
    exact ⟨b, rfl, hinstalled, Bridge.applied_spec_congr (hkept rfl) hinstalled rfl, .refl _⟩
  | amend b m hm =>
    exact ⟨b, rfl, hinstalled, Bridge.applied_spec_congr (hkept rfl) hinstalled rfl, hm⟩
  | advance b x φ st r hp he hadv =>
    have hx : s.bridges a = some x := Scene.bridges_eq_some.mpr ⟨φ, hp⟩
    rcases hadv.verdict with ⟨hverdict, -⟩ | ⟨hsame, -, -, hold⟩
    · rw [b.state_statusOrInitial] at hverdict
      refine absurd ⟨x.spec, ?_⟩ hnone
      rcases hverdict with ⟨hsource, htarget⟩ | ⟨hsource, htarget⟩
      · exact .inl ⟨_, hsource, b, _, x, hbefore, hb', hx, rfl, htarget, rfl⟩
      · exact .inr ⟨b, _, x, hbefore, hb', hx, hsource, htarget, rfl⟩
    · have hb := hold hinstalled
      exact ⟨b, rfl, hb, Bridge.applied_spec_congr (hkept rfl) hb hsame, .refl _⟩

/-- What a pass stores says what its verdict is, or what was said before. -/
theorem BridgePass.Advance.tells {b b' x : Bridge} {φ : Phase}
    (h : (ofBridge ctx x).Advance b.statusOrInitial φ b'.statusOrInitial)
    (hb : s.world.store a = some b) (hb' : s'.world.store a = some b')
    (hx : s.bridges a = some x) (htells : b.statusOrInitial.Tells a rest) :
    b'.statusOrInitial.Tells a (Move.of s e s' :: rest) := by
  have htakes : ∀ {source target}, b.state = source → b'.state = target →
      (Move.of s e s').Takes a source target x.spec := fun hsource htarget =>
    ⟨b, b', x, hb, hb', hx, hsource, htarget, rfl⟩
  have hverdict := h.verdict
  simp only [Bridge.state_statusOrInitial] at hverdict
  rcases hverdict with ⟨hverdict, hrecorded⟩ | ⟨hsame, hi, he, -⟩
  · intro text htext
    rw [hrecorded] at htext
    cases htext
    refine ⟨x.spec, rfl, .inl ?_⟩
    rcases hverdict with ⟨hsource, htarget⟩ | ⟨hsource, htarget⟩
    · exact .inl ⟨_, hsource, htakes rfl htarget⟩
    · exact .inr (htakes hsource htarget)
  · have hlater := htells.later (Move.not_verdict (m := Move.of s e s') hb hb' hi he)
    intro text htext
    rw [hsame] at htext
    exact hlater text htext

/-- Whatever happens to a bridge, its record goes by the newest verdict. -/
theorem Turn.tells (h : Turn s e a (s.world.store a) (s'.world.store a)) {b' : Bridge}
    (htells : ∀ b, s.world.store a = some b → b.statusOrInitial.Tells a rest)
    (hb' : s'.world.store a = some b') :
    b'.statusOrInitial.Tells a (Move.of s e s' :: rest) := by
  generalize hbefore : s.world.store a = before at h
  rw [hb'] at h
  cases h with
  | keep => exact (htells b' hbefore).later (Move.not_verdict_of_state hbefore hb' rfl)
  | create b he ha hf hst hp =>
    intro text htext
    rw [Bridge.lastAppliedSpec_statusOrInitial, hst] at htext
    cases htext
  | edit b spec he =>
    exact BridgeStatus.Tells.later (htells b hbefore) (Move.not_verdict_of_state hbefore hb' rfl)
  | amend b m hm =>
    exact BridgeStatus.Tells.later (htells b hbefore) (Move.not_verdict_of_state hbefore hb' rfl)
  | advance b x φ st r hp he hadv =>
    have hx : s.bridges a = some x := Scene.bridges_eq_some.mpr ⟨φ, hp⟩
    have hstored : (ofBridge ctx x).Advance b.statusOrInitial φ.phase
        ({ b with status := some st } : Bridge).statusOrInitial := hadv
    exact hstored.tells hbefore hb' hx (htells b hbefore)

/-- What is recorded about the bridge at an address, in the store and by a pass that has stored
nothing yet, goes by the newest verdict. -/
structure Registered (a : Address) (trail : List Move) (s : Scene (.table ctx)) : Prop where
  stored : ∀ {b}, s.world.store a = some b → b.statusOrInitial.Tells a trail
  found : ∀ {x φ}, s.passes a = some (x, φ) → φ.phase.isEarly = true →
    x.statusOrInitial.Tells a trail
  former : ∀ {x φ q}, s.passes a = some (x, φ) → φ.phase.former? = some q →
    (ofBridge ctx x).Former q
  kept : ∀ {x φ}, s.passes a = some (x, φ) → x.statusOrInitial.Kept

theorem Registered.step (h : Registered a rest s) (hs : s.Sound)
    (hstep : Step (.table ctx) s e s') : Registered a (Move.of s e s' :: rest) s' where
  stored hb := (hstep.turn hs a).tells (fun _ => h.stored) hb
  found := by
    intro x φ hp hearly
    have hturn := hstep.turn hs a
    have hcourse := hstep.course a
    rw [hp] at hcourse
    generalize hbefore : s.passes a = before at hcourse
    cases hcourse with
    | keep _ he => exact (h.found hbefore hearly).later (hturn.not_verdict fun _ _ => he _ _)
    | take b he hb hw =>
      refine (h.stored hb).later (hturn.not_verdict fun _ _ => ?_)
      rw [he]
      nofun
    | answer x φ φ' c r he hdoes hserve =>
      obtain ⟨hearly', hc⟩ := hdoes.isEarly hearly
      refine (h.found hbefore hearly').later (hturn.not_verdict fun st r' => ?_)
      rw [he]
      intro heq
      cases heq
      exact hc _ _ st rfl
  former := by
    intro x φ q hp hq
    have hcourse := hstep.course a
    rw [hp] at hcourse
    generalize hbefore : s.passes a = before at hcourse
    cases hcourse with
    | keep => exact h.former hbefore hq
    | take b he hb hw => exact BridgePass.entry_former hq
    | answer x φ φ' c r he hdoes hserve =>
      rcases hdoes.former hq with hq | hq
      · exact h.former hbefore hq
      · exact hq
  kept := by
    intro x φ hp
    have hcourse := hstep.course a
    rw [hp] at hcourse
    generalize hbefore : s.passes a = before at hcourse
    cases hcourse with
    | keep => exact h.kept hbefore
    | take b he hb hw => exact hs.kept hb
    | answer x φ φ' c r he hdoes hserve => exact h.kept hbefore

theorem Registered.run {rule : Rule} {start : World} {trail : List Move}
    (hrun : Run (.table ctx) rule start trail s) (hstart : start.Initial) :
    Registered a trail s := by
  induction hrun with
  | start =>
    refine ⟨fun hb => ?_, nofun, nofun, nofun⟩
    intro text htext
    rw [Bridge.lastAppliedSpec_statusOrInitial, hstart.status hb] at htext
    cases htext
  | move hrun hrule hstep ih => exact ih.step (hrun.sound hstart) hstep

/-- A pass enters INSTALLING only with its own spec, and if it stores such a status. -/
theorem Move.OfPass.enters {rule : Rule} {allowed : BridgeStatus → Prop} {b : Bridge} {m : Move}
    {a : Address} {spec : BridgeSpec} (h : m.OfPass rule allowed b) (he : m.Enters a spec) :
    b.spec = spec ∧ ∃ st, allowed st ∧ st.state = .installing := by
  rcases h with hsame | ⟨hpasses, c, r, -, hgrant⟩
  · obtain ⟨source, hne, b₀, b', x, hb, hb', -, hsource, htarget, -⟩ := he
    rw [hsame, hb] at hb'
    cases hb'
    exact absurd (hsource.symm.trans htarget) hne
  · obtain ⟨source, hne, b₀, b', x, hb, hb', hx, hsource, htarget, hspec⟩ := he
    obtain ⟨b₁, hb₁, hstatus⟩ := hgrant.serves.status hb'
    obtain rfl : b₀ = b₁ := Option.some.inj (hb.symm.trans hb₁)
    rcases hstatus with hstatus | ⟨ns, name, st, hc, hst⟩
    · have hstate : b'.state = b₀.state := by unfold Bridge.state; rw [hstatus]
      exact absurd (hsource.symm.trans (hstate.symm.trans htarget)) hne
    · refine ⟨?_, st, hgrant.allowed ns name st hc, ?_⟩
      · rw [hpasses] at hx
        by_cases ha : a = b.address
        · subst ha
          obtain rfl : b = x := by simpa [alone] using hx
          exact hspec
        · simp [alone, ha] at hx
      · rw [← htarget, Bridge.state, hst]
        rfl
namespace Sample

theorem record_edited :
    edited.statusOrInitial.lastAppliedSpec = some (spec "deploy/shop").canonical := rfl

/-- What was installed for the first bridge before it was edited. -/
def former : BoundProvider :=
  ⟨.duplicate, binding { edited with spec := spec "deploy/shop" } "shop"⟩

theorem provider_edited : edited.applied.provider context = .ok former := by
  rw [Bridge.applied_eq record_edited]
  exact provider_eq rfl parse_shop

theorem superseded_edited : (ofBridge context edited).Superseded where
  changed := by
    show edited.specChanged = true
    rw [← Bool.not_eq_false, Bridge.specChanged_eq_false]
    intro hsame
    have htarget := congrArg BridgeSpec.target
      (BridgeSpec.canonical_injective (hsame _ record_edited))
    revert htarget
    decide
  state := by decide
  present := by decide

/-- The first bridge, a request again. -/
def requested : BridgeStatus :=
  entering edited.statusOrInitial .requested (some "spec changed") ⟨0, 0⟩

/-- The workload that the edited bridge asks for does not exist. -/
def missing : Error :=
  (binding edited "cart").invalid (.targetNotFound ⟨.deployment, "cart"⟩ "default")

def refused : BridgeStatus :=
  entering ((ofBridge context edited).withSpec requested) .error (some missing.message) ⟨0, 0⟩

theorem exec_refused (e : Estate) : ∃ e', (edited.reconcile context).run.Exec
    (World.Grants .serial (fun st => st.state ≠ .installing) edited) (.ofBridges [edited] e)
    (.ok .awaitChange) (.ofBridges [{ edited with status := some refused }] e') := by
  have hreach : former.Reaches (.object (Duplicate.copy former.binding .deployment)) :=
    ⟨rfl, rfl, rfl, rfl⟩
  obtain ⟨e', hexec, -⟩ := Duplicate.uninstall_takes (x := edited) hreach e
  let w : World := .ofBridges [{ edited with status := some requested }] e'
  have hrequested : (World.ofBridges [edited] e').having edited requested = w :=
    World.having_ofBridges (k := []) (by simp)
  have hstored : w.store edited.address = some { edited with status := some requested } := by
    rw [← hrequested]
    exact World.having_store
  have hrefused : w.having edited refused =
      .ofBridges [{ edited with status := some refused }] e' :=
    World.having_ofBridges (k := []) (b := { edited with status := some requested }) (by simp)
  have hrestart : (ofBridge context edited).starting.run.Exec
      (World.Grants .serial (fun st => st.state ≠ .installing) edited) (.ofBridges [edited] e)
      (.ok requested) w := by
    rw [← hrequested]
    exact exec_restart (permits_serial edited) ⟨0, 0⟩ superseded_edited (by rfl) provider_edited
      ⟨rfl, hexec⟩ World.ofBridges_head (by decide)
  have hvalidate : (Duplicate.validate (binding edited "cart") edited
      [{ edited with status := some requested }]).run.Exec (Estate.Serves edited .look) e'
      (.error missing) e' :=
    (Duplicate.exec_validate (c := .deployment) rfl rfl rfl rfl).2
  have hreject : ((ofBridge context edited).requested requested).run.Exec
      (World.Grants .serial (fun st => st.state ≠ .installing) edited) w
      (.ok (.done .awaitChange)) (.ofBridges [{ edited with status := some refused }] e') := by
    rw [← hrefused]
    exact exec_reject (permits_serial edited) ⟨0, 0⟩ hstored (provider_eq rfl parse_cart)
      (serial_listed (by decide) _ _) ⟨rfl, hvalidate⟩ rfl (by decide)
  have hclaimed : edited.Claimed := ⟨⟨_, rfl⟩, rfl, by rfl⟩
  exact ⟨e', exec_live hclaimed (exec_rejected hrestart rfl hreject)⟩

/-- The first bridge at last, rejected and deleted. -/
def misled : Bridge := ⟨deletion "first", spec "deploy/cart", some refused⟩

theorem dismantles_misled : misled.Dismantles context ⟨.duplicate, binding misled "cart"⟩ where
  namespaced := ⟨_, rfl⟩
  deleted := rfl
  finalizer := by rfl
  installed := by rfl
  provider := by
    have hrecord : misled.statusOrInitial.lastAppliedSpec =
        some (spec "deploy/cart").canonical := rfl
    rw [Bridge.applied_eq hrecord]
    exact provider_eq rfl parse_cart

/-- A bridge is admitted, edited, rejected and deleted. -/
theorem takes_down_request : ∃ rest w w' s,
    Run (.programs context) Rule.serial (.ofBridges [first] .empty)
      (⟨w, alone misled, .answered misled.address
        (.uninstall ⟨.duplicate, binding misled "cart"⟩) (.ok ()), w'⟩ :: rest) s ∧
    ¬ Entered rest misled.address (spec "deploy/cart") := by
  obtain ⟨trail, hrun, hadmitted⟩ := Run.admits (k := []) (l := []) (e := .empty) (by simp)
    .start (permits_serial first)
    (admissible parse_shop World.ofBridges_head (serial_listed (by decide) _ _) rfl rfl)
  have hedited := hrun.edits (spec "deploy/cart") (fun _ => rfl)
  obtain ⟨e, hexec⟩ := exec_refused (.put .empty
    (Duplicate.copy (binding first "shop") .deployment) (some first.writer))
  obtain ⟨trail', hrun', hrefused⟩ :=
    hedited.pass (permits_serial edited) World.ofBridges_head hexec
  have hdeleted := hrun'.amends sameObject_deletion (fun _ => rfl)
  have hreach : (⟨.duplicate, binding misled "cart"⟩ : BoundProvider).Reaches
      (.object (Duplicate.copy (binding misled "cart") .deployment)) := ⟨rfl, rfl, rfl, rfl⟩
  obtain ⟨e', huninstall, -⟩ := Duplicate.uninstall_takes (x := misled) hreach e
  have hemploys : World.Employs misled .unmount
      (Provider.duplicate.uninstall (binding misled "cart")) (.ofBridges [misled] e) (.ok ())
      (.ofBridges [misled] e') := ⟨rfl, huninstall⟩
  obtain ⟨s, hs⟩ := hdeleted.dismantles (permits_serial misled) World.ofBridges_head
    dismantles_misled hemploys
  refine ⟨_, _, _, s, hs, ?_⟩
  rintro ⟨m, hm, henters⟩
  have hquiet : ∀ {b b' : Bridge}, m.before.store misled.address = some b →
      m.after.store misled.address = some b' → b'.state = b.state → False := fun hb hb' hst =>
    Move.not_verdict_of_state hb hb' hst ⟨_, .inl henters⟩
  simp only [List.mem_cons, List.mem_append, List.not_mem_nil, or_false] at hm
  rcases hm with rfl | rfl | hm | rfl | hm
  · exact hquiet World.ofBridges_head World.ofBridges_head rfl
  · exact hquiet World.ofBridges_head World.ofBridges_head rfl
  · obtain ⟨-, st, hst, hinstalling⟩ := (hrefused m hm).enters henters
    exact hst hinstalling
  · exact hquiet World.ofBridges_head World.ofBridges_head rfl
  · have htarget := congrArg BridgeSpec.target ((hadmitted m hm).enters henters).1
    revert htarget
    decide

theorem initial_first : (World.ofBridges [first] .empty).Initial :=
  World.initial_ofBridges (by simp [first, bridge]) (by simp)

end Sample

/-- What a bridge takes down was entered before, exactly if it has not been misled by the rejection
of a spec that was never more than a request. -/
theorem uninstall_entered_iff {rule : Rule} {start : World} {m : Move}
    {s : Scene (.programs ctx)} {q : BoundProvider} {r : Answer (BridgeCall.uninstall q)}
    (hstart : start.Initial) (hrun : Run (.programs ctx) rule start (m :: rest) s)
    (he : m.event = .answered a (.uninstall q) r) :
    Entered rest a q.binding.spec ↔ ¬ Misled a rest := by
  obtain ⟨t, ht, -⟩ := hrun.tabulated
  cases ht with
  | move hrest hrule hstep =>
    have hreg := Registered.run (a := a) hrest hstart
    obtain rfl := he
    cases hstep with
    | @answer _ x φ φ' _ _ w hp hdoes hserve =>
      have hq := BridgePass.Does.uninstall hdoes
      obtain ⟨hinstalled, hprovider⟩ := hreg.former hp hq
      obtain ⟨spec, hspec⟩ := (hreg.kept hp).recorded_of_everInstalled hinstalled
      have hbound : q.binding.spec = spec := by
        rw [Bridge.provider_spec hprovider]
        exact congrArg Bridge.spec (Bridge.applied_eq hspec)
      obtain ⟨spec', hcanonical, hlast⟩ :=
        hreg.found hp (BridgePass.Phase.isEarly_of_former hq) _ hspec
      obtain rfl := BridgeSpec.canonical_injective hcanonical
      rw [hbound]
      exact hlast.entered_iff

theorem uninstall_entered_iff_cart : ∃ rest m s q r,
    (World.ofBridges [Sample.first] .empty).Initial ∧
    Run (.programs Sample.context) Rule.serial (.ofBridges [Sample.first] .empty)
      (m :: rest) s ∧
    m.event = .answered Sample.first.address (.uninstall q) r ∧
    (Entered rest Sample.first.address q.binding.spec ↔ ¬ Misled Sample.first.address rest) := by
  obtain ⟨rest, w, w', s, hrun, -⟩ := Sample.takes_down_request
  exact ⟨rest, _, s, _, _, Sample.initial_first, hrun, rfl,
    uninstall_entered_iff Sample.initial_first hrun rfl⟩

/-- A spec is uninstalled that was never more than a request. -/
theorem cart_taken_down : ∃ rest m s q r,
    (World.ofBridges [Sample.first] .empty).Initial ∧
    Run (.programs Sample.context) Rule.serial (.ofBridges [Sample.first] .empty)
      (m :: rest) s ∧
    m.event = .answered Sample.first.address (.uninstall q) r ∧
    ¬ Entered rest Sample.first.address q.binding.spec := by
  obtain ⟨rest, w, w', s, hrun, hnot⟩ := Sample.takes_down_request
  exact ⟨rest, _, s, _, _, Sample.initial_first, hrun, rfl, hnot⟩

end BridgeOperator
