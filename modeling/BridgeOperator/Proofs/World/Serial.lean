import BridgeOperator.Proofs.World.Admission

/-!
Serial runs: whole passes one after another, with everything else that happens to bridges between
them. While a pass is in flight the world around it stands still (`Serial.elsewhere`), so what it
has seen of the other bridges stays true until it is through.
-/

namespace BridgeOperator

open BridgePass (ofBridge Moment Phase)

/-- Bridges come, are edited and go between the passes, a pass begins when no other is in flight,
and a list holds what is stored. -/
def Rule.serial : Rule
  | w, _, .answered _ .listBridges (.ok peers) => ∀ b, b ∈ peers ↔ ∃ a, w.store a = some b
  | _, _, .answered .. => True
  | _, _, .ended _ => True
  | _, passes, _ => ∀ a, passes a = none

theorem permits_serial (b : Bridge) : Rule.serial.Permits b where
  began _ _ := rfl
  answered := by
    intro w c r hc
    cases c with
    | listBridges => exact absurd rfl hc
    | _ => trivial
  ended _ := trivial

theorem serial_listed {l : List Bridge} {e : Estate} (h : (l.map Bridge.address).Nodup)
    (passes : Address → Option Bridge) (a : Address) :
    Rule.serial (.ofBridges l e) passes (.answered a .listBridges (.ok l)) :=
  fun _ => World.mem_ofBridges h

variable {ctx : BridgeContext} {s s' : Scene (.table ctx)} {e : Event}

/-- What a pass knows in a serial run. -/
structure Serial (s : Scene (.table ctx)) : Prop where
  single : ∀ {a a'}, s.passes a ≠ none → s.passes a' ≠ none → a = a'
  present : ∀ {a x φ}, s.passes a = some (x, φ) → φ.phase ≠ .over → ∃ b, s.world.store a = some b
  spec : ∀ {a x φ b}, s.passes a = some (x, φ) → s.world.store a = some b → b.spec = x.spec
  checked : ∀ {a a' x st q peers t c}, s.passes a = some (x, ⟨.checking st q peers, t⟩) → a' ≠ a →
    s.world.store a' = some c → c ∈ peers
  admitted : ∀ {a a' x st q t c}, s.passes a = some (x, ⟨.admitted st q, t⟩) → a' ≠ a →
    s.world.store a' = some c → x.sameTarget c = true → c.owns x = false

namespace Serial

section

variable (h : Serial s) (hrule : Rule.serial s.world s.bridges e)

include h hrule

/-- With a pass in flight, every event is one of this pass. -/
theorem of_pass (hstep : Step (.table ctx) s e s') {a : Address} (hp : s.passes a ≠ none) :
    (∃ c r, e = .answered a c r) ∨ s'.world = s.world := by
  have hbusy : ¬ ∀ a, s.bridges a = none := fun hnone => hp (Scene.bridges_eq_none.mp (hnone a))
  cases hstep with
  | create => exact absurd hrule hbusy
  | edit => exact absurd hrule hbusy
  | amend => exact absurd hrule hbusy
  | vanish => exact absurd hrule hbusy
  | take => exact absurd hrule hbusy
  | @answer a' x φ φ' c r w hp' =>
    obtain rfl := h.single hp (by rw [hp']; nofun : s.passes a' ≠ none)
    exact .inl ⟨c, r, rfl⟩
  | leave => exact .inr rfl

/-- Other bridges stay as they are while a pass is in flight. -/
theorem elsewhere (hs : s.Sound) (hstep : Step (.table ctx) s e s') {a a' : Address}
    (hp : s.passes a ≠ none) (hne : a' ≠ a) : s'.world.store a' = s.world.store a' := by
  rcases h.of_pass hrule hstep hp with ⟨c, r, rfl⟩ | hw
  · cases hstep with
    | answer hp' hgo hserve => exact hs.store_of_ne hp' hgo hserve hne
  · rw [hw]

end

end Serial

/-- A request that has been admitted has its target to itself. -/
theorem Serial.not_sameTarget (h : Serial s) {a a' : Address} {x b c : Bridge} {st : BridgeStatus}
    {q : BoundProvider} {t : Option Instant} (hp : s.passes a = some (x, ⟨.admitted st q, t⟩))
    (hne : a' ≠ a) (hb : s.world.store a = some b) (hc : s.world.store a' = some c)
    (hholds : c.state.holdsTarget = true) : b.sameTarget c = false := by
  rw [Bridge.sameTarget_congr (h.spec hp hb) rfl]
  refine Bool.eq_false_iff.mpr fun hsame => ?_
  have hfree := h.admitted hp hne hc hsame
  rw [Bridge.owns, hholds, Bool.true_or] at hfree
  cases hfree

/-- Only its own release takes a bridge away from the pass over it. -/
theorem World.Serves.present {w w' : World} {x b : Bridge} {c : BridgeCall} {r : Answer c}
    {a : Address} (h : w.Serves x c r w') (hc : ∀ ns name, c ≠ .removeFinalizer ns name)
    (hb : w.store a = some b) : ∃ b', w'.store a = some b' := by
  have hmodify : ∀ {α : Type} {a' : Address} {f : Bridge → Option Bridge} {r : Except Error α},
      (∀ b, ∃ b', f b = some b') → Settles (w.modify a' f) w r w' →
      ∃ b', w'.store a = some b' := by
    intro α a' f r hf hsettles
    rcases hsettles with rfl | ⟨-, rfl⟩
    · by_cases ha : a = a'
      · subst ha
        rw [World.modify_self, hb]
        exact hf b
      · rw [World.modify_of_ne ha]
        exact ⟨b, hb⟩
    · exact ⟨b, hb⟩
  cases c with
  | patchStatus ns name st => exact hmodify (fun b => ⟨_, rfl⟩) h
  | addFinalizer ns name => exact hmodify (fun b => ⟨_, rfl⟩) h
  | removeFinalizer ns name => exact absurd rfl (hc ns name)
  | _ =>
    rw [h.store_eq (fun _ _ _ => nofun) (fun _ _ => nofun) fun _ _ => nofun]
    exact ⟨b, hb⟩

/-- A call leaves the spec of every bridge as it was. -/
theorem Turn.spec_eq {a : Address} {b' : Bridge} (h : Turn s e a (s.world.store a) (some b'))
    (hp : s.passes a ≠ none) (he : ∀ spec, e ≠ .edited a spec) :
    ∃ b, s.world.store a = some b ∧ b'.spec = b.spec := by
  generalize hbefore : s.world.store a = before at h
  cases h with
  | keep => exact ⟨b', rfl, rfl⟩
  | create b he' ha hf hst hnone => exact absurd hnone hp
  | edit b spec he' => exact absurd he' (he spec)
  | amend b => exact ⟨b, rfl, rfl⟩
  | advance b => exact ⟨b, rfl, rfl⟩

namespace Serial

section

variable (h : Serial s) (hrule : Rule.serial s.world s.bridges e)
  (hstep : Step (.table ctx) s e s')

include h hrule hstep

theorem step_single {a a' : Address} (hp : s'.passes a ≠ none) (hp' : s'.passes a' ≠ none) :
    a = a' := by
  have hold : ∀ {a}, s'.passes a ≠ none → s.passes a ≠ none ∨ e = .began a := by
    intro a hp
    have hcourse := hstep.course a
    generalize hbefore : s.passes a = before, s'.passes a = after at hcourse hp
    cases hcourse with
    | keep => exact .inl hp
    | take b he => exact .inr he
    | answer => exact .inl nofun
    | leave => exact absurd rfl hp
  have hquiet : ∀ {a a'}, e = .began a → s.passes a' = none := by
    rintro a a' rfl
    exact Scene.bridges_eq_none.mp (hrule a')
  rcases hold hp with hp | he
  · rcases hold hp' with hp' | he'
    · exact h.single hp hp'
    · exact absurd (hquiet he') hp
  · rcases hold hp' with hp' | he'
    · exact absurd (hquiet he) hp'
    · rw [he] at he'
      cases he'
      rfl

theorem step_present {a : Address} {x : Bridge} {φ : Moment} (hp : s'.passes a = some (x, φ))
    (hφ : φ.phase ≠ .over) : ∃ b, s'.world.store a = some b := by
  have hcourse := hstep.course a
  rw [hp] at hcourse
  generalize hbefore : s.passes a = before at hcourse
  cases hcourse with
  | keep _ he =>
    rcases h.of_pass hrule hstep (by rw [hbefore]; nofun) with ⟨c, r, he'⟩ | hw
    · exact absurd he' (he c r)
    · rw [hw]
      exact h.present hbefore hφ
  | take b he hb hw => exact ⟨x, by rw [hw, hb]⟩
  | answer x φ φ' c r he hdoes hserve =>
    by_cases hc : ∀ ns name, c ≠ .removeFinalizer ns name
    · obtain ⟨b, hb⟩ := h.present hbefore fun hover => hφ (hdoes.over hover)
      exact hserve.present hc hb
    · simp only [not_forall, Classical.not_not] at hc
      obtain ⟨ns, name, rfl⟩ := hc
      exact absurd hdoes.removeFinalizer.2.2 hφ

variable (hs : s.Sound)

include hs

theorem step_spec {a : Address} {x b' : Bridge} {φ : Moment} (hp : s'.passes a = some (x, φ))
    (hb' : s'.world.store a = some b') : b'.spec = x.spec := by
  have hcourse := hstep.course a
  rw [hp] at hcourse
  generalize hbefore : s.passes a = before at hcourse
  cases hcourse with
  | keep _ he =>
    rcases h.of_pass hrule hstep (by rw [hbefore]; nofun) with ⟨c, r, he'⟩ | hw
    · exact absurd he' (he c r)
    · rw [hw] at hb'
      exact h.spec hbefore hb'
  | take b he hb hw =>
    rw [hw, hb] at hb'
    cases hb'
    rfl
  | answer x φ φ' c r he hdoes hserve =>
    have hturn := hstep.turn hs a
    rw [hb'] at hturn
    obtain ⟨b, hb, hspec⟩ := hturn.spec_eq (by rw [hbefore]; nofun) fun _ => by rw [he]; nofun
    exact hspec.trans (h.spec hbefore hb)

theorem step_checked {a a' : Address} {x c : Bridge} {st : BridgeStatus} {q : BoundProvider}
    {peers : List Bridge} {t : Option Instant}
    (hp : s'.passes a = some (x, ⟨.checking st q peers, t⟩)) (hne : a' ≠ a)
    (hc : s'.world.store a' = some c) : c ∈ peers := by
  rcases hstep.checking hp with ⟨t', hpass⟩ | ⟨φ, hpass, he, hw⟩
  · rw [h.elsewhere hrule hs hstep (by rw [hpass]; nofun) hne] at hc
    exact h.checked hpass hne hc
  · rw [hw] at hc
    rw [he] at hrule
    exact (hrule c).mpr ⟨a', hc⟩

theorem step_admitted (hreg : ctx.registry = .standard) {a a' : Address} {x c : Bridge}
    {st : BridgeStatus} {q : BoundProvider} {t : Option Instant}
    (hp : s'.passes a = some (x, ⟨.admitted st q, t⟩)) (hne : a' ≠ a)
    (hc : s'.world.store a' = some c) (htarget : x.sameTarget c = true) : c.owns x = false := by
  rcases hstep.admitted hp with ⟨t', hpass⟩ | ⟨peers, t', hpass, -, hserve⟩
  · rw [h.elsewhere hrule hs hstep (by rw [hpass]; nofun) hne] at hc
    exact h.admitted hpass hne hc htarget
  · rw [h.elsewhere hrule hs hstep (by rw [hpass]; nofun) hne] at hc
    obtain ⟨b, hb⟩ := h.present hpass nofun
    obtain ⟨-, -, hprovider⟩ := hs.phase hpass hb
    have hq : x.provider ⟨ctx.config, .standard⟩ = .ok q := by
      rw [← hreg]
      exact hprovider
    have hobject : x.sameObject c = false := by
      rw [← Bridge.sameObject_congr (hs.same hpass hb) (.refl c.metadata)]
      exact hs.sameObject_of_ne hb hc hne.symm
    have hfree := Bridge.ensureExclusive_eq_ok.mp (validate_exclusive hq hserve.2)
    exact hfree c (h.checked hpass hne hc) hobject htarget

theorem step (hreg : ctx.registry = .standard) : Serial s' where
  single := step_single h hrule hstep
  present := step_present h hrule hstep
  spec := step_spec h hrule hstep hs
  checked := step_checked h hrule hstep hs
  admitted := step_admitted h hrule hstep hs hreg

end

theorem quiet (w : World) : Serial (.quiet (.table ctx) w) where
  single hp := absurd rfl hp
  present hp := nomatch hp
  spec hp := nomatch hp
  checked hp := nomatch hp
  admitted hp := nomatch hp

theorem run {start : World} {trail : List Move} (hrun : Run (.table ctx) Rule.serial start trail s)
    (hreg : ctx.registry = .standard) (hstart : start.Initial) : Serial s := by
  induction hrun with
  | start => exact quiet start
  | move hrun hrule hstep ih => exact step ih hrule hstep (hrun.sound hstart) hreg

end Serial
end BridgeOperator
