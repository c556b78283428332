import BridgeOperator.Proofs.Provider.Reach
import BridgeOperator.Proofs.World.Serial
import BridgeOperator.Proofs.World.Verdict

/-!
Whose fixtures a teardown takes away. An uninstall goes by names, so it is the bridge's own
installation that goes as long as nothing else stands under them (`World.Contested`). In a serial
run there are two ways to come to that: a spec is recorded whose names are taken, or an install
takes a name that another bridge would tear down.
-/

namespace BridgeOperator

open BridgePass (ofBridge Moment Phase)

/-- Whenever a bridge is torn down, with its record as it is, only what it wrote itself goes. -/
def World.TeardownSafe (ctx : BridgeContext) (w : World) : Prop :=
  ∀ a b q r w', w.store a = some b → b.statusOrInitial.everInstalled = true →
    b.applied.provider ctx = .ok q → w.Serves b (.uninstall q) r w' →
    ∀ f x, w.estate f = some x → w'.estate f = none → x = b.writer

/-- Tearing the bridge down, with its record as it is, may take the fixture away. -/
def Bridge.TakesDown (ctx : BridgeContext) (b : Bridge) (f : Fixture) : Prop :=
  b.statusOrInitial.everInstalled = true ∧
    ∃ q, b.applied.provider ctx = .ok q ∧ q.Reaches f

/-- What the bridge at an address would tear down was last written by somebody else. -/
def World.Contested (ctx : BridgeContext) (w : World) (a : Address) (f : Fixture) : Prop :=
  ∃ b x, w.store a = some b ∧ b.TakesDown ctx f ∧ w.estate f = some x ∧ x ≠ b.writer

namespace Move

/-- The pass that uninstalls takes away nothing but what its bridge wrote last. -/
def TearsDownOwn (m : Move) : Prop :=
  ∀ a y q r f x, m.event = .answered a (.uninstall q) r → m.passes a = some y →
    m.before.estate f = some x → m.after.estate f = none → x = y.writer

/-- An uninstall takes away what its bridge would tear down and somebody else wrote last. -/
def TakesContested (ctx : BridgeContext) (m : Move) : Prop :=
  ∃ a f q r, m.event = .answered a (.uninstall q) r ∧ m.before.Contested ctx a f ∧
    m.after.estate f = none

/-- A verdict records a spec that reaches what somebody else wrote, or an install writes what
another bridge reaches. -/
def Disputes (ctx : BridgeContext) (m : Move) : Prop :=
  ∃ a f, m.after.Contested ctx a f ∧ ((∃ spec, m.Verdict a spec) ∨
    ∃ a' y q r, m.event = .answered a' (.install q) r ∧ m.passes a' = some y ∧
      m.after.estate f = some y.writer)

end Move

namespace Bridge

variable {ctx : BridgeContext} {b b' : Bridge}

theorem applied_metadata (b : Bridge) : b.applied.metadata = b.metadata := by
  unfold applied
  split <;> rfl

theorem writer_eq (h : b.metadata.SameObject b'.metadata) : b'.writer = b.writer := by
  unfold writer
  rw [address_eq h, h.uid]

/-- What a provider reaches is a matter of the name and the spec it is bound to. -/
theorem provider_congr {q : BoundProvider} (hname : b.name = b'.name) (hspec : b.spec = b'.spec)
    (h : b'.provider ctx = .ok q) : ∃ q', b.provider ctx = .ok q' ∧ q'.Reaches = q.Reaches := by
  obtain ⟨hbinding, hprovider⟩ := provider_eq_ok h
  obtain ⟨target, htarget, hq⟩ := Binding.ofBridge_eq_ok hbinding
  have hworkload : b.workload = .ok target := by
    rw [← htarget, workload, workload, hspec, hname]
  refine ⟨⟨q.provider, { q.binding with reference := b.reference }⟩, ?_, ?_⟩
  · unfold provider Binding.ofBridge Registry.build
    rw [hworkload, hspec, hprovider, hq, hname]
    rfl
  · funext f
    rcases f with (_ | _) | _ <;> rfl

/-- What a bridge would tear down is a matter of its name and its record. -/
theorem TakesDown.congr {f : Fixture} (h : b'.TakesDown ctx f)
    (hinstalled : b.statusOrInitial.everInstalled = true)
    (hspec : b'.applied.spec = b.applied.spec) (hsame : b.metadata.SameObject b'.metadata) :
    b.TakesDown ctx f := by
  obtain ⟨-, q, hq, hf⟩ := h
  have hname : b.applied.name = b'.applied.name := by
    unfold Bridge.name
    rw [b.applied_metadata, b'.applied_metadata, hsame.anyName]
  obtain ⟨q', hq', hreach⟩ := provider_congr hname hspec.symm hq
  exact ⟨hinstalled, q', hq', hreach ▸ hf⟩

end Bridge

variable {ctx : BridgeContext}

/-- A provider a pass works with is one of the two. -/
theorem Registry.provider_cases {b : Bridge} {q : BoundProvider} (hreg : ctx.registry = .standard)
    (h : b.provider ctx = .ok q) : q.provider = .sidecar ∨ q.provider = .duplicate := by
  have hget := (Bridge.provider_eq_ok h).2
  rw [hreg] at hget
  exact (Registry.get_standard hget).imp (·.2) (·.2)

/-- A teardown is safe if nothing within reach is contested, and only then. -/
theorem World.teardownSafe_iff {w : World} (hreg : ctx.registry = .standard)
    (hw : w.estate.undisturbed = true) : w.TeardownSafe ctx ↔ ∀ a f, ¬ w.Contested ctx a f := by
  constructor
  · rintro hsafe a f ⟨b, x, hb, ⟨hinstalled, q, hq, hf⟩, hx, hne⟩
    have hstands : w.estate f ≠ none := by simp [hx]
    obtain ⟨e', hexec, hgone⟩ :=
      BoundProvider.uninstall_takes (Registry.provider_cases hreg hq) hf hstands
    exact hne (hsafe a b q _ ⟨w.store, e'⟩ hb hinstalled hq ⟨rfl, hexec⟩ f x hx hgone)
  · intro hfree a b q r w' hb hinstalled hq hserve f x hx hgone
    rcases BoundProvider.exec_uninstall (Registry.provider_cases hreg hq) hw hserve.2 f with
      hf | ⟨-, hf⟩
    · rw [hf, hx] at hgone
      cases hgone
    · refine Classical.not_not.mp fun hne => hfree a f ⟨b, x, hb, ?_, hx, hne⟩
      exact ⟨hinstalled, q, hq, hf⟩

section

variable {s s' : Scene (.table ctx)} {e : Event}

/-- Only the calls of a provider can change the estate. -/
theorem World.Serves.estate_eq {w w' : World} {x : Bridge} {c : BridgeCall} {r : Answer c}
    (h : w.Serves x c r w') (hv : ∀ q request peers, c ≠ .validate q request peers)
    (hr : ∀ q limit, c ≠ .ready q limit) (hi : ∀ q, c ≠ .install q) (hu : ∀ q, c ≠ .uninstall q) :
    w'.estate = w.estate := by
  have hmodify : ∀ {α : Type} {a : Address} {g : Bridge → Option Bridge} {r : Except Error α},
      Settles (w.modify a g) w r w' → w'.estate = w.estate := fun h => h.elim rfl rfl
  cases c with
  | validate q request peers => exact absurd rfl (hv q request peers)
  | ready q limit => exact absurd rfl (hr q limit)
  | install q => exact absurd rfl (hi q)
  | uninstall q => exact absurd rfl (hu q)
  | patchStatus ns name st => exact hmodify h
  | addFinalizer ns name => exact hmodify h
  | removeFinalizer ns name => exact hmodify h
  | now => exact congrArg World.estate h
  | sleep d => exact congrArg World.estate h
  | publish n => exact congrArg World.estate h
  | listBridges => exact congrArg World.estate h

theorem World.Serves.undisturbed {w w' : World} {x : Bridge} {c : BridgeCall} {r : Answer c}
    (h : w.Serves x c r w') : w'.estate.undisturbed = w.estate.undisturbed := by
  cases c with
  | validate q request peers => exact Estate.exec_undisturbed h.2
  | install q => exact Estate.exec_undisturbed h.2
  | ready q limit =>
    obtain ⟨v, hserve, -⟩ := h
    exact Estate.exec_undisturbed hserve.2
  | uninstall q => exact Estate.exec_undisturbed h.2
  | _ => exact congrArg _ (h.estate_eq (by simp) (by simp) (by simp) (by simp))

theorem Step.undisturbed {m : Machine} {s s' : Scene m} {e : Event} (h : Step m s e s') :
    s'.world.estate.undisturbed = s.world.estate.undisturbed := by
  cases h with
  | answer _ _ hserve => exact hserve.undisturbed
  | _ => rfl

theorem Run.undisturbed {m : Machine} {rule : Rule} {start : World} {trail : List Move}
    {s : Scene m} (h : Run m rule start trail s) :
    s.world.estate.undisturbed = start.estate.undisturbed := by
  induction h with
  | start => rfl
  | move _ _ hstep ih => exact hstep.undisturbed.trans ih

/-- A fixture changes by an install, in the name of its bridge, or it is taken away by an
uninstall that reaches it. -/
theorem Step.estate (h : Step (.table ctx) s e s') (hserial : Serial s) (hs : s.Sound)
    (hreg : ctx.registry = .standard) (hw : s.world.estate.undisturbed = true) (f : Fixture) :
    s'.world.estate f = s.world.estate f ∨
      ∃ a y, s.bridges a = some y ∧
        ((∃ q r, e = .answered a (.install q) r ∧
            (s'.world.estate f = some y.writer ∨ s'.world.estate f = none)) ∨
          ∃ q r, e = .answered a (.uninstall q) r ∧ s'.world.estate f = none ∧
            ∃ b, s.world.store a = some b ∧ b.TakesDown ctx f ∧ b.writer = y.writer) := by
  cases h with
  | create => exact .inl rfl
  | edit => exact .inl rfl
  | amend => exact .inl rfl
  | vanish => exact .inl rfl
  | take => exact .inl rfl
  | leave => exact .inl rfl
  | @answer a x φ φ' c r w hp hgo hserve =>
    have hx : s.bridges a = some x := Scene.bridges_eq_some.mpr ⟨φ, hp⟩
    cases c with
    | validate q request peers =>
      obtain ⟨st, hφ⟩ := BridgePass.Does.validate_phase hgo
      obtain ⟨b, hb⟩ := hserial.present hp (by rw [hφ]; nofun)
      have hsound := hs.phase hp hb
      rw [hφ] at hsound
      have hlooks := BoundProvider.looks_validate request peers
        (Registry.provider_cases hreg hsound.2.2)
      exact .inl (congrArg (· f) (hlooks.exec hw hserve.2))
    | ready q limit =>
      obtain ⟨st, hφ⟩ := BridgePass.Does.ready_phase hgo
      obtain ⟨b, hb⟩ := hserial.present hp (by rcases hφ with hφ | hφ <;> rw [hφ] <;> nofun)
      have hsound := hs.phase hp hb
      obtain ⟨v, hserve, -⟩ := hserve
      have hq : x.provider ctx = .ok q := by
        rcases hφ with hφ | hφ <;> rw [hφ] at hsound <;> exact hsound.2.2.2
      have hlooks := BoundProvider.looks_ready (Registry.provider_cases hreg hq)
      exact .inl (congrArg (· f) (hlooks.exec hw hserve.2))
    | install q =>
      rcases Estate.exec_writes hw hserve.2 f with hf | hf
      · exact .inl hf
      · exact .inr ⟨a, x, hx, .inl ⟨q, r, rfl, hf⟩⟩
    | uninstall q =>
      have hφ := BridgePass.Does.uninstall hgo
      obtain ⟨b, hb⟩ := hserial.present hp (by intro hover; rw [hover] at hφ; cases hφ)
      obtain ⟨hcur, hinstalled, hq⟩ := (hs.phase hp hb).former hφ
      have hsame := hs.same hp hb
      rw [← hcur] at hinstalled
      have hrecord : x.applied.spec = b.applied.spec :=
        Bridge.applied_spec_congr (hs.kept hb) hinstalled (congrArg _ hcur.symm)
      rcases BoundProvider.exec_uninstall (Registry.provider_cases hreg hq) hw hserve.2 f with
        hf | ⟨hgone, hf⟩
      · exact .inl hf
      · have htakes : x.TakesDown ctx f := ⟨hcur ▸ hinstalled, q, hq, hf⟩
        refine .inr ⟨a, x, hx, .inr ⟨q, r, rfl, hgone, b, hb, ?_, Bridge.writer_eq hsame⟩⟩
        exact htakes.congr hinstalled hrecord hsame.symm
    | _ =>
      have hestate := hserve.estate_eq (by simp) (by simp) (by simp) (by simp)
      exact .inl (congrArg (· f) hestate)

/-- Only a disputed move brings anything into dispute. -/
theorem Step.uncontested (h : Step (.table ctx) s e s') (hserial : Serial s) (hs : s.Sound)
    (hreg : ctx.registry = .standard) (hw : s.world.estate.undisturbed = true)
    (hfree : ∀ a f, ¬ s.world.Contested ctx a f)
    (hdispute : ¬ (Move.of s e s').Disputes ctx) : ∀ a f, ¬ s'.world.Contested ctx a f := by
  intro a f hcontested
  have ⟨b', x, hb', htakes, hx, hne⟩ := hcontested
  by_cases hverdict : ∃ spec, (Move.of s e s').Verdict a spec
  · exact hdispute ⟨a, f, hcontested, .inl hverdict⟩
  · have hturn := h.turn hs a
    rw [hb'] at hturn
    -- without a verdict the record is the old one, so it is the fixture that has changed hands
    obtain ⟨b, hb, hinstalled, hspec, hsame⟩ := hturn.recorded hs hb' hverdict htakes.1
    rcases h.estate hserial hs hreg hw f with hestate | ⟨a', y, hy, hwrite | hgone⟩
    · rw [hestate] at hx
      rw [Bridge.writer_eq hsame] at hne
      exact hfree a f ⟨b, x, hb, htakes.congr hinstalled hspec hsame, hx, hne⟩
    · obtain ⟨q, r, he, hwrite | hgone⟩ := hwrite
      · exact hdispute ⟨a, f, hcontested, .inr ⟨a', y, q, r, he, hy, hwrite⟩⟩
      · rw [hgone] at hx
        cases hx
    · obtain ⟨q, r, -, hgone, -⟩ := hgone
      rw [hgone] at hx
      cases hx

/-- An uninstall takes its own, unless it takes something contested. -/
theorem Step.tearsDownOwn_iff (h : Step (.table ctx) s e s') (hserial : Serial s) (hs : s.Sound)
    (hreg : ctx.registry = .standard) (hw : s.world.estate.undisturbed = true) :
    (Move.of s e s').TearsDownOwn ↔ ¬ (Move.of s e s').TakesContested ctx := by
  constructor
  · rintro hown ⟨a, f, q, r, he, ⟨b, x, hb, -, hx, hne⟩, hgone⟩
    obtain rfl : e = .answered a (.uninstall q) r := he
    cases h with
    | @answer _ y φ φ' _ _ w hp hgo hserve =>
      have hy : s.bridges a = some y := Scene.bridges_eq_some.mpr ⟨φ, hp⟩
      rw [Bridge.writer_eq (hs.same hp hb)] at hne
      exact hne (hown a y q r f x rfl hy hx hgone)
  · rintro hnone a y q r f x he hy hx hgone
    obtain rfl : e = .answered a (.uninstall q) r := he
    have hx' : s.world.estate f = some x := hx
    have hgone' : s'.world.estate f = none := hgone
    rcases h.estate hserial hs hreg hw f with hestate | ⟨a', y', hy', hinstall | huninstall⟩
    · rw [hestate, hx'] at hgone'
      cases hgone'
    · obtain ⟨q', r', he, -⟩ := hinstall
      cases he
    · obtain ⟨q', r', he, -, b, hb, htakes, hwriter⟩ := huninstall
      cases he
      obtain rfl : y' = y := Option.some.inj (hy'.symm.trans hy)
      rw [← hwriter]
      refine Classical.not_not.mp fun hne => hnone ?_
      exact ⟨a, f, q, r, rfl, ⟨b, x, hb, htakes, hx', hne⟩, hgone'⟩

end

namespace Sample

/-- The first bridge after it has found its target gone, and been deleted. -/
def lost : Bridge :=
  { first.failed context (binding first "shop") with metadata := deletion "first" }

theorem dismantles_lost : lost.Dismantles context ⟨.duplicate, binding lost "shop"⟩ where
  namespaced := ⟨_, rfl⟩
  deleted := rfl
  finalizer := by rfl
  installed := by rfl
  provider := by
    have hrecord : lost.statusOrInitial.lastAppliedSpec = some (spec "deploy/shop").canonical := rfl
    rw [Bridge.applied_eq hrecord]
    exact provider_eq rfl parse_shop

/-- The first bridge fails, the second takes its place, and the first is deleted. -/
theorem takes_down_second : ∃ trail e e' s f,
    e f = some second.writer ∧ e' f = none ∧
    Run (.programs context) Rule.serial start
      (⟨.ofBridges [lost, second.pending context] e, alone lost,
        .answered lost.address (.uninstall ⟨.duplicate, binding lost "shop"⟩) (.ok ()),
        .ofBridges [lost, second.pending context] e'⟩ :: trail) s := by
  obtain ⟨trail, hrun, -⟩ := Run.fails (k := []) (by simp) .start (permits_serial _)
    (admissible_first (serial_listed (by decide) _ _))
  have hfirst : ∀ c ∈ [first.failed context (binding first "shop")],
      c.address ≠ second.address := by decide
  obtain ⟨trail', hrun', -⟩ := Run.admits hfirst hrun (permits_serial second)
    (admissible parse_shop rfl (serial_listed (by decide) _ _) rfl rfl)
  have hdeleted := hrun'.amends sameObject_deletion (fun _ => rfl)
  let copy : Asset := Duplicate.copy (binding second "shop") .deployment
  let e : Estate := .put .empty copy (some second.writer)
  have hreach : (⟨.duplicate, binding lost "shop"⟩ : BoundProvider).Reaches (.object copy) :=
    ⟨rfl, rfl, rfl, rfl⟩
  obtain ⟨e', hexec, hgone⟩ := Duplicate.uninstall_takes (x := lost) hreach e
  have huninstall : World.Employs lost .unmount (Provider.duplicate.uninstall (binding lost "shop"))
      (.ofBridges [lost, second.pending context] e) (.ok ())
      (.ofBridges [lost, second.pending context] e') := ⟨rfl, hexec⟩
  obtain ⟨s, hs⟩ := hdeleted.dismantles (permits_serial lost) World.ofBridges_head
    dismantles_lost huninstall
  exact ⟨_, _, e', s, _, Estate.put_self .., hgone, hs⟩

end Sample

/-- In a serial run in which nobody but the operator writes to the sidecars, teardowns take away
nothing but what their own bridges wrote last, exactly if none of them takes anything contested,
whatever was in the cluster and in its sidecars before. There never is anything contested, so that
teardowns are safe wherever they come, exactly if no move disputes what another bridge or somebody
else has made. -/
theorem teardown_safe_iff {config : OperatorConfig} {start : World} {trail : List Move}
    {s : Scene (.programs ⟨config, .standard⟩)} (hstart : start.Initial)
    (hundisturbed : start.estate.undisturbed = true)
    (hrun : Run (.programs ⟨config, .standard⟩) Rule.serial start trail s) :
    ((∀ m ∈ trail, m.TearsDownOwn) ↔ ∀ m ∈ trail, ¬ m.TakesContested ⟨config, .standard⟩) ∧
      ((∀ m ∈ trail, m.TearsDownOwn ∧ m.after.TeardownSafe ⟨config, .standard⟩) ↔
        ∀ m ∈ trail, ¬ m.Disputes ⟨config, .standard⟩) := by
  obtain ⟨t, ht, -⟩ := hrun.tabulated
  have hundisturbed' : ∀ {rest} {s : Scene (.table ⟨config, .standard⟩)},
      Run (.table ⟨config, .standard⟩) Rule.serial start rest s →
      s.world.estate.undisturbed = true := fun h => h.undisturbed.trans hundisturbed
  have hown : ∀ m ∈ trail, m.TearsDownOwn ↔ ¬ m.TakesContested ⟨config, .standard⟩ := by
    intro m hm
    obtain ⟨rest, s₀, e, s₁, hrest, -, -, hstep, rfl⟩ := ht.of_mem hm
    exact hstep.tearsDownOwn_iff (Serial.run hrest rfl hstart) (hrest.sound hstart) rfl
      (hundisturbed' hrest)
  have hfirst : start.TeardownSafe ⟨config, .standard⟩ := by
    intro a b q r w' hb hinstalled
    simp [Bridge.statusOrInitial, hstart.status hb] at hinstalled
  have hkeep : ∀ {rest} {s : Scene (.table ⟨config, .standard⟩)} {e s'},
      Run (.table ⟨config, .standard⟩) Rule.serial start rest s →
      Rule.serial s.world s.bridges e → Step (.table ⟨config, .standard⟩) s e s' →
      s.world.TeardownSafe ⟨config, .standard⟩ → ¬ (Move.of s e s').Disputes ⟨config, .standard⟩ →
      s'.world.TeardownSafe ⟨config, .standard⟩ := by
    intro rest s e s' hrun hrule hstep hsafe hdispute
    have hw := hundisturbed' hrun
    rw [World.teardownSafe_iff rfl hw] at hsafe
    rw [World.teardownSafe_iff rfl (hstep.undisturbed.trans hw)]
    exact hstep.uncontested (Serial.run hrun rfl hstart) (hrun.sound hstart) rfl hw hsafe hdispute
  have hsafe : (∀ m ∈ trail, m.after.TeardownSafe ⟨config, .standard⟩) ↔
      ∀ m ∈ trail, ¬ m.Disputes ⟨config, .standard⟩ := by
    refine ht.throughout_iff hfirst hkeep ?_
    rintro rest s e s' hrest - hstep ⟨a, f, hcontested, -⟩
    rw [World.teardownSafe_iff rfl (hstep.undisturbed.trans (hundisturbed' hrest))]
    exact fun hfree => hfree a f hcontested
  refine ⟨forall₂_congr hown, fun h => hsafe.mp fun m hm => (h m hm).2, ?_⟩
  intro hnone m hm
  refine ⟨(hown m hm).mpr ?_, hsafe.mpr hnone m hm⟩
  obtain ⟨rest, s₀, e, s₁, hrest, hsub, -, -, rfl⟩ := ht.of_mem hm
  have hbefore := hrest.keeps hfirst hkeep fun m hm => hnone m (hsub m hm)
  rintro ⟨a, f, q, r, -, hcontested, -⟩
  exact (World.teardownSafe_iff rfl (hundisturbed' hrest)).mp hbefore a f hcontested

theorem teardown_safe_iff_shop : ∃ trail s, Sample.start.Initial ∧
    Sample.start.estate.undisturbed = true ∧
    Run (.programs Sample.context) Rule.serial Sample.start trail s ∧
    ((∀ m ∈ trail, m.TearsDownOwn) ↔ ∀ m ∈ trail, ¬ m.TakesContested Sample.context) ∧
    ((∀ m ∈ trail, m.TearsDownOwn ∧ m.after.TeardownSafe Sample.context) ↔
      ∀ m ∈ trail, ¬ m.Disputes Sample.context) := by
  obtain ⟨trail, e, e', s, f, -, -, hrun⟩ := Sample.takes_down_second
  exact ⟨_, s, Sample.initial_start, rfl, hrun,
    teardown_safe_iff Sample.initial_start rfl hrun⟩

/-- The copy that the second of two bridges has made goes with the first. -/
theorem shop_taken_down : ∃ trail s, Sample.start.Initial ∧
    Sample.start.estate.undisturbed = true ∧
    Run (.programs Sample.context) Rule.serial Sample.start trail s ∧
    ∃ m ∈ trail, ¬ m.TearsDownOwn := by
  obtain ⟨trail, e, e', s, f, hstands, hgone, hrun⟩ := Sample.takes_down_second
  refine ⟨_, s, Sample.initial_start, rfl, hrun, _, .head _, fun hown => ?_⟩
  have hpass : alone Sample.lost Sample.lost.address = some Sample.lost := Function.update_self ..
  have hother : Sample.second.writer ≠ Sample.lost.writer := by decide
  exact hother (hown _ _ _ _ f _ rfl hpass hstands hgone)

end BridgeOperator
