import BridgeOperator.Proofs.Pass.Lifecycle
import BridgeOperator.Proofs.Provider.Ownership
import BridgeOperator.Proofs.World.Run

/-!
What a single event may do: to the bridge that is stored at an address (`Turn`) and to the pass
over it (`Course`). Both are read off a scene whose passes know the statuses they build on
(`Scene.Sound`), and every scene of a run is one.
-/

namespace BridgeOperator

open BridgePass (ofBridge Moment)

namespace Kube.Metadata

variable {m m' m'' : Metadata}

theorem SameObject.refl (m : Metadata) : m.SameObject m := ⟨rfl, rfl, rfl, rfl, rfl⟩

theorem SameObject.symm (h : m.SameObject m') : m'.SameObject m :=
  ⟨h.name.symm, h.generateName.symm, h.namespaceName.symm, h.uid.symm, h.creationTimestamp.symm⟩

theorem SameObject.trans (h : m.SameObject m') (h' : m'.SameObject m'') : m.SameObject m'' where
  name := h'.name.trans h.name
  generateName := h'.generateName.trans h.generateName
  namespaceName := h'.namespaceName.trans h.namespaceName
  uid := h'.uid.trans h.uid
  creationTimestamp := h'.creationTimestamp.trans h.creationTimestamp

theorem SameObject.anyName (h : m.SameObject m') : m'.anyName = m.anyName := by
  unfold Metadata.anyName
  rw [h.name, h.generateName]

end Kube.Metadata

namespace Bridge

variable {b : Bridge} {m : Kube.Metadata}

theorem address_amended (h : b.metadata.SameObject m) :
    ({ b with metadata := m } : Bridge).address = b.address := by
  unfold address name
  rw [h.anyName, h.namespaceName]

theorem address_eq {a b : Bridge} (h : a.metadata.SameObject b.metadata) :
    b.address = a.address := by
  unfold address name
  rw [h.anyName, h.namespaceName]

theorem sameObject_congr {a b c d : Bridge} (h : a.metadata.SameObject b.metadata)
    (h' : c.metadata.SameObject d.metadata) : b.sameObject d = a.sameObject c := by
  unfold sameObject name
  rw [h.uid, h.namespaceName, h.anyName, h'.uid, h'.namespaceName, h'.anyName]

end Bridge

/-- A uid is that of one bridge. -/
def World.UniqueIds (w : World) : Prop :=
  ∀ a a' b c u, w.store a = some b → w.store a' = some c → b.metadata.uid = some u →
    c.metadata.uid = some u → a = a'

namespace Scene

variable {ctx : BridgeContext}

/-- Bridges are stored under their own names, and every pass knows the status it builds on. -/
structure Sound (s : Scene (.table ctx)) : Prop where
  addressed : ∀ {a b}, s.world.store a = some b → b.address = a
  uids : s.world.UniqueIds
  kept : ∀ {a b}, s.world.store a = some b → b.statusOrInitial.Kept
  snapshot : ∀ {a x φ}, s.passes a = some (x, φ) → x.address = a
  same : ∀ {a x φ b}, s.passes a = some (x, φ) → s.world.store a = some b →
    x.metadata.SameObject b.metadata
  phase : ∀ {a x φ b}, s.passes a = some (x, φ) → s.world.store a = some b →
    φ.phase.Sound (ofBridge ctx x) b.statusOrInitial

end Scene

/-- Nothing has happened to the bridges of a world yet. -/
structure World.Initial (w : World) : Prop where
  addressed : ∀ {a b}, w.store a = some b → b.address = a
  uids : w.UniqueIds
  status : ∀ {a b}, w.store a = some b → b.status = none

variable {ctx : BridgeContext}

/-- What an event does to the bridge at an address. -/
inductive Turn (s : Scene (.table ctx)) (e : Event) (a : Address) :
    Option Bridge → Option Bridge → Prop
  | keep (b : Option Bridge) : Turn s e a b b
  | create (b : Bridge) : e = .created b → b.address = a → s.world.Fresh b → b.status = none →
    s.passes a = none → Turn s e a none (some b)
  | edit (b : Bridge) (spec : BridgeSpec) : e = .edited a spec →
    Turn s e a (some b) (some { b with spec })
  | amend (b : Bridge) (m : Kube.Metadata) : b.metadata.SameObject m →
    Turn s e a (some b) (some { b with metadata := m })
  | vanish (b : Bridge) : Turn s e a (some b) none
  | advance (b x : Bridge) (φ : Moment) (st : BridgeStatus) (r : Except Error Unit) :
    s.passes a = some (x, φ) →
    e = .answered a (.patchStatus a.namespaceName a.name st) r →
    (ofBridge ctx x).Advance b.statusOrInitial φ.phase st →
    Turn s e a (some b) (some { b with status := some st })

/-- What an event does to the pass at an address. -/
inductive Course (s : Scene (.table ctx)) (e : Event) (a : Address) (w : World) :
    Option (Bridge × Moment) → Option (Bridge × Moment) → Prop
  | keep (p : Option (Bridge × Moment)) : (∀ c r, e ≠ .answered a c r) → Course s e a w p p
  | take (b : Bridge) : e = .began a → s.world.store a = some b → w = s.world →
    Course s e a w none (some (b, ⟨(ofBridge ctx b).entry, none⟩))
  | answer (x : Bridge) (φ φ' : Moment) (c : BridgeCall) (r : Answer c) : e = .answered a c r →
    BridgePass.Does (ofBridge ctx x) φ c r φ' → s.world.Serves x c r w →
    Course s e a w (some (x, φ)) (some (x, φ'))
  | leave (p : Option (Bridge × Moment)) : Course s e a w p none

namespace World

variable {w w' : World} {a : Address} {f : Bridge → Option Bridge}

theorem modify_self : (w.modify a f).store a = (w.store a).bind f := by simp [modify]

theorem modify_eq_some {a' : Address} {b' : Bridge} (h : (w.modify a f).store a' = some b') :
    (a' = a ∧ ∃ b, w.store a = some b ∧ f b = some b') ∨ (a' ≠ a ∧ w.store a' = some b') := by
  by_cases ha : a' = a
  · subst ha
    rw [modify_self, Option.bind_eq_some_iff] at h
    exact .inl ⟨rfl, h⟩
  · simp only [modify, Function.update_of_ne ha] at h
    exact .inr ⟨ha, h⟩

theorem modify_of_ne {a' : Address} (h : a' ≠ a) : (w.modify a f).store a' = w.store a' := by
  simp [modify, h]

/-- The only bridge that a call can change is the one it names. -/
theorem Serves.store_eq {x : Bridge} {c : BridgeCall} {r : Answer c} (h : w.Serves x c r w')
    (hp : ∀ ns name st, c ≠ .patchStatus ns name st) (ha : ∀ ns name, c ≠ .addFinalizer ns name)
    (hr : ∀ ns name, c ≠ .removeFinalizer ns name) : w'.store = w.store := by
  cases c with
  | patchStatus ns name s => exact absurd rfl (hp ns name s)
  | addFinalizer ns name => exact absurd rfl (ha ns name)
  | removeFinalizer ns name => exact absurd rfl (hr ns name)
  | now => exact congrArg World.store h
  | sleep d => exact congrArg World.store h
  | publish n => exact congrArg World.store h
  | listBridges => exact congrArg World.store h
  | validate p request peers => exact h.1
  | install p => exact h.1
  | ready p limit =>
    obtain ⟨v, hv, -⟩ := h
    exact hv.1
  | uninstall p => exact h.1

end World

section

variable {s s' : Scene (.table ctx)} {e : Event}

theorem Turn.of_modify {a a' : Address} {f : Bridge → Option Bridge}
    (h : ∀ b, s.world.store a = some b → Turn s e a (some b) (f b)) :
    Turn s e a' (s.world.store a') ((s.world.modify a f).store a') := by
  by_cases ha : a' = a
  · subst ha
    rw [World.modify_self]
    cases hb : s.world.store a' with
    | none => exact .keep none
    | some b => exact h b hb
  · rw [World.modify_of_ne ha]
    exact .keep _

/-- A call that may have come about or not. -/
theorem Turn.of_settles {α : Type} {a a' : Address} {f : Bridge → Option Bridge} {w : World}
    {r : Except Error α} (hw : Settles (s.world.modify a f) s.world r w)
    (h : ∀ b, s.world.store a = some b → Turn s e a (some b) (f b)) :
    Turn s e a' (s.world.store a') (w.store a') := by
  rcases hw with rfl | ⟨-, rfl⟩
  · exact .of_modify h
  · exact .keep _

theorem Scene.Sound.pass_address (hs : s.Sound) {a : Address} {x : Bridge} {φ : Moment}
    (hp : s.passes a = some (x, φ)) :
    (⟨(ofBridge ctx x).namespaceName, (ofBridge ctx x).bridge.name⟩ : Address) = a := by
  rw [← hs.snapshot hp]
  rfl

/-- Bridges that are stored at different addresses are not one object. -/
theorem Scene.Sound.sameObject_of_ne (hs : s.Sound) {a a' : Address} {b c : Bridge}
    (hb : s.world.store a = some b) (hc : s.world.store a' = some c) (hne : a ≠ a') :
    b.sameObject c = false := by
  have hname : ¬ (b.name = c.name ∧ b.metadata.namespaceName = c.metadata.namespaceName) := by
    rintro ⟨hn, hns⟩
    refine hne ?_
    rw [← hs.addressed hb, ← hs.addressed hc, Bridge.address, Bridge.address, hn, hns]
  unfold Bridge.sameObject
  cases hub : b.metadata.uid <;> cases huc : c.metadata.uid <;> simp only
  case some.some u v =>
    refine decide_eq_false fun huv => hne ?_
    subst huv
    exact hs.uids a a' b c u hb hc hub huc
  all_goals simpa using hname

/-- Every event does one of these things to every bridge. -/
theorem Step.turn (h : Step (.table ctx) s e s') (hs : s.Sound) (a : Address) :
    Turn s e a (s.world.store a) (s'.world.store a) := by
  cases h with
  | @create b hf hp hst =>
    by_cases ha : a = b.address
    · subst ha
      simp only [hf.vacant, Function.update_self]
      exact .create b rfl rfl hf hst hp
    · simp only [Function.update_of_ne ha]
      exact .keep _
  | @edit a' spec => exact .of_modify fun b _ => .edit b spec rfl
  | @amend a' b m hb hm =>
    refine .of_modify fun b' hb' => .amend b' m ?_
    rw [hb] at hb'
    cases hb'
    exact hm
  | vanish => exact .of_modify fun b _ => .vanish b
  | take => exact .keep _
  | leave => exact .keep _
  | @answer a' x φ φ' c r w hp hgo hserve =>
    have haddr := hs.pass_address hp
    cases c with
    | patchStatus ns name st =>
      obtain ⟨rfl, rfl, hpending, -⟩ := BridgePass.Does.patchStatus hgo
      refine Turn.of_settles hserve fun b hb => ?_
      rw [haddr] at hb ⊢
      refine .advance b x φ st r hp ?_ ((hs.phase hp hb).advance hpending)
      rw [← haddr]
    | addFinalizer ns name =>
      obtain ⟨rfl, rfl⟩ := BridgePass.Does.addFinalizer hgo
      exact Turn.of_settles hserve fun b _ => .amend b _ ⟨rfl, rfl, rfl, rfl, rfl⟩
    | removeFinalizer ns name =>
      obtain ⟨rfl, rfl, -⟩ := BridgePass.Does.removeFinalizer hgo
      refine Turn.of_settles hserve fun b _ => ?_
      show Turn _ _ _ _ (if (b.metadata.removeFinalizer Bridge.finalizer).isReleased then _ else _)
      split
      · exact .vanish b
      · exact .amend b _ ⟨rfl, rfl, rfl, rfl, rfl⟩
    | _ =>
      rw [hserve.store_eq (fun _ _ _ => nofun) (fun _ _ => nofun) fun _ _ => nofun]
      exact .keep _

/-- Every event does one of these things to every pass. -/
theorem Step.course (h : Step (.table ctx) s e s') (a : Address) :
    Course s e a s'.world (s.passes a) (s'.passes a) := by
  cases h with
  | create => exact .keep _ fun _ _ => nofun
  | edit => exact .keep _ fun _ _ => nofun
  | amend => exact .keep _ fun _ _ => nofun
  | vanish => exact .keep _ fun _ _ => nofun
  | @take a' b hb hp =>
    by_cases ha : a = a'
    · subst ha
      simp only [hp, Function.update_self]
      exact .take b rfl hb rfl
    · simp only [Function.update_of_ne ha]
      exact .keep _ fun _ _ => nofun
  | @answer a' x φ φ' c r w hp hgo hserve =>
    by_cases ha : a = a'
    · subst ha
      simp only [hp, Function.update_self]
      exact .answer x φ φ' c r rfl hgo hserve
    · simp only [Function.update_of_ne ha]
      refine .keep _ fun c r he => ?_
      cases he
      exact ha rfl
  | @leave a' =>
    by_cases ha : a = a'
    · subst ha
      simp only [Function.update_self]
      exact .leave _
    · simp only [Function.update_of_ne ha]
      exact .keep _ fun _ _ => nofun

/-- A bridge that is stored is new, or it has the status it had, or one that a pass has advanced
to. -/
theorem Step.status (h : Step (.table ctx) s e s') (hs : s.Sound) {a : Address} {b' : Bridge}
    (hb' : s'.world.store a = some b') :
    (s.world.store a = none ∧ b'.status = none) ∨ ∃ b, s.world.store a = some b ∧
      (b'.status = b.status ∨ ∃ x φ st ns name r, b'.status = some st ∧
        s.passes a = some (x, φ) ∧ e = .answered a (.patchStatus ns name st) r ∧
        (ofBridge ctx x).Advance b.statusOrInitial φ.phase st) := by
  have hturn := h.turn hs a
  rw [hb'] at hturn
  generalize s.world.store a = before at hturn
  cases hturn with
  | keep => exact .inr ⟨b', rfl, .inl rfl⟩
  | create b he ha hf hst hp => exact .inl ⟨rfl, hst⟩
  | edit b => exact .inr ⟨b, rfl, .inl rfl⟩
  | amend b => exact .inr ⟨b, rfl, .inl rfl⟩
  | advance b x φ st r hp he hadv =>
    exact .inr ⟨b, rfl, .inr ⟨x, φ, st, _, _, r, rfl, hp, he, hadv⟩⟩

/-- A pass that vets its request stood there before the event, or has been answered. -/
theorem Step.vetting (h : Step (.table ctx) s e s') {a : Address} {x : Bridge} {φ' : Moment}
    (hp : s'.passes a = some (x, φ')) (hφ' : φ'.phase.isVetting = true) :
    s.passes a = some (x, φ') ∨ ∃ φ c r, s.passes a = some (x, φ) ∧ e = .answered a c r ∧
      BridgePass.Does (ofBridge ctx x) φ c r φ' ∧ s.world.Serves x c r s'.world := by
  have hcourse := h.course a
  rw [hp] at hcourse
  generalize hbefore : s.passes a = before at hcourse
  cases hcourse with
  | keep => exact .inl rfl
  | take b he hb hw => simp at hφ'
  | answer x φ φ' c r he hdoes hserve => exact .inr ⟨φ, c, r, rfl, he, hdoes, hserve⟩

/-- A pass that checks its request against a list did so before the event, or has just got it. -/
theorem Step.checking (h : Step (.table ctx) s e s') {a : Address} {x : Bridge}
    {st : BridgeStatus} {q : BoundProvider} {peers : List Bridge} {t : Option Instant}
    (hp : s'.passes a = some (x, ⟨.checking st q peers, t⟩)) :
    (∃ t', s.passes a = some (x, ⟨.checking st q peers, t'⟩)) ∨
      ∃ φ, s.passes a = some (x, φ) ∧ e = .answered a .listBridges (.ok peers) ∧
        s'.world = s.world := by
  rcases h.vetting hp rfl with hbefore | ⟨⟨phase, t'⟩, c, r, hbefore, he, hdoes, hserve⟩
  · exact .inl ⟨t, hbefore⟩
  · rcases hdoes.checking rfl with hphase | ⟨-, hcall⟩
    · obtain rfl : phase = .checking st q peers := hphase
      exact .inl ⟨t', hbefore⟩
    · cases hcall
      exact .inr ⟨_, hbefore, he, hserve⟩

/-- A pass whose request is admitted found it admitted before the event, or it is admitted now,
when nothing has been found against it. -/
theorem Step.admitted (h : Step (.table ctx) s e s') {a : Address} {x : Bridge}
    {st : BridgeStatus} {q : BoundProvider} {t : Option Instant}
    (hp : s'.passes a = some (x, ⟨.admitted st q, t⟩)) :
    (∃ t', s.passes a = some (x, ⟨.admitted st q, t'⟩)) ∨
      ∃ peers t', s.passes a = some (x, ⟨.checking st q peers, t'⟩) ∧
        e = .answered a (.validate q x peers) (.ok ()) ∧
        s.world.Serves x (.validate q x peers) (.ok ()) s'.world := by
  rcases h.vetting hp rfl with hbefore | ⟨⟨phase, t'⟩, c, r, hbefore, he, hdoes, hserve⟩
  · exact .inl ⟨t, hbefore⟩
  · rcases hdoes.admitted rfl with hphase | ⟨peers, hphase, hcall⟩
    · obtain rfl : phase = .admitted st q := hphase
      exact .inl ⟨t', hbefore⟩
    · obtain rfl : phase = .checking st q peers := hphase
      cases hcall
      exact .inr ⟨peers, t', hbefore, he, hserve⟩

/-- A bridge is a new one or the one that was there. -/
theorem Turn.origin {a : Address} {b : Bridge} {before after : Option Bridge}
    (h : Turn s e a before after) (hb : after = some b) :
    (e = .created b ∧ s.world.Fresh b) ∨
      ∃ b', before = some b' ∧ b'.metadata.SameObject b.metadata := by
  cases h with
  | keep => exact .inr ⟨b, hb, .refl _⟩
  | create b' he ha hf hst hp =>
    cases hb
    exact .inl ⟨he, hf⟩
  | edit b' spec he =>
    cases hb
    exact .inr ⟨b', rfl, .refl _⟩
  | amend b' m hm =>
    cases hb
    exact .inr ⟨b', rfl, hm⟩
  | vanish => cases hb
  | advance b' x φ st r hp he hadv =>
    cases hb
    exact .inr ⟨b', rfl, .refl _⟩

/-- Nothing that is done to a bridge takes it to another address, or makes it another object. -/
theorem Turn.addressed {a : Address} {b : Bridge} {before after : Option Bridge}
    (h : Turn s e a before after) (hbefore : ∀ b, before = some b → b.address = a)
    (hb : after = some b) : b.address = a := by
  cases h with
  | keep => exact hbefore b hb
  | create b' he ha hf hst hp =>
    cases hb
    exact ha
  | edit b' spec he =>
    cases hb
    exact hbefore b' rfl
  | amend b' m hm =>
    cases hb
    exact (Bridge.address_amended hm).trans (hbefore b' rfl)
  | vanish => cases hb
  | advance b' x φ st r hp he hadv =>
    cases hb
    exact hbefore b' rfl

theorem Turn.same {a : Address} {x b : Bridge} {before after : Option Bridge}
    (h : Turn s e a before after) (hp : s.passes a ≠ none)
    (hbefore : ∀ b, before = some b → x.metadata.SameObject b.metadata)
    (hb : after = some b) : x.metadata.SameObject b.metadata := by
  cases h with
  | keep => exact hbefore b hb
  | create b' he ha hf hst hnone => exact absurd hnone hp
  | edit b' spec he =>
    cases hb
    exact hbefore b' rfl
  | amend b' m hm =>
    cases hb
    exact (hbefore b' rfl).trans hm
  | vanish => cases hb
  | advance b' x φ st r hp he hadv =>
    cases hb
    exact hbefore b' rfl

/-- The status in the store may change outside of the passes only by being there no more. -/
theorem Scene.Sound.phase_modify (hs : s.Sound) {a a' : Address} {f : Bridge → Option Bridge}
    {x b : Bridge} {φ : Moment} (hp : s.passes a = some (x, φ))
    (hf : ∀ b b', f b = some b' → b'.status = b.status)
    (hb : (s.world.modify a' f).store a = some b) :
    φ.phase.Sound (ofBridge ctx x) b.statusOrInitial := by
  rcases World.modify_eq_some hb with ⟨rfl, b', hb', hfb⟩ | ⟨-, hb'⟩
  · rw [Bridge.statusOrInitial_congr (hf b' b hfb)]
    exact hs.phase hp hb'
  · exact hs.phase hp hb'

theorem World.released_status {b b' : Bridge} (h : World.released b = some b') :
    b'.status = b.status := by
  change (if (b.metadata.removeFinalizer Bridge.finalizer).isReleased then none else _) = _ at h
  split at h
  · cases h
  · cases h
    rfl

/-- A bridge has the status it had, or the one that is being stored. -/
theorem World.Serves.status {w w' : World} {x b' : Bridge} {c : BridgeCall} {r : Answer c}
    {a : Address} (h : w.Serves x c r w') (hb' : w'.store a = some b') :
    ∃ b, w.store a = some b ∧ (b'.status = b.status ∨
      ∃ ns name st, c = .patchStatus ns name st ∧ b'.status = some st) := by
  have hmodify : ∀ {α : Type} {a' : Address} {f : Bridge → Option Bridge} {r : Except Error α},
      Settles (w.modify a' f) w r w' → ∃ b, w.store a = some b ∧ (b' = b ∨ f b = some b') := by
    rintro α a' f r (rfl | ⟨-, rfl⟩)
    · rcases World.modify_eq_some hb' with ⟨rfl, b, hb, hf⟩ | ⟨-, hb⟩
      · exact ⟨b, hb, .inr hf⟩
      · exact ⟨b', hb, .inl rfl⟩
    · exact ⟨b', hb', .inl rfl⟩
  cases c with
  | patchStatus ns name st =>
    obtain ⟨b, hb, rfl | hf⟩ := hmodify h
    · exact ⟨b', hb, .inl rfl⟩
    · cases hf
      exact ⟨b, hb, .inr ⟨ns, name, st, rfl, rfl⟩⟩
  | addFinalizer ns name =>
    obtain ⟨b, hb, rfl | hf⟩ := hmodify h
    · exact ⟨b', hb, .inl rfl⟩
    · cases hf
      exact ⟨b, hb, .inl rfl⟩
  | removeFinalizer ns name =>
    obtain ⟨b, hb, rfl | hf⟩ := hmodify h
    · exact ⟨b', hb, .inl rfl⟩
    · exact ⟨b, hb, .inl (World.released_status hf)⟩
  | _ =>
    rw [h.store_eq (by simp) (by simp) (by simp)] at hb'
    exact ⟨b', hb', .inl rfl⟩

/-- A pass that has been answered knows the status it builds on, which it may have changed. -/
theorem Scene.Sound.answered (hs : s.Sound) {a : Address} {x b : Bridge} {φ φ' : Moment}
    {c : BridgeCall} {r : Answer c} {w : World} (hp : s.passes a = some (x, φ))
    (hdoes : BridgePass.Does (ofBridge ctx x) φ c r φ') (hserve : s.world.Serves x c r w)
    (hb : w.store a = some b) : φ'.phase.Sound (ofBridge ctx x) b.statusOrInitial := by
  have haddr := hs.pass_address hp
  have hquiet : (∀ ns name st, c ≠ .patchStatus ns name st) → ∀ b', s.world.store a = some b' →
      b.status = b'.status → φ'.phase.Sound (ofBridge ctx x) b.statusOrInitial := by
    intro hc b' hb' hst
    rw [Bridge.statusOrInitial_congr hst]
    exact hdoes.sound hc (hs.phase hp hb') (hs.kept hb')
  cases c with
  | patchStatus ns name st =>
    obtain ⟨rfl, rfl, hpending, hend⟩ := hdoes.patchStatus
    rcases hend with ⟨rfl, hφ'⟩ | ⟨-, hφ'⟩
    · rcases hserve with rfl | ⟨⟨e, he⟩, -⟩
      · rw [haddr, World.modify_self, Option.bind_eq_some_iff] at hb
        obtain ⟨b', hb', hpatched⟩ := hb
        cases hpatched
        rw [hφ']
        exact ((hs.phase hp hb').advance hpending).stored_sound
      · cases he
    · rw [hφ']
      exact BridgePass.Phase.unstored_sound
  | addFinalizer ns name =>
    obtain ⟨rfl, rfl⟩ := hdoes.addFinalizer
    rcases hserve with rfl | ⟨-, rfl⟩
    · rw [haddr, World.modify_self, Option.bind_eq_some_iff] at hb
      obtain ⟨b', hb', hclaimed⟩ := hb
      cases hclaimed
      exact hquiet (fun _ _ _ => nofun) b' hb' rfl
    · exact hquiet (fun _ _ _ => nofun) b hb rfl
  | removeFinalizer ns name =>
    obtain ⟨rfl, rfl, -⟩ := hdoes.removeFinalizer
    rcases hserve with rfl | ⟨-, rfl⟩
    · rw [haddr, World.modify_self, Option.bind_eq_some_iff] at hb
      obtain ⟨b', hb', hreleased⟩ := hb
      exact hquiet (fun _ _ _ => nofun) b' hb' (World.released_status hreleased)
    · exact hquiet (fun _ _ _ => nofun) b hb rfl
  | _ =>
    rw [hserve.store_eq (fun _ _ _ => nofun) (fun _ _ => nofun) fun _ _ => nofun] at hb
    exact hquiet (fun _ _ _ => nofun) b hb rfl

/-- A call leaves the bridges at other addresses alone. -/
theorem Scene.Sound.store_of_ne (hs : s.Sound) {a a' : Address} {x : Bridge} {φ φ' : Moment}
    {c : BridgeCall} {r : Answer c} {w : World} (hp : s.passes a' = some (x, φ))
    (hdoes : BridgePass.Does (ofBridge ctx x) φ c r φ') (hserve : s.world.Serves x c r w)
    (ha : a ≠ a') : w.store a = s.world.store a := by
  have haddr := hs.pass_address hp
  rw [← haddr] at ha
  cases c with
  | patchStatus ns name st =>
    obtain ⟨rfl, rfl, -⟩ := hdoes.patchStatus
    rcases hserve with rfl | ⟨-, rfl⟩
    · exact World.modify_of_ne ha
    · rfl
  | addFinalizer ns name =>
    obtain ⟨rfl, rfl⟩ := hdoes.addFinalizer
    rcases hserve with rfl | ⟨-, rfl⟩
    · exact World.modify_of_ne ha
    · rfl
  | removeFinalizer ns name =>
    obtain ⟨rfl, rfl, -⟩ := hdoes.removeFinalizer
    rcases hserve with rfl | ⟨-, rfl⟩
    · exact World.modify_of_ne ha
    · rfl
  | _ => rw [hserve.store_eq (fun _ _ _ => nofun) (fun _ _ => nofun) fun _ _ => nofun]

/-- After an event, too, every pass knows the status it builds on. -/
theorem Step.phase_sound (h : Step (.table ctx) s e s') (hs : s.Sound) {a : Address} {x b : Bridge}
    {φ : Moment} (hp : s'.passes a = some (x, φ)) (hb : s'.world.store a = some b) :
    φ.phase.Sound (ofBridge ctx x) b.statusOrInitial := by
  cases h with
  | @create b' hf hnone hst =>
    have ha : a ≠ b'.address := by
      rintro rfl
      rw [hnone] at hp
      cases hp
    simp only [Function.update_of_ne ha] at hb
    exact hs.phase hp hb
  | edit => exact hs.phase_modify hp (fun b b' hf => by cases hf; rfl) hb
  | amend => exact hs.phase_modify hp (fun b b' hf => by cases hf; rfl) hb
  | vanish => exact hs.phase_modify hp (fun b b' hf => by cases hf) hb
  | @take a' b' hb' hnone =>
    by_cases ha : a = a'
    · subst ha
      simp only [Function.update_self] at hp
      cases hp
      rw [hb'] at hb
      cases hb
      exact BridgePass.entry_sound (hs.kept hb')
    · simp only [Function.update_of_ne ha] at hp
      exact hs.phase hp hb
  | @answer a' x' ψ ψ' c r w hp' hgo hserve =>
    by_cases ha : a = a'
    · subst ha
      simp only [Function.update_self] at hp
      cases hp
      exact hs.answered hp' hgo hserve hb
    · simp only [Function.update_of_ne ha] at hp
      rw [hs.store_of_ne hp' hgo hserve ha] at hb
      exact hs.phase hp hb
  | @leave a' =>
    by_cases ha : a = a'
    · subst ha
      simp at hp
    · simp only [Function.update_of_ne ha] at hp
      exact hs.phase hp hb

theorem Step.kept (h : Step (.table ctx) s e s') (hs : s.Sound) {a : Address} {b' : Bridge}
    (hb' : s'.world.store a = some b') : b'.statusOrInitial.Kept := by
  rcases h.status hs hb' with ⟨-, hst⟩ | ⟨b, hb, hst | ⟨x, φ, st, ns, name, r, hst, -, -, hadv⟩⟩
  · rw [Bridge.statusOrInitial, hst]
    exact BridgeStatus.kept_initial
  · rw [Bridge.statusOrInitial_congr hst]
    exact hs.kept hb
  · rw [Bridge.statusOrInitial_of_some hst]
    exact hadv.kept (hs.kept hb)

theorem Step.addressed (h : Step (.table ctx) s e s') (hs : s.Sound) {a : Address} {b : Bridge}
    (hb : s'.world.store a = some b) : b.address = a :=
  (h.turn hs a).addressed (fun _ => hs.addressed) hb

theorem Step.uids (h : Step (.table ctx) s e s') (hs : s.Sound) : s'.world.UniqueIds := by
  intro a a' b c u hb hc hub huc
  rcases (h.turn hs a).origin hb with ⟨heb, hfb⟩ | ⟨b', hb', hsame⟩ <;>
    rcases (h.turn hs a').origin hc with ⟨hec, hfc⟩ | ⟨c', hc', hsame'⟩
  · rw [heb] at hec
    cases hec
    rw [← h.addressed hs hb, ← h.addressed hs hc]
  · rw [hsame'.uid] at huc
    exact absurd hub (hfb.uid a' c' u hc' huc)
  · rw [hsame.uid] at hub
    exact absurd huc (hfc.uid a b' u hb' hub)
  · rw [hsame.uid] at hub
    rw [hsame'.uid] at huc
    exact hs.uids a a' b' c' u hb' hc' hub huc

theorem Step.sound (h : Step (.table ctx) s e s') (hs : s.Sound) : s'.Sound where
  addressed := h.addressed hs
  uids := h.uids hs
  kept := h.kept hs
  snapshot := by
    intro a x φ hp
    have hc := h.course a
    rw [hp] at hc
    generalize hbefore : s.passes a = before at hc
    cases hc with
    | keep => exact hs.snapshot hbefore
    | take b he hb hw => exact hs.addressed hb
    | answer x φ φ' c r he hdoes hserve => exact hs.snapshot hbefore
  same := by
    intro a x φ b hp hb
    have hc := h.course a
    have ht := h.turn hs a
    rw [hp] at hc
    generalize hbefore : s.passes a = before at hc
    cases hc with
    | keep => exact ht.same (by rw [hbefore]; nofun) (fun _ => hs.same hbefore) hb
    | take b' he hb' hw =>
      rw [hw, hb'] at hb
      cases hb
      exact .refl _
    | answer x φ φ' c r he hdoes hserve =>
      exact ht.same (by rw [hbefore]; nofun) (fun _ => hs.same hbefore) hb
  phase := h.phase_sound hs

theorem World.Initial.sound {w : World} (h : w.Initial) : (Scene.quiet (.table ctx) w).Sound where
  addressed := h.addressed
  uids := h.uids
  kept hb := by
    simp only [Bridge.statusOrInitial, h.status hb]
    exact BridgeStatus.kept_initial
  snapshot hp := nomatch hp
  same hp := nomatch hp
  phase hp := nomatch hp

theorem Run.sound {rule : Rule} {start : World} {trail : List Move}
    (h : Run (.table ctx) rule start trail s) (hstart : start.Initial) : s.Sound := by
  induction h with
  | start => exact hstart.sound
  | move hrun hrule hstep ih => exact hstep.sound ih

end

end BridgeOperator
