import BridgeOperator.Proofs.World.Ledger

/-!
Runs made of whole passes. An execution of a pass over a stored bridge, with every call answered as
the world and the rule allow, extends a run without passes in flight to another one
(`Run.pass`). The executions themselves are put together from the parts that a pass is made of.
-/

namespace BridgeOperator

open BridgePass (ofBridge entering)

/-- The pass over `b` is the only one in flight. -/
def alone (b : Bridge) : Address → Option Bridge := Function.update (fun _ => none) b.address b

/-- The rule lets a single pass over `b` run its course; what is listed is another matter. -/
structure Rule.Permits (rule : Rule) (b : Bridge) : Prop where
  began : ∀ w, rule w (fun _ => none) (.began b.address)
  answered : ∀ w c r, c ≠ .listBridges → rule w (alone b) (.answered b.address c r)
  ended : ∀ w, rule w (alone b) (.ended b.address)

/-- How the only pass is answered, if it stores none but allowed statuses. -/
structure World.Grants (rule : Rule) (allowed : BridgeStatus → Prop) (b : Bridge) (c : BridgeCall)
    (w : World) (r : Answer c) (w' : World) : Prop where
  serves : w.Serves b c r w'
  rule : rule w (alone b) (.answered b.address c r)
  allowed : ∀ ns name st, c = .patchStatus ns name st → allowed st

/-- A move of the only pass, which may leave the world as it is. -/
def Move.OfPass (rule : Rule) (allowed : BridgeStatus → Prop) (b : Bridge) (m : Move) : Prop :=
  m.after = m.before ∨ m.passes = alone b ∧
    ∃ c r, m.event = .answered b.address c r ∧ m.before.Grants rule allowed b c r m.after

namespace Scene

variable {m : Machine} {w w' : World} {b : Bridge} {p p' : m.State}

/-- The scene of the only pass. -/
def single (m : Machine) (w : World) (b : Bridge) (p : m.State) : Scene m :=
  ⟨w, Function.update (fun _ => none) b.address (some (b, p))⟩

theorem bridges_single : (single m w b p).bridges = alone b :=
  bridges_update (s := quiet m w) (w := w) (a := b.address) (p := some (b, p))

theorem take_single (hb : w.store b.address = some b) :
    Step m (quiet m w) (.began b.address) (single m w b (m.opens b)) := .take hb rfl

theorem answer_single {c : BridgeCall} {r : Answer c} (hgo : m.goes b p c r p')
    (hserve : w.Serves b c r w') :
    Step m (single m w b p) (.answered b.address c r) (single m w' b p') := by
  have hnext : (⟨w', Function.update (single m w b p).passes b.address (some (b, p'))⟩ : Scene m) =
      single m w' b p' := by simp [single]
  have hp : (single m w b p).passes b.address = some (b, p) := by simp [single]
  rw [← hnext]
  exact .answer hp hgo hserve

theorem leave_single : Step m (single m w b p) (.ended b.address) (quiet m w) := by
  have hnext : { single m w b p with
      passes := Function.update (single m w b p).passes b.address none } = quiet m w := by
    simp [single, quiet]
  rw [← hnext]
  exact .leave

end Scene

section

variable {ctx : BridgeContext} {rule : Rule} {allowed : BridgeStatus → Prop} {b : Bridge}
  {start w w' : World} {trail : List Move}

theorem Run.exec {p : Prog BridgeCall (Except Error Action)} {v : Except Error Action}
    (h : p.Exec (World.Grants rule allowed b) w v w')
    (hrun : Run (.programs ctx) rule start trail (.single _ w b p)) :
    ∃ later, Run (.programs ctx) rule start (later ++ trail) (.single _ w' b (.done v)) ∧
      ∀ m ∈ later, m.OfPass rule allowed b := by
  induction h generalizing trail with
  | done => exact ⟨[], hrun, by simp⟩
  | @call c next w w₁ w₂ r v hgrant _ ih =>
    have hstep : Step (.programs ctx) (.single _ w b (.call c next)) (.answered b.address c r)
        (.single _ w₁ b (next r)) := Scene.answer_single (.call c next r) hgrant.serves
    have hrule : rule w (Scene.single (.programs ctx) w b (.call c next)).bridges
        (.answered b.address c r) := by
      rw [Scene.bridges_single]
      exact hgrant.rule
    have hmove := Run.move hrun hrule hstep
    rw [Scene.bridges_single] at hmove
    obtain ⟨later, hlater, hall⟩ := ih hmove
    refine ⟨later ++ [⟨w, alone b, .answered b.address c r, w₁⟩], ?_, ?_⟩
    · rw [List.append_assoc]
      exact hlater
    · intro m hm
      rcases List.mem_append.mp hm with hm | hm
      · exact hall m hm
      · obtain rfl := List.mem_singleton.mp hm
        exact .inr ⟨rfl, c, r, rfl, hgrant⟩

/-- The only pass goes a part of its way. -/
theorem Run.steps {p p' : Prog BridgeCall (Except Error Action)}
    (h : p.Steps (fun c w r w' => w.Serves b c r w' ∧
      rule w (alone b) (.answered b.address c r)) w p' w')
    (hrun : Run (.programs ctx) rule start trail (.single _ w b p)) :
    ∃ later, Run (.programs ctx) rule start (later ++ trail) (.single _ w' b p') := by
  induction h generalizing trail with
  | refl => exact ⟨[], hrun⟩
  | @call c next w w₁ w₂ r p hserve _ ih =>
    have hrule : rule w (Scene.single (.programs ctx) w b (.call c next)).bridges
        (.answered b.address c r) := by
      rw [Scene.bridges_single]
      exact hserve.2
    obtain ⟨later, hlater⟩ :=
      ih (hrun.move hrule (Scene.answer_single (.call c next r) hserve.1))
    exact ⟨later ++ [_], by rw [List.append_assoc]; exact hlater⟩

/-- A whole pass leads from one scene without passes to another. -/
theorem Run.pass {v : Except Error Action}
    (hrun : Run (.programs ctx) rule start trail (.quiet _ w)) (hperm : rule.Permits b)
    (hb : w.store b.address = some b)
    (h : (b.reconcile ctx).run.Exec (World.Grants rule allowed b) w v w') :
    ∃ later, Run (.programs ctx) rule start (later ++ trail) (.quiet _ w') ∧
      ∀ m ∈ later, m.OfPass rule allowed b := by
  have hbegan := Run.move hrun (hperm.began w) (Scene.take_single hb)
  obtain ⟨later, hlater, hall⟩ := Run.exec h hbegan
  have hrule : rule w' (Scene.single (.programs ctx) w' b (.done v)).bridges
      (.ended b.address) := by
    rw [Scene.bridges_single]
    exact hperm.ended w'
  have hended := Run.move hlater hrule Scene.leave_single
  rw [Scene.bridges_single] at hended
  refine ⟨⟨w', alone b, .ended b.address, w'⟩ :: (later ++
    [⟨w, fun _ => none, .began b.address, w⟩]), ?_, ?_⟩
  · rw [List.cons_append, List.append_assoc]
    exact hended
  · intro m hm
    rcases List.mem_cons.mp hm with rfl | hm
    · exact .inl rfl
    · rcases List.mem_append.mp hm with hm | hm
      · exact hall m hm
      · obtain rfl := List.mem_singleton.mp hm
        exact .inl rfl

end

/-! ## The parts of a pass -/

/-- The world with a status stored for a bridge. -/
def World.having (w : World) (b : Bridge) (st : BridgeStatus) : World :=
  { w with store := Function.update w.store b.address (some { b with status := some st }) }

/-- The bridge is to be passed over as it is: it is claimed and not deleted. -/
structure Bridge.Claimed (b : Bridge) : Prop where
  namespaced : ∃ ns, b.metadata.namespaceName = some ns
  live : b.metadata.deletionTimestamp = none
  finalizer : b.metadata.hasFinalizer Bridge.finalizer = true

namespace World

variable {w : World} {b : Bridge} {st₀ : Option BridgeStatus} {st : BridgeStatus}

theorem modify_patched (h : w.store b.address = some { b with status := st₀ }) :
    w.modify b.address (patched st) = w.having b st := by
  unfold modify having
  rw [h]
  rfl

@[simp] theorem having_store :
    (w.having b st).store b.address = some { b with status := some st } :=
  Function.update_self ..

theorem having_having {st' : BridgeStatus} {e : Estate} :
    (⟨(w.having b st).store, e⟩ : World).having b st' = ⟨(w.having b st').store, e⟩ := by
  simp [having]

end World

section

variable {ctx : BridgeContext} {rule : Rule} {allowed : BridgeStatus → Prop} {b : Bridge}
  {w w' : World} {q : BoundProvider} {s : BridgeStatus}

theorem World.grants_of {c : BridgeCall} {r : Answer c} (hperm : rule.Permits b)
    (hserve : w.Serves b c r w') (hl : c ≠ .listBridges)
    (hp : ∀ ns name st, c ≠ .patchStatus ns name st) : w.Grants rule allowed b c r w' where
  serves := hserve
  rule := hperm.answered w c r hl
  allowed ns name st hc := absurd hc (hp ns name st)

variable (hperm : rule.Permits b)

include hperm

theorem exec_now (t : Instant) :
    BridgeWork.now.run.Exec (World.Grants rule allowed b) w (.ok t) w :=
  Attempt.exec_always.mpr ⟨t, Prog.exec_perform.mpr
    (World.grants_of hperm rfl nofun fun _ _ _ => nofun), rfl⟩

theorem exec_publish (n : Kube.Notice) :
    (BridgeWork.publish n).run.Exec (World.Grants rule allowed b) w (.ok ()) w :=
  Attempt.exec_always.mpr ⟨(), Prog.exec_perform.mpr
    (World.grants_of hperm rfl nofun fun _ _ _ => nofun), rfl⟩

theorem exec_record {st₀ : Option BridgeStatus} {st : BridgeStatus}
    (h : w.store b.address = some { b with status := st₀ }) (hst : allowed st) :
    ((ofBridge ctx b).record st).run.Exec (World.Grants rule allowed b) w (.ok ())
      (w.having b st) := by
  refine Prog.exec_perform.mpr ⟨?_, hperm.answered _ _ _ nofun, ?_⟩
  · exact .inl (World.modify_patched h).symm
  · intro ns name st' hc
    cases hc
    exact hst

theorem exec_enter {st₀ : Option BridgeStatus} {state : BridgeState} {message : Option String}
    (t : Instant) (h : w.store b.address = some { b with status := st₀ })
    (hst : allowed (entering s state message t)) :
    ((ofBridge ctx b).enter s state message).run.Exec (World.Grants rule allowed b) w
      (.ok (entering s state message t)) (w.having b (entering s state message t)) := by
  refine Attempt.exec_ok (exec_now hperm t) ?_
  exact Attempt.exec_ok (exec_record hperm h hst) (Attempt.exec_pure.mpr ⟨rfl, rfl⟩)

theorem exec_fail {st₀ : Option BridgeStatus} {reason : String} {e : Error}
    (t : Instant) (h : w.store b.address = some { b with status := st₀ })
    (hst : allowed (entering s .error (some e.message) t)) :
    ((ofBridge ctx b).fail s reason e).run.Exec (World.Grants rule allowed b) w
      (.ok (.done .awaitChange)) (w.having b (entering s .error (some e.message) t)) := by
  refine Attempt.exec_ok (exec_enter hperm t h hst) ?_
  exact Attempt.exec_ok (exec_publish hperm _) (Attempt.exec_pure.mpr ⟨rfl, rfl⟩)

omit hperm in
theorem exec_list {peers : List Bridge}
    (hpeers : rule w (alone b) (.answered b.address .listBridges (.ok peers))) :
    BridgeWork.listBridges.run.Exec (World.Grants rule allowed b) w (.ok peers) w :=
  Prog.exec_perform.mpr ⟨rfl, hpeers, fun _ _ _ => nofun⟩

theorem exec_validate {request : Bridge} {peers : List Bridge} {r : Except Error Unit}
    (h : w.Employs b .look (q.provider.validate q.binding request peers) r w') :
    (BridgeWork.validate q request peers).outcome.run.Exec (World.Grants rule allowed b) w
      (.ok r) w' :=
  Attempt.exec_outcome.mpr ⟨r, Prog.exec_perform.mpr
    (World.grants_of hperm h nofun fun _ _ _ => nofun), rfl⟩

theorem exec_install {r : Except Error Unit}
    (h : w.Employs b .mount (q.provider.install q.binding) r w') :
    (BridgeWork.install q).outcome.run.Exec (World.Grants rule allowed b) w (.ok r) w' :=
  Attempt.exec_outcome.mpr ⟨r, Prog.exec_perform.mpr
    (World.grants_of hperm h nofun fun _ _ _ => nofun), rfl⟩

/-- A request against which nothing is found enters INSTALLING. -/
theorem exec_accept {st₀ : Option BridgeStatus} {peers : List Bridge} (t : Instant)
    (h : w.store b.address = some { b with status := st₀ }) (hq : b.provider ctx = .ok q)
    (hpeers : rule w (alone b) (.answered b.address .listBridges (.ok peers)))
    (hvalid : w.Employs b .look (q.provider.validate q.binding b peers) (.ok ()) w)
    (hst : allowed (entering ((ofBridge ctx b).withSpec s) .installing none t)) :
    ((ofBridge ctx b).requested s).run.Exec (World.Grants rule allowed b) w
      (.ok (.next (entering ((ofBridge ctx b).withSpec s) .installing none t)))
      (w.having b (entering ((ofBridge ctx b).withSpec s) .installing none t)) := by
  unfold BridgePass.requested
  rw [show (ofBridge ctx b).bridge.provider (ofBridge ctx b).context = .ok q from hq]
  refine Attempt.exec_ok (exec_list hpeers) ?_
  refine Attempt.exec_ok (exec_validate hperm hvalid) ?_
  refine Attempt.exec_ok (exec_publish hperm _) ?_
  refine Attempt.exec_ok (exec_enter hperm t h hst) ?_
  exact Attempt.exec_ok (exec_publish hperm _) (Attempt.exec_pure.mpr ⟨rfl, rfl⟩)

/-- A request against which something final is found ends in ERROR. -/
theorem exec_reject {st₀ : Option BridgeStatus} {peers : List Bridge} {e : Error} (t : Instant)
    (h : w.store b.address = some { b with status := st₀ }) (hq : b.provider ctx = .ok q)
    (hpeers : rule w (alone b) (.answered b.address .listBridges (.ok peers)))
    (hvalid : w.Employs b .look (q.provider.validate q.binding b peers) (.error e) w)
    (he : e.isRetryable = false)
    (hst : allowed (entering ((ofBridge ctx b).withSpec s) .error (some e.message) t)) :
    ((ofBridge ctx b).requested s).run.Exec (World.Grants rule allowed b) w
      (.ok (.done .awaitChange))
      (w.having b (entering ((ofBridge ctx b).withSpec s) .error (some e.message) t)) := by
  unfold BridgePass.requested
  rw [show (ofBridge ctx b).bridge.provider (ofBridge ctx b).context = .ok q from hq]
  refine Attempt.exec_ok (exec_list hpeers) ?_
  refine Attempt.exec_ok (exec_validate hperm hvalid) ?_
  dsimp only
  rw [if_neg (by simp [he])]
  exact exec_fail hperm t h hst

/-- An install that may succeed later is noted. -/
theorem exec_pending {e : Error} (hq : b.provider ctx = .ok q)
    (hinstall : w.Employs b .mount (q.provider.install q.binding) (.error e) w')
    (h : w'.store b.address = some { b with status := some s }) (he : e.isRetryable = true)
    (hmessage : s.message = none)
    (hst : allowed { s with message := some s!"install pending: {e.message}" }) :
    ((ofBridge ctx b).fromInstalling s).run.Exec (World.Grants rule allowed b) w
      (.ok .retry)
      (w'.having b { s with message := some s!"install pending: {e.message}" }) := by
  refine Attempt.exec_ok (a := .done .retry) ?_ (Attempt.exec_pure.mpr ⟨rfl, rfl⟩)
  unfold BridgePass.installing
  rw [show (ofBridge ctx b).bridge.provider (ofBridge ctx b).context = .ok q from hq]
  refine Attempt.exec_ok (exec_install hperm hinstall) ?_
  dsimp only
  rw [if_pos he]
  have hnote : ((ofBridge ctx b).note s s!"install pending: {e.message}").run.Exec
      (World.Grants rule allowed b) w' (.ok ())
      (w'.having b { s with message := some s!"install pending: {e.message}" }) := by
    unfold BridgePass.note
    rw [if_pos (by simp [hmessage])]
    exact exec_record hperm h hst
  exact Attempt.exec_ok hnote (Attempt.exec_pure.mpr ⟨rfl, rfl⟩)

/-- An install that cannot succeed ends in ERROR. -/
theorem exec_failed {e : Error} (t : Instant) (hq : b.provider ctx = .ok q)
    (hinstall : w.Employs b .mount (q.provider.install q.binding) (.error e) w')
    (h : w'.store b.address = some { b with status := some s }) (he : e.isRetryable = false)
    (hst : allowed (entering s .error (some e.message) t)) :
    ((ofBridge ctx b).fromInstalling s).run.Exec (World.Grants rule allowed b) w
      (.ok .awaitChange) (w'.having b (entering s .error (some e.message) t)) := by
  refine Attempt.exec_ok (a := .done .awaitChange) ?_ (Attempt.exec_pure.mpr ⟨rfl, rfl⟩)
  unfold BridgePass.installing
  rw [show (ofBridge ctx b).bridge.provider (ofBridge ctx b).context = .ok q from hq]
  refine Attempt.exec_ok (exec_install hperm hinstall) ?_
  dsimp only
  rw [if_neg (by simp [he])]
  exact exec_fail hperm t h hst

/-- After an edit, what was installed is taken down before the new spec is requested. -/
theorem exec_restart (t : Instant) (hchanged : (ofBridge ctx b).Superseded)
    (hinstalled : b.statusOrInitial.everInstalled = true) (hq : b.applied.provider ctx = .ok q)
    (huninstall : w.Employs b .unmount (q.provider.uninstall q.binding) (.ok ()) w')
    (h : w'.store b.address = some b)
    (hst : allowed (entering b.statusOrInitial .requested (some "spec changed") t)) :
    (ofBridge ctx b).starting.run.Exec (World.Grants rule allowed b) w
      (.ok (entering b.statusOrInitial .requested (some "spec changed") t))
      (w'.having b (entering b.statusOrInitial .requested (some "spec changed") t)) := by
  unfold BridgePass.starting BridgePass.restart
  have hrestart : ((ofBridge ctx b).bridge.specChanged
      && (ofBridge ctx b).bridge.statusOrInitial.state ≠ .requested
      && (ofBridge ctx b).bridge.statusOrInitial.state ≠ .removed) = true := by
    simp [hchanged.changed, hchanged.state, hchanged.present]
  have hdown : (b.tearDown ctx).outcome.run.Exec (World.Grants rule allowed b) w (.ok (.ok ()))
      w' := by
    refine Attempt.exec_outcome.mpr ⟨_, ?_, rfl⟩
    unfold Bridge.tearDown
    rw [hq]
    refine Attempt.exec_ok (Attempt.exec_pure.mpr ⟨rfl, rfl⟩) ?_
    exact Prog.exec_perform.mpr (World.grants_of hperm huninstall nofun fun _ _ _ => nofun)
  have hbefore : (ofBridge ctx b).bridge.statusOrInitial.everInstalled = true := hinstalled
  dsimp only
  rw [if_pos hrestart, if_pos hbefore]
  refine Attempt.exec_ok hdown ?_
  exact exec_enter hperm t h hst

omit hperm

section

variable {serves : (c : BridgeCall) → World → Answer c → World → Prop} {v : Except Error Action}
  {w₁ w₂ : World}

/-- A bridge without status is a request. -/
theorem exec_new (h : b.status = none) :
    (ofBridge ctx b).starting.run.Exec serves w (.ok .initial) w := by
  unfold BridgePass.starting
  rw [if_neg (by simp [ofBridge, Bridge.specChanged, h])]
  exact Attempt.exec_pure.mpr ⟨by simp [ofBridge, Bridge.statusOrInitial, h], rfl⟩

theorem exec_accepted {s₁ : BridgeStatus}
    (hstart : (ofBridge ctx b).starting.run.Exec serves w (.ok s) w₁) (hs : s.state = .requested)
    (hrequest : ((ofBridge ctx b).requested s).run.Exec serves w₁ (.ok (.next s₁)) w₂)
    (hnext : ((ofBridge ctx b).fromInstalling s₁).run.Exec serves w₂ v w') :
    (ofBridge ctx b).run.run.Exec serves w v w' := by
  refine Attempt.exec_ok hstart ?_
  rw [hs]
  exact Attempt.exec_ok hrequest hnext

theorem exec_rejected {a : Action}
    (hstart : (ofBridge ctx b).starting.run.Exec serves w (.ok s) w₁) (hs : s.state = .requested)
    (hrequest : ((ofBridge ctx b).requested s).run.Exec serves w₁ (.ok (.done a)) w') :
    (ofBridge ctx b).run.run.Exec serves w (.ok a) w' := by
  refine Attempt.exec_ok hstart ?_
  rw [hs]
  exact Attempt.exec_ok hrequest (Attempt.exec_pure.mpr ⟨rfl, rfl⟩)

/-- A claimed bridge is taken up where it stands. -/
theorem Bridge.Claimed.reconcile (hb : b.Claimed) :
    (b.reconcile ctx).run = (ofBridge ctx b).run.run := by
  obtain ⟨ns, hns⟩ := hb.namespaced
  have hpass : (⟨ctx, b, ns⟩ : BridgePass) = ofBridge ctx b := by simp [ofBridge, hns]
  unfold Bridge.reconcile Bridge.resume Bridge.ensureFinalizer
  rw [hb.live, hns]
  simp only [Option.isSome_none, Bool.false_eq_true, if_false, hb.finalizer, Bool.not_true, hpass]
  rfl

theorem exec_live (hb : b.Claimed) (h : (ofBridge ctx b).run.run.Exec serves w v w') :
    (b.reconcile ctx).run.Exec serves w v w' :=
  hb.reconcile ▸ h

end

end

end BridgeOperator
