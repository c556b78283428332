import BridgeOperator.Proofs.Provider.Reach
import BridgeOperator.Proofs.World.Custody
import BridgeOperator.Proofs.World.Serial

/-!
What the Ready condition says. Whatever enters a state by a pass says so in the condition, while a
deletion records REMOVED and leaves the condition as it was. So it is true to the state of a bridge
until a bridge is deleted that is ACTIVE (`honest_iff_none_dropped`).
-/

namespace BridgeOperator

open BridgePass (ofBridge Moment Phase entering)

theorem ConditionStatus.eq_of_iff {x y : ConditionStatus} (hx : x ≠ .unknown) (hy : y ≠ .unknown)
    (h : x = .true ↔ y = .true) : x = y := by
  cases x <;> cases y <;> simp_all

namespace BridgeStatus

/-- The conditions of type Ready. -/
def readies (s : BridgeStatus) : List Condition :=
  s.conditions.filter fun c => c.kind = readyCondition

/-- There is one Ready condition, and it is True exactly if the bridge is ACTIVE. -/
def Honest (s : BridgeStatus) : Prop :=
  ∃ c, s.readies = [c] ∧ (c.status = .true ↔ s.state = .active)

/-- There is one Ready condition, and its time is that of the former one unless it has become True
or has ceased to be. -/
structure Follows (s former : BridgeStatus) : Prop where
  one : ∃ c, s.readies = [c]
  time : ∀ c ∈ s.readies, ∀ c' ∈ former.readies, c.lastTransitionTime ≠ c'.lastTransitionTime →
    ¬ (c.status = .true ↔ c'.status = .true)

/-- What is known of a status that passes have written. -/
structure Readied (s : BridgeStatus) : Prop where
  told : s.conditions = [] ∨
    ∃ c, s.conditions = [c] ∧ c.kind = readyCondition ∧ c.status ≠ .unknown
  silent : s.conditions = [] → s.state = .requested ∨ s.state = .removed
  truth : ∀ c ∈ s.conditions, s.state ≠ .removed → (c.status = .true ↔ s.state = .active)

theorem readied_initial : initial.Readied where
  told := .inl rfl
  silent _ := .inl rfl
  truth _ hc := nomatch hc

variable {s : BridgeStatus}

/-- All there is to the conditions is Ready. -/
theorem Readied.readies_eq (h : s.Readied) : s.readies = s.conditions := by
  rcases h.told with hc | ⟨c, hc, hkind, -⟩
  · simp [readies, hc]
  · simp [readies, hc, hkind]

theorem Readied.known (h : s.Readied) {c : Condition} (hc : c ∈ s.conditions) :
    c.status ≠ .unknown := by
  rcases h.told with hnone | ⟨c', hone, -, hknown⟩
  · rw [hnone] at hc
    cases hc
  · rw [hone] at hc
    exact List.mem_singleton.mp hc ▸ hknown

theorem Readied.one (h : s.Readied) (hne : s.conditions ≠ []) : ∃ c, s.conditions = [c] := by
  rcases h.told with hc | ⟨c, hc, -⟩
  · exact absurd hc hne
  · exact ⟨c, hc⟩

theorem Readied.honest (h : s.Readied) (hone : ∃ c, s.readies = [c])
    (htrue : ∀ c ∈ s.conditions, c.status = .true → s.state = .active) : s.Honest := by
  obtain ⟨c, hc⟩ := hone
  have hmem : c ∈ s.conditions := by
    rw [← h.readies_eq, hc]
    exact List.mem_singleton_self c
  refine ⟨c, hc, htrue c hmem, fun hactive => ?_⟩
  exact (h.truth c hmem (by rw [hactive]; nofun)).mpr hactive

end BridgeStatus

namespace BridgePass

variable {p : BridgePass} {φ : Phase} {s cur st : BridgeStatus} {state : BridgeState}
  {message : Option String} {t : Instant}

/-- What the Ready condition is when a state is entered. -/
def readiness (state : BridgeState) : ConditionStatus := if state = .active then .true else .false

theorem readiness_ne_unknown : readiness state ≠ .unknown := by
  cases state <;> decide

theorem readiness_eq_true : readiness state = .true ↔ state = .active := by
  cases state <;> decide

/-- Entering a state says whether it is ACTIVE, and since when unless that was said before. -/
theorem conditions_entering (message : Option String) (t : Instant) (h : cur.Readied)
    (hs : s.conditions = cur.conditions) :
    ∃ since, (entering s state message t).conditions = [⟨BridgeStatus.readyCondition,
        readiness state, state.text, message.getD "", since⟩] ∧
      ∀ c ∈ cur.conditions, c.status = readiness state → since = c.lastTransitionTime := by
  unfold entering BridgeStatus.withReady BridgeStatus.transition
  dsimp only
  rw [hs]
  rcases h.told with hc | ⟨c, hc, hkind, -⟩ <;> rw [hc]
  · exact ⟨_, rfl, nofun⟩
  · have hnone : [c].filter (fun c => c.kind ≠ BridgeStatus.readyCondition) = [] := by
      simp [hkind]
    rw [hnone]
    refine ⟨_, rfl, ?_⟩
    intro c' hc' hstatus
    obtain rfl := List.mem_singleton.mp hc'
    have hfind : [c'].find? (fun c => c.kind = BridgeStatus.readyCondition &&
        c.status = if state = .active then ConditionStatus.true else .false) = some c' := by
      simp [hkind, hstatus, readiness]
    rw [hfind]

/-- What a pass does about readiness: it enters a state, writes a note while INSTALLING, or records
that the bridge is gone. -/
theorem Advance.conditions (h : p.Advance cur φ st) :
    (∃ s state message t, st = entering s state message t ∧ s.conditions = cur.conditions ∧
        state ≠ .removed) ∨
      (st.conditions = cur.conditions ∧ st.state = .installing ∧ cur.state = .installing) ∨
      (st.conditions = cur.conditions ∧ st.state = .removed) := by
  cases h with
  | reopen => exact .inl ⟨_, _, _, _, rfl, rfl, nofun⟩
  | accept => exact .inl ⟨_, _, _, _, rfl, rfl, nofun⟩
  | reject => exact .inl ⟨_, _, _, _, rfl, rfl, nofun⟩
  | fail => exact .inl ⟨_, _, _, _, rfl, rfl, nofun⟩
  | settle => exact .inl ⟨_, _, _, _, rfl, rfl, nofun⟩
  | note message hs => exact .inr (.inl ⟨rfl, hs, hs⟩)
  | activate => exact .inl ⟨_, _, _, _, rfl, rfl, nofun⟩
  | drift => exact .inl ⟨_, _, _, _, rfl, rfl, nofun⟩
  | dismiss => exact .inr (.inr ⟨rfl, rfl⟩)

theorem Advance.readied (h : p.Advance cur φ st) (hcur : cur.Readied) : st.Readied := by
  rcases h.conditions with ⟨s, state, message, t, rfl, hs, hstate⟩ | ⟨hc, hst, hstate⟩ | ⟨hc, hst⟩
  · obtain ⟨since, hc, -⟩ := conditions_entering message t hcur hs
    refine ⟨.inr ⟨_, hc, rfl, ?_⟩, fun hnone => ?_, fun c hmem _ => ?_⟩
    · exact readiness_ne_unknown
    · rw [hc] at hnone
      cases hnone
    · rw [hc] at hmem
      obtain rfl := List.mem_singleton.mp hmem
      exact readiness_eq_true
  · refine ⟨by rw [hc]; exact hcur.told, ?_, ?_⟩
    · rw [hc, hst, ← hstate]
      exact hcur.silent
    · rw [hc, hst, ← hstate]
      exact hcur.truth
  · refine ⟨by rw [hc]; exact hcur.told, fun _ => .inr hst, fun c _ hne => absurd hst hne⟩

/-- What is written follows what is stored, but for a deletion before anything has been said. -/
theorem Advance.follows (h : p.Advance cur φ st) (hcur : cur.Readied)
    (hsaid : st.state = .removed → cur.conditions ≠ []) : st.Follows cur := by
  have hst := h.readied hcur
  have hsame : st.conditions = cur.conditions → st.conditions ≠ [] → st.Follows cur := by
    intro hc hne
    obtain ⟨c, hone⟩ := hst.one hne
    refine ⟨⟨c, hst.readies_eq.trans hone⟩, fun c hc' c' hc'' htime => ?_⟩
    rw [hst.readies_eq, hone] at hc'
    rw [hcur.readies_eq, ← hc, hone] at hc''
    obtain rfl := List.mem_singleton.mp hc'
    obtain rfl := List.mem_singleton.mp hc''
    exact absurd rfl htime
  rcases h.conditions with ⟨s, state, message, t, rfl, hs, hstate⟩ | ⟨hc, hinst, -⟩ | ⟨hc, hgone⟩
  · obtain ⟨since, hc, hsince⟩ := conditions_entering message t hcur hs
    refine ⟨⟨_, hst.readies_eq.trans hc⟩, fun c hmem c' hmem' htime hsame => ?_⟩
    rw [hst.readies_eq, hc] at hmem
    rw [hcur.readies_eq] at hmem'
    obtain rfl := List.mem_singleton.mp hmem
    have hknown := hcur.known hmem'
    exact htime (hsince c' hmem' (ConditionStatus.eq_of_iff hknown readiness_ne_unknown hsame.symm))
  · refine hsame hc fun hnone => ?_
    rcases hst.silent hnone with h | h <;> rw [hinst] at h <;> cases h
  · exact hsame hc (hc ▸ hsaid hgone)

/-- A status that does not call a bridge Ready that is not ACTIVE is followed only by such, unless
the bridge goes while it is ACTIVE. -/
theorem Advance.restrained (h : p.Advance cur φ st) (hcur : cur.Readied)
    (htrue : ∀ c ∈ cur.conditions, c.status = .true → cur.state = .active)
    (hkept : ¬ (cur.state = .active ∧ st.state = .removed)) :
    ∀ c ∈ st.conditions, c.status = .true → st.state = .active := by
  intro c hmem hc
  by_cases hgone : st.state = .removed
  · rcases h.conditions with ⟨s, state, message, t, rfl, hs, hstate⟩ | ⟨-, hinst, -⟩ | ⟨hsame, -⟩
    · exact absurd hgone hstate
    · rw [hinst] at hgone
      cases hgone
    · rw [hsame] at hmem
      exact absurd ⟨htrue c hmem hc, hgone⟩ hkept
  · exact ((h.readied hcur).truth c hmem hgone).mp hc

end BridgePass

/-! ## Along a run -/

/-- A status is passed to the store for a bridge. A bridge that goes before anything has been said
of its readiness is left out. -/
structure Move.Reports (m : Move) (a : Address) (b : Bridge) (st : BridgeStatus) : Prop where
  stored : m.before.store a = some b
  event : ∃ ns name r, m.event = .answered a (.patchStatus ns name st) r
  said : st.state = .removed → b.statusOrInitial.conditions ≠ []

/-- REMOVED is recorded for a bridge that is ACTIVE. -/
def Move.Drops (m : Move) : Prop :=
  ∃ a b st, m.Reports a b st ∧ b.state = .active ∧ st.state = .removed

def World.Readied (w : World) : Prop := ∀ a b, w.store a = some b → b.statusOrInitial.Readied

/-- Only bridges that are ACTIVE are called Ready. -/
def World.Restrained (w : World) : Prop :=
  ∀ a b, w.store a = some b → ∀ c ∈ b.statusOrInitial.conditions, c.status = .true →
    b.statusOrInitial.state = .active

section

variable {ctx : BridgeContext} {rule : Rule} {start : World} {trail : List Move}
  {s s' : Scene (.table ctx)} {e : Event} {a : Address} {b : Bridge} {st : BridgeStatus}

theorem World.Initial.readied (h : start.Initial) : start.Readied := by
  intro a b hb
  rw [Bridge.statusOrInitial, h.status hb]
  exact BridgeStatus.readied_initial

theorem World.Initial.restrained (h : start.Initial) : start.Restrained := by
  intro a b hb c hc
  rw [Bridge.statusOrInitial, h.status hb] at hc
  cases hc

theorem Scene.Sound.readied_step (hs : s.Sound) (hstep : Step (.table ctx) s e s')
    (h : s.world.Readied) : s'.world.Readied := by
  intro a b' hb'
  rcases hstep.status hs hb' with
    ⟨-, hst⟩ | ⟨b, hb, hst | ⟨x, φ, st, ns, name, r, hst, -, -, hadv⟩⟩
  · rw [Bridge.statusOrInitial, hst]
    exact BridgeStatus.readied_initial
  · rw [Bridge.statusOrInitial_congr hst]
    exact h a b hb
  · rw [Bridge.statusOrInitial_of_some hst]
    exact hadv.readied (h a b hb)

theorem Run.readied (hrun : Run (.table ctx) rule start trail s) (hstart : start.Initial) :
    s.world.Readied := by
  induction hrun with
  | start => exact hstart.readied
  | move hrun hrule hstep ih => exact (hrun.sound hstart).readied_step hstep ih

/-- Whatever is written comes from what is stored, whether the store takes it or not. -/
theorem Scene.Sound.advance (hs : s.Sound) (hstep : Step (.table ctx) s e s')
    (h : (Move.of s e s').Reports a b st) :
    ∃ x φ, (ofBridge ctx x).Advance b.statusOrInitial φ st := by
  obtain ⟨ns, name, r, he⟩ := h.event
  obtain rfl : e = .answered a (.patchStatus ns name st) r := he
  cases hstep with
  | @answer _ x φ φ' _ _ w hp hdoes hserve =>
    have hphase := hs.phase hp h.stored
    exact ⟨x, φ.phase, hphase.advance hdoes.patchStatus.2.2.1⟩

theorem Scene.Sound.restrained_step (hs : s.Sound) (hstep : Step (.table ctx) s e s')
    (hready : s.world.Readied) (h : s.world.Restrained) (hkept : ¬ (Move.of s e s').Drops) :
    s'.world.Restrained := by
  intro a b' hb'
  rcases hstep.status hs hb' with
    ⟨-, hst⟩ | ⟨b, hb, hst | ⟨x, φ, st, ns, name, r, hst, -, he, hadv⟩⟩
  · intro c hc
    rw [Bridge.statusOrInitial, hst] at hc
    cases hc
  · rw [Bridge.statusOrInitial_congr hst]
    exact h a b hb
  · rw [Bridge.statusOrInitial_of_some hst]
    refine hadv.restrained (hready a b hb) (h a b hb) fun hdrops => ?_
    obtain ⟨hactive, hgone⟩ := hdrops
    refine hkept ⟨a, b, st, ⟨hb, ⟨ns, name, r, he⟩, fun _ hnone => ?_⟩, ?_, hgone⟩
    · rcases (hready a b hb).silent hnone with h | h <;> rw [hactive] at h <;> cases h
    · rw [← b.state_statusOrInitial]
      exact hactive

theorem Run.restrained (hrun : Run (.table ctx) rule start trail s) (hstart : start.Initial)
    (hkept : ∀ m ∈ trail, ¬ m.Drops) : s.world.Restrained := by
  refine Run.keeps hstart.restrained ?_ hrun hkept
  intro rest s e s' hrun hrule hstep h hkept
  exact (hrun.sound hstart).restrained_step hstep (hrun.readied hstart) h hkept

/-- What is dropped is left with a condition that calls it Ready. -/
theorem Scene.Sound.not_honest (hs : s.Sound) (hstep : Step (.table ctx) s e s')
    (hready : s.world.Readied) (h : (Move.of s e s').Reports a b st) (hactive : b.state = .active)
    (hgone : st.state = .removed) : ¬ st.Honest := by
  rintro ⟨c, hone, htrue⟩
  obtain ⟨x, φ, hadv⟩ := hs.advance hstep h
  have hb := hready a b h.stored
  rw [← b.state_statusOrInitial] at hactive
  have hsame : st.conditions = b.statusOrInitial.conditions := by
    rcases hadv.conditions with ⟨s, state, message, t, rfl, -, hne⟩ | ⟨hsame, -⟩ | ⟨hsame, -⟩
    · exact absurd hgone hne
    · exact hsame
    · exact hsame
  have hmem : c ∈ b.statusOrInitial.conditions := by
    rw [← hsame, ← (hadv.readied hb).readies_eq, hone]
    exact List.mem_singleton_self c
  have hready := (hb.truth c hmem (by rw [hactive]; nofun)).mpr hactive
  rw [htrue.mp hready] at hgone
  cases hgone

end

/-- In every run each written status has one Ready condition, whose time is that of the stored one
unless it has become True or ceased to be. All of them say the truth unless a bridge is deleted
while it is ACTIVE. -/
theorem honest_iff_none_dropped {ctx : BridgeContext} {rule : Rule} {start : World}
    {trail : List Move} {s : Scene (.programs ctx)} (hstart : start.Initial)
    (hrun : Run (.programs ctx) rule start trail s) :
    (∀ m ∈ trail, ∀ a b st, m.Reports a b st → st.Follows b.statusOrInitial) ∧
      ((∀ m ∈ trail, ∀ a b st, m.Reports a b st → st.Honest) ↔ ∀ m ∈ trail, ¬ m.Drops) := by
  obtain ⟨t, ht, -⟩ := hrun.tabulated
  have hfollows : ∀ m ∈ trail, ∀ a b st, m.Reports a b st →
      st.Readied ∧ st.Follows b.statusOrInitial := by
    intro m hm a b st h
    obtain ⟨rest, s, e, s', hrest, -, -, hstep, rfl⟩ := ht.of_mem hm
    obtain ⟨x, φ, hadv⟩ := (hrest.sound hstart).advance hstep h
    have hb := hrest.readied hstart a b h.stored
    exact ⟨hadv.readied hb, hadv.follows hb h.said⟩
  refine ⟨fun m hm a b st h => (hfollows m hm a b st h).2, fun hall m hm => ?_,
    fun hnone m hm => ?_⟩
  · rintro ⟨a, b, st, h, hactive, hgone⟩
    have hhonest := hall m hm a b st h
    obtain ⟨rest, s, e, s', hrest, -, -, hstep, rfl⟩ := ht.of_mem hm
    exact (hrest.sound hstart).not_honest hstep (hrest.readied hstart) h hactive hgone hhonest
  · intro a b st h
    obtain ⟨hst, hfollow⟩ := hfollows m hm a b st h
    obtain ⟨rest, s, e, s', hrest, hsub, -, hstep, rfl⟩ := ht.of_mem hm
    obtain ⟨x, φ, hadv⟩ := (hrest.sound hstart).advance hstep h
    have htrue := hrest.restrained hstart (fun m' hm' => hnone m' (hsub m' hm')) a b h.stored
    refine hst.honest hfollow.one ?_
    refine hadv.restrained (hrest.readied hstart a b h.stored) htrue fun hdrops => ?_
    obtain ⟨hactive, hgone⟩ := hdrops
    rw [b.state_statusOrInitial] at hactive
    exact hnone _ hm ⟨a, b, st, h, hactive, hgone⟩

/-! ## A bridge that becomes ACTIVE and is deleted -/

namespace Duplicate

variable {x : Bridge} {b : Binding} {c : Kube.Controller} {e : Estate}

/-- The copy is made, and the service in front of it. -/
theorem exec_install_whole (hc : b.target.kind.controller? = some c) :
    ∃ e', (install b).run.Exec (Estate.Serves x .mount) e (.ok ()) e' := by
  obtain ⟨made, mappings, hclone, -⟩ := clone_ofContainer b c
  let copy : Asset := .workload c b.namespaceName made.metadata.nameOrEmpty
  let front : Asset :=
    .service b.namespaceName (b.cloneService made mappings).metadata.nameOrEmpty
  refine ⟨(e.put copy (some x.writer)).put front (some x.writer), ?_⟩
  unfold install
  rw [hc]
  refine Attempt.exec_ok (a := some (.ofContainer b.container)) (Prog.exec_perform.mpr rfl) ?_
  dsimp only
  rw [hclone]
  refine Attempt.exec_ok (a := (made, mappings)) (Attempt.exec_pure.mpr ⟨rfl, rfl⟩) ?_
  refine Attempt.exec_ok (a := ()) (Prog.exec_perform.mpr (.inl rfl)) ?_
  refine Attempt.exec_ok (a := ()) (Prog.exec_perform.mpr (.inl rfl)) ?_
  exact Attempt.exec_always.mpr ⟨(), Prog.exec_perform.mpr rfl, rfl⟩

/-- A workload whose one replica is updated and ready. -/
def running : Kube.Workload where
  metadata := .empty
  spec := none
  status := some ⟨none, none, some 1, some 1, []⟩

theorem exec_ready (hc : b.target.kind.controller? = some c) :
    (ready b).run.Exec (Estate.Serves x .look) e (.ok true) e := by
  unfold ready
  rw [hc]
  refine Attempt.exec_ok (a := some running) (Prog.exec_perform.mpr rfl) ?_
  refine Attempt.exec_ok (a := some default) (Prog.exec_perform.mpr rfl) ?_
  exact Attempt.exec_pure.mpr ⟨rfl, rfl⟩

end Duplicate

section

variable {ctx : BridgeContext} {rule : Rule} {b : Bridge} {q : BoundProvider} {w w' : World}
  {s : BridgeStatus}

/-- The status of a bridge that goes from INSTALLING to ACTIVE. -/
def BridgeStatus.activated (s : BridgeStatus) : BridgeStatus :=
  entering (entering s .installed none ⟨0, 0⟩) .active none ⟨0, 0⟩

variable (hperm : rule.Permits b)

include hperm

theorem exec_checkReady (limit : Nat)
    (h : w.Employs b .look (q.provider.ready q.binding) (.ok true) w) :
    (BridgeWork.checkReady q limit).Exec (World.Grants rule (fun _ => True) b) w
      (.finished 0 (.ok true)) w := by
  refine Prog.exec_perform.mpr (World.grants_of hperm ?_ nofun fun _ _ _ => nofun)
  refine ⟨_, h, fun elapsed v hv => ?_⟩
  cases hv
  rfl

/-- An install that succeeds and is soon ready leads to ACTIVE. -/
theorem exec_activated (hq : b.provider ctx = .ok q)
    (hinstall : w.Employs b .mount (q.provider.install q.binding) (.ok ()) w')
    (hready : w'.Employs b .look (q.provider.ready q.binding) (.ok true) w')
    (h : w'.store b.address = some { b with status := some s }) :
    ((ofBridge ctx b).fromInstalling s).run.Exec (World.Grants rule (fun _ => True) b) w
      (.ok (.requeue ctx.config.bridgeInterval)) (w'.having b s.activated) := by
  have hagain : (w'.having b (entering s .installed none ⟨0, 0⟩)).having b s.activated =
      w'.having b s.activated := World.having_having
  rw [← hagain]
  have hinstalled : ((ofBridge ctx b).installing s).run.Exec
      (World.Grants rule (fun _ => True) b) w
      (.ok (.next (entering s .installed none ⟨0, 0⟩)))
      (w'.having b (entering s .installed none ⟨0, 0⟩)) := by
    unfold BridgePass.installing
    rw [show (ofBridge ctx b).bridge.provider (ofBridge ctx b).context = .ok q from hq]
    refine Attempt.exec_ok (exec_install hperm hinstall) ?_
    refine Attempt.exec_ok (BridgePass.exec_awaitReady (exec_checkReady hperm _ hready)) ?_
    refine Attempt.exec_ok (exec_enter hperm ⟨0, 0⟩ h trivial) ?_
    exact Attempt.exec_ok (exec_publish hperm _) (Attempt.exec_pure.mpr ⟨rfl, rfl⟩)
  refine Attempt.exec_ok hinstalled ?_
  refine Attempt.exec_ok (exec_enter hperm ⟨0, 0⟩ World.having_store trivial) ?_
  exact Attempt.exec_ok (exec_publish hperm _) (Attempt.exec_pure.mpr ⟨rfl, rfl⟩)

/-- The pass over a deleted bridge, up to the record of its end. -/
theorem steps_removed (h : b.Dismantles ctx q)
    (huninstall : w.Employs b .unmount (q.provider.uninstall q.binding) (.ok ()) w')
    (t : Instant) : ∃ next, (b.reconcile ctx).run.Steps
      (fun c w r w' => w.Serves b c r w' ∧ rule w (alone b) (.answered b.address c r)) w
      (.call (.patchStatus b.address.namespaceName b.name
        (b.statusOrInitial.transition .removed (some "bridge removed") t)) next) w' := by
  obtain ⟨ns, hns⟩ := h.namespaced
  have haddress : b.address.namespaceName = ns := by simp [Bridge.address, hns]
  have hdown : (b.tearDownDeleted ctx).run.Exec
      (fun c w r w' => w.Serves b c r w' ∧ rule w (alone b) (.answered b.address c r)) w (.ok ())
      w' := by
    unfold Bridge.tearDownDeleted Bridge.tearDown
    rw [if_pos h.installed, h.provider]
    refine Attempt.exec_ok (a := .ok ()) (Attempt.exec_outcome.mpr ⟨_, ?_, rfl⟩)
      (Attempt.exec_pure.mpr ⟨rfl, rfl⟩)
    exact Prog.exec_perform.mpr ⟨huninstall, hperm.answered _ _ _ (by simp)⟩
  have hnow : BridgeWork.now.run.Exec
      (fun c w r w' => w.Serves b c r w' ∧ rule w (alone b) (.answered b.address c r)) w' (.ok t)
      w' :=
    Attempt.exec_always.mpr ⟨t, Prog.exec_perform.mpr ⟨rfl, hperm.answered _ _ _ (by simp)⟩, rfl⟩
  unfold Bridge.reconcile Bridge.remove
  rw [if_pos h.deleted, hns, haddress]
  dsimp only
  rw [h.finalizer]
  exact ⟨_, Attempt.steps_ok hdown (Attempt.steps_ok hnow (.refl _ _))⟩

end

namespace Sample

/-- The first bridge, ACTIVE. -/
def activated : Bridge := { first with status := some (first.admittedStatus context).activated }

/-- The first bridge, deleted while it is ACTIVE. -/
def dropped : Bridge := { activated with metadata := deletion "first" }

/-- What is recorded of the end of the first bridge. -/
def droppedStatus : BridgeStatus :=
  dropped.statusOrInitial.transition .removed (some "bridge removed") ⟨0, 0⟩

/-- What the first bridge is called when it is ACTIVE. -/
def readyCondition : Condition :=
  ⟨BridgeStatus.readyCondition, .true, BridgeState.active.text, "", ⟨0, 0⟩⟩

theorem conditions_dropped : dropped.statusOrInitial.conditions = [readyCondition] := by
  rfl

/-- In any world the copy for the first bridge can be made, and is found ready. -/
theorem installs_first (v : World) : ∃ e',
    v.Employs first .mount (copier.provider.install copier.binding) (.ok ()) ⟨v.store, e'⟩ ∧
      (⟨v.store, e'⟩ : World).Employs first .look (copier.provider.ready copier.binding) (.ok true)
        ⟨v.store, e'⟩ := by
  obtain ⟨e', hinstall⟩ := Duplicate.exec_install_whole (x := first) (b := copier.binding)
    (e := v.estate) rfl
  have hlook : (Duplicate.ready copier.binding).run.Exec (Estate.Serves first .look) e' (.ok true)
      e' := Duplicate.exec_ready rfl
  exact ⟨e', ⟨rfl, hinstall⟩, rfl, hlook⟩

theorem activates_first : ∃ trail e', Run (.programs context) Rule.serial
    (.ofBridges [first] .empty) trail (.quiet _ (.ofBridges [activated] e')) := by
  let w : World := .ofBridges [first] .empty
  let admitted := first.admittedStatus context
  have haccept : Acceptable context Rule.serial w first copier [first] :=
    (admissible parse_shop World.ofBridges_head (serial_listed (by simp) _ _) rfl rfl).acceptable
  obtain ⟨e', hmount, hready⟩ := installs_first (w.having first admitted)
  let w' : World := ⟨(w.having first admitted).store, e'⟩
  have hstored : (w.having first admitted).store first.address =
      some { first with status := some admitted } := World.having_store
  have hnext := exec_activated (permits_serial first) provider_first hmount hready hstored
  have hactive : w'.having first admitted.activated = .ofBridges [activated] e' := by
    have hstore : w.having first admitted.activated = .ofBridges [activated] .empty :=
      World.having_ofBridges (k := []) (by simp)
    refine World.having_having.trans ?_
    rw [hstore]
    rfl
  rw [hactive] at hnext
  obtain ⟨later, hrun, -⟩ := Run.pass .start (permits_serial first) World.ofBridges_head
    (haccept.exec (permits_serial first) hnext)
  exact ⟨_, e', hrun⟩

theorem dismantles_dropped : dropped.Dismantles context copier where
  namespaced := ⟨_, rfl⟩
  deleted := rfl
  finalizer := by rfl
  installed := rfl
  provider := by
    have hrecord : dropped.statusOrInitial.lastAppliedSpec = some (spec "deploy/shop").canonical :=
      rfl
    rw [Bridge.applied_eq hrecord]
    exact provider_eq rfl parse_shop

/-- The first bridge becomes ACTIVE, is deleted, and its end is recorded. -/
theorem drops_first : ∃ trail m s, Run (.programs context) Rule.serial
    (.ofBridges [first] .empty) (m :: trail) s ∧
    m.Reports dropped.address dropped droppedStatus := by
  obtain ⟨trail, e, hactive⟩ := activates_first
  have hmetadata : activated.metadata.SameObject (deletion "first") := sameObject_deletion
  have hdeleted := hactive.amends hmetadata fun _ => rfl
  have hpermits := permits_serial dropped
  have hbegan := hdeleted.move (hpermits.began _) (Scene.take_single World.ofBridges_head)
  obtain ⟨e', huninstall, -⟩ := Duplicate.uninstall_takes (x := dropped) (b := copier.binding)
    (f := .object (Duplicate.copy copier.binding .deployment)) ⟨rfl, rfl, rfl, rfl⟩ e
  have hunmount : (World.ofBridges [dropped] e).Employs dropped .unmount
      (copier.provider.uninstall copier.binding) (.ok ()) (.ofBridges [dropped] e') :=
    ⟨rfl, huninstall⟩
  obtain ⟨next, hsteps⟩ := steps_removed hpermits dismantles_dropped hunmount ⟨0, 0⟩
  obtain ⟨later, hlater⟩ := hbegan.steps hsteps
  have hserve : (World.ofBridges [dropped] e').Serves dropped
      (.patchStatus dropped.address.namespaceName dropped.name droppedStatus) (.ok ()) _ :=
    .inl rfl
  have hrule := hpermits.answered (.ofBridges [dropped] e')
    (.patchStatus dropped.address.namespaceName dropped.name droppedStatus) (.ok ()) nofun
  rw [← Scene.bridges_single (m := .programs context)] at hrule
  have hmove := hlater.move hrule (Scene.answer_single (.call _ next _) hserve)
  exact ⟨_, _, _, hmove, World.ofBridges_head, ⟨_, _, _, rfl⟩, fun _ => by
    rw [conditions_dropped]
    nofun⟩

end Sample

theorem honest_iff_none_dropped_shop : ∃ trail s,
    (World.ofBridges [Sample.first] .empty).Initial ∧
    Run (.programs Sample.context) Rule.serial (.ofBridges [Sample.first] .empty) trail s ∧
    (∀ m ∈ trail, ∀ a b st, m.Reports a b st → st.Follows b.statusOrInitial) ∧
    ((∀ m ∈ trail, ∀ a b st, m.Reports a b st → st.Honest) ↔ ∀ m ∈ trail, ¬ m.Drops) := by
  obtain ⟨trail, m, s, hrun, -⟩ := Sample.drops_first
  exact ⟨_, s, Sample.initial_first, hrun, honest_iff_none_dropped Sample.initial_first hrun⟩

/-- A bridge that is deleted while it is ACTIVE is REMOVED and still called Ready. -/
theorem not_always_honest : ¬ ∀ ctx rule start trail (s : Scene (.programs ctx)), start.Initial →
    Run (.programs ctx) rule start trail s → ∀ m ∈ trail, ∀ a b st, m.Reports a b st →
      st.Honest := by
  intro hall
  obtain ⟨trail, m, s, hrun, hreports⟩ := Sample.drops_first
  obtain ⟨c, hone, htrue⟩ := hall _ _ _ _ _ Sample.initial_first hrun m (.head _) _ _ _ hreports
  have hready : Sample.droppedStatus.readies = [Sample.readyCondition] := by
    show Sample.dropped.statusOrInitial.conditions.filter _ = _
    rw [Sample.conditions_dropped]
    rfl
  rw [hready] at hone
  obtain rfl := (List.cons.inj hone).1
  have hactive : Sample.droppedStatus.state = .active := htrue.mp rfl
  cases hactive

end BridgeOperator
