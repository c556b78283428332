import BridgeOperator.Proofs.Pass.Conformance
import BridgeOperator.Proofs.Pass.Lifecycle
import BridgeOperator.Proofs.Status.Object

/-!
What is stored of a bridge while passes go over it. Statuses only grow, and what a pass takes for
the stored status differs from it in nothing but the fields that have been cleared.
-/

namespace BridgeOperator

open Json (Distinct)
open Readable

namespace BridgeStatus

variable {s s' cur : BridgeStatus}

@[simp] theorem onto_self (s : BridgeStatus) : s.onto s = s := by
  simp [onto]

@[simp] theorem onto_onto (s' s : BridgeStatus) : s'.onto (s'.onto s) = s'.onto s := by
  simp [onto, ← Option.or_assoc]

theorem Kept.onto (h' : s'.Kept) (h : s.Kept) : (s'.onto s).Kept where
  logged := h'.logged
  recorded hlog := by
    have hrecorded := h'.recorded hlog
    unfold BridgeStatus.onto
    cases hspec : s'.lastAppliedSpec with
    | none =>
      rw [hspec] at hrecorded
      cases hrecorded
    | some text => rfl
  written text htext := by
    unfold BridgeStatus.onto at htext
    cases hspec : s'.lastAppliedSpec with
    | none =>
      rw [hspec] at htext
      exact h.written text htext
    | some text' =>
      rw [hspec] at htext
      exact h'.written text (hspec.trans htext)

/-- Whatever the new status has not cleared of the former one is stored as it says. -/
theorem onto_eq_iff : s'.onto s = s' ↔
    (s'.message = none → s.message = none) ∧
    (s'.observedGeneration = none → s.observedGeneration = none) ∧
    (s'.lastAppliedSpec = none → s.lastAppliedSpec = none) := by
  have hor : ∀ {α : Type} (a b : Option α), a.or b = a ↔ (a = none → b = none) := by
    intro α a b
    cases a <;> simp
  obtain ⟨state, times, message, conditions, generation, spec⟩ := s'
  simp [onto, hor]

end BridgeStatus

namespace BridgePass

variable {p : BridgePass} {cur st : BridgeStatus} {φ : Phase} {t : Instant}

theorem grows_transition (s : BridgeStatus) (state : BridgeState) (message : Option String)
    (t : Instant) : s.Grows (s.transition state message t) where
  times k hk := by
    rw [transition_contains, hk, Bool.or_true]
  conditions h := h

theorem grows_entering (s : BridgeStatus) (state : BridgeState) (message : Option String)
    (t : Instant) : s.Grows (entering s state message t) where
  times k hk := by
    rw [entering_contains, hk, Bool.or_true]
  conditions h := absurd h (List.append_ne_nil_of_right_ne_nil _ (List.cons_ne_nil _ _))

/-- A pass forgets neither a state that has been entered nor that there are conditions. -/
theorem Advance.grows (h : p.Advance cur φ st) : cur.Grows st := by
  have hspec : ∀ {s : BridgeStatus}, (p.withSpec cur).Grows s → cur.Grows s :=
    fun h => ⟨h.times, h.conditions⟩
  cases h with
  | note => exact ⟨fun _ hk => hk, fun h => h⟩
  | dismiss t => exact grows_transition _ _ _ t
  | accept provider t => exact hspec (grows_entering _ _ _ t)
  | reject e t => exact hspec (grows_entering _ _ _ t)
  | _ => exact grows_entering cur _ _ _

theorem valid_transition {s : BridgeStatus} (hs : s.Valid) (ht : t.Valid) (state : BridgeState)
    (message : Option String) : (s.transition state message t).Valid where
  times e he := by
    unfold BridgeStatus.transition at he
    dsimp only at he
    split at he
    · exact hs.times e he
    · rcases SortedMap.mem_insertEntry he with rfl | he
      · exact ht
      · exact hs.times e he
  conditions := hs.conditions

theorem valid_withReady {s : BridgeStatus} (hs : s.Valid) (ht : t.Valid) (state : BridgeState)
    (message : String) : (s.withReady state message t).Valid where
  times := hs.times
  conditions c hc := by
    rcases List.mem_append.mp hc with hc | hc
    · exact hs.conditions c (List.mem_filter.mp hc).1
    · obtain rfl := List.mem_singleton.mp hc
      dsimp only
      split
      · next hfound => exact hs.conditions _ (List.mem_of_find?_eq_some hfound)
      · exact ht

theorem valid_entering {s : BridgeStatus} (hs : s.Valid) (ht : t.Valid) (state : BridgeState)
    (message : Option String) : (entering s state message t).Valid :=
  valid_withReady (valid_transition hs ht state message) ht state (message.getD "")

/-- What is stored next has the times of the status and of the clock. -/
theorem Phase.Sound.valid {read : Option Instant} (h : φ.Sound p cur)
    (hst : φ.pending p read = some st) (hcur : cur.Valid)
    (hread : ∀ t, read = some t → t.Valid) : st.Valid := by
  have hspec : (p.withSpec cur).Valid := ⟨hcur.times, hcur.conditions⟩
  cases φ <;> cases read <;> try cases hst
  case reopening.some t => exact valid_entering (h.1 ▸ hcur) (hread t rfl) _ _
  case admitted.some s provider t =>
    obtain ⟨rfl, -, -⟩ := h
    exact valid_entering hspec (hread t rfl) _ _
  case failing.some s e t =>
    rcases h with ⟨rfl, -⟩ | ⟨rfl, -⟩
    · exact valid_entering hspec (hread t rfl) _ _
    · exact valid_entering hcur (hread t rfl) _ _
  case settling.some s t => exact valid_entering (h.1 ▸ hcur) (hread t rfl) _ _
  case noting.none s message => exact ⟨(h.1 ▸ hcur).times, (h.1 ▸ hcur).conditions⟩
  case noting.some s message t => exact ⟨(h.1 ▸ hcur).times, (h.1 ▸ hcur).conditions⟩
  case mounted.some s t => exact valid_entering (h.1 ▸ hcur) (hread t rfl) _ _
  case drifted.some s t => exact valid_entering (h.1 ▸ hcur) (hread t rfl) _ _
  case dismissing.some t =>
    obtain rfl : cur = p.bridge.statusOrInitial := h
    exact valid_transition hcur (hread t rfl) _ _

/-- Nothing more is stored. -/
def Phase.isLast : Phase → Bool
  | .releasing | .over => true
  | _ => false

theorem pending_of_isLast {read : Option Instant} (h : φ.isLast = true) :
    φ.pending p read = none := by
  cases φ <;> first | rfl | cases h

theorem isLast_unstored : φ.unstored.isLast = true := by
  cases φ <;> rfl

theorem Does.isLast {m m' : Moment} {c : BridgeCall} {r : Answer c} (h : Does p m c r m')
    (hm : m.phase.isLast = true) : m'.phase.isLast = true := by
  cases h with
  | now => exact hm
  | publish => exact hm
  | sleep => exact hm
  | store φ t s hs =>
    rw [pending_of_isLast hm] at hs
    cases hs
  | lose => exact isLast_unstored
  | release => rfl
  | _ => cases hm

end BridgePass

namespace StoredBridge

/-- How a pass over a stored bridge is answered. -/
def Serves : (c : BridgeCall) → List (String × Json) → Answer c → List (String × Json) → Prop
  | .patchStatus ns name s, fields, r, fields' =>
    (Api.bridges.patchStatus ns name s.toJson).run.Exec Api.Serves (.obj fields) r (.obj fields')
  | .now, fields, t, fields' => t.Valid ∧ Untouched Bridge.ofJson? fields fields'
  | .sleep _, fields, _, fields' | .publish _, fields, _, fields'
  | .listBridges, fields, _, fields' | .addFinalizer .., fields, _, fields'
  | .removeFinalizer .., fields, _, fields' | .validate .., fields, _, fields'
  | .install _, fields, _, fields' | .ready .., fields, _, fields'
  | .uninstall _, fields, _, fields' => Untouched Bridge.ofJson? fields fields'

/-- A pass over the bridge `x`, or the first part of one. -/
def Pass (x : Bridge) (fields fields' : List (String × Json)) : Prop :=
  ∃ ctx q, (x.reconcile ctx).run.Steps Serves fields q fields'

variable {fields fields' : List (String × Json)} {x : Bridge}

/-- The object holds the bridge, and what is recorded of it agrees with its state. -/
structure Holds (fields : List (String × Json)) (x : Bridge) : Prop where
  tidy : Tidy fields
  read : Bridge.ofJson? (.obj fields) = some x
  kept : x.statusOrInitial.Kept

theorem Holds.valid (h : Holds fields x) : x.statusOrInitial.Valid :=
  (Bridge.reads h.tidy h.read).valid

theorem Holds.untouched (h : Holds fields x) (hu : Untouched Bridge.ofJson? fields fields') :
    ∃ x', Holds fields' x' ∧ x'.status = x.status := by
  obtain ⟨x', hx'⟩ := hu.readable
  have hstatus := ((Bridge.ofJson?_iff h.tidy.distinct).mp h.read).2.2
  have hstatus' := ((Bridge.ofJson?_iff hu.distinct).mp hx').2.2
  rw [optional_congr hu.status, hstatus] at hstatus'
  have hsame : x'.status = x.status := (Option.some.inj hstatus').symm
  refine ⟨x', ⟨hu.tidy h.tidy, hx', ?_⟩, hsame⟩
  unfold Bridge.statusOrInitial
  rw [hsame]
  exact h.kept

theorem Holds.patched {s : BridgeStatus} (h : Holds fields x) (hgrows : x.statusOrInitial.Grows s)
    (hvalid : s.Valid) (hkept : s.Kept) : Holds (patchedFields s.changes fields)
      { x with status := some (s.onto x.statusOrInitial) } where
  tidy := h.tidy.patched s.nodup_changes (List.mem_cons_of_mem _ List.mem_cons_self)
  read := Bridge.ofJson?_patched h.tidy h.read hgrows hvalid
  kept := hkept.onto h.kept

theorem Serves.untouched {c : BridgeCall} {r : Answer c} (h : Serves c fields r fields')
    (hc : ∀ ns name s, c ≠ .patchStatus ns name s) :
    Untouched Bridge.ofJson? fields fields' := by
  cases c with
  | patchStatus ns name s => exact absurd rfl (hc ns name s)
  | now => exact h.2
  | _ => exact h

variable {p : BridgePass} {m m' : BridgePass.Moment} {s cur : BridgeStatus}

/-- The pass knows the stored status but for the fields that have been cleared, unless it stores
nothing more. -/
def Knows (p : BridgePass) (φ : BridgePass.Phase) (stored : BridgeStatus) : Prop :=
  φ.isLast = true ∨ ∃ cur : BridgeStatus, φ.Sound p cur ∧ cur.Kept ∧ cur.Valid ∧
    cur.onto stored = stored

/-- What holds of the object in the course of a pass. -/
structure Known (p : BridgePass) (m : BridgePass.Moment) (fields : List (String × Json)) :
    Prop where
  readings : ∀ t, m.read = some t → t.Valid
  stored : ∃ x, Holds fields x ∧ Knows p m.phase x.statusOrInitial

/-- The status that is stored next, over the one that is stored. -/
theorem Known.pending (h : Known p m fields) (hs : m.phase.pending p m.read = some s) :
    ∃ x, Holds fields x ∧ x.statusOrInitial.Grows s ∧ s.Valid ∧ s.Kept ∧
      (m.phase.stored p s).Sound p s := by
  obtain ⟨hread, x, hx, hlast | ⟨cur, hsound, hkept, hvalid, honto⟩⟩ := h
  · rw [BridgePass.pending_of_isLast hlast] at hs
    cases hs
  · have hadvance := hsound.advance hs
    have hgrows : x.statusOrInitial.Grows s := by
      rw [← honto]
      exact ⟨hadvance.grows.times, hadvance.grows.conditions⟩
    exact ⟨x, hx, hgrows, hsound.valid hs hvalid hread, hadvance.kept hkept, hadvance.stored_sound⟩

theorem Known.readings_step {c : BridgeCall} {r : Answer c} (h : Known p m fields)
    (hd : BridgePass.Does p m c r m') (hserve : Serves c fields r fields') :
    ∀ t, m'.read = some t → t.Valid := by
  cases hd with
  | now φ t t' =>
    rintro u ⟨⟩
    exact hserve.1
  | _ => exact h.readings

theorem Known.step {c : BridgeCall} {r : Answer c} (hd : BridgePass.Does p m c r m')
    (hserve : Serves c fields r fields') (h : Known p m fields) : Known p m' fields' := by
  refine ⟨h.readings_step hd hserve, ?_⟩
  by_cases hc : ∃ ns name s, c = .patchStatus ns name s
  · obtain ⟨ns, name, s, rfl⟩ := hc
    obtain ⟨-, -, hs, hanswer⟩ := hd.patchStatus
    have hlost : m'.phase = m.phase.unstored → m'.phase.isLast = true := by
      intro hm'
      rw [hm']
      exact BridgePass.isLast_unstored
    rcases Api.settles_of_patchStatus hserve with hdone | ⟨⟨e, rfl⟩, hsame⟩
    · rw [BridgeStatus.toJson_eq, mergePatch_status] at hdone
      cases hdone
      obtain ⟨x, hx, hgrows, hvalid, hkept, hsound⟩ := h.pending hs
      refine ⟨_, hx.patched hgrows hvalid hkept, ?_⟩
      rcases hanswer with ⟨-, hm'⟩ | ⟨-, hm'⟩
      · rw [hm']
        exact .inr ⟨s, hsound, hkept, hvalid, s.onto_onto _⟩
      · exact .inl (hlost hm')
    · cases hsame
      obtain ⟨x, hx, -⟩ := h.stored
      rcases hanswer with ⟨hr, -⟩ | ⟨-, hm'⟩
      · cases hr
      · exact ⟨x, hx, .inl (hlost hm')⟩
  · have hother : ∀ ns name s, c ≠ .patchStatus ns name s := fun ns name s heq =>
      hc ⟨ns, name, s, heq⟩
    obtain ⟨x, hx, hknows⟩ := h.stored
    obtain ⟨x', hx', hstatus⟩ := hx.untouched (hserve.untouched hother)
    have hsame : x'.statusOrInitial = x.statusOrInitial := by
      rw [Bridge.statusOrInitial, hstatus, Bridge.statusOrInitial]
    refine ⟨x', hx', ?_⟩
    rw [hsame]
    rcases hknows with hlast | ⟨cur, hsound, hkept, hvalid, honto⟩
    · exact .inl (hd.isLast hlast)
    · exact .inr ⟨cur, hd.sound hother hsound hkept, hkept, hvalid, honto⟩

/-- What holds of the object wherever a pass over it has come. -/
theorem Holds.steps (h : Holds fields x) {ctx : BridgeContext}
    {q : Prog BridgeCall (Except Error Action)}
    (hsteps : (x.reconcile ctx).run.Steps Serves fields q fields') :
    ∃ m, q.Keeps (BridgePass.Does (.ofBridge ctx x)) m BridgePass.Ends ∧
      Known (.ofBridge ctx x) m fields' := by
  refine Prog.Steps.invariant (I := Known (.ofBridge ctx x)) ?_ (BridgePass.reconcile_keeps x ctx)
    hsteps ⟨fun t hnone => ?_, x, h, .inr ⟨x.statusOrInitial, ?_⟩⟩
  · exact Known.step
  · cases hnone
  · exact ⟨BridgePass.entry_sound h.kept, h.kept, h.valid, x.statusOrInitial.onto_self⟩

/-- Every object that comes about holds a bridge. -/
theorem holds_of_reachable (h : Reachable Bridge.ofJson? Pass fields) : ∃ x, Holds fields x := by
  induction h with
  | @made fields x hdistinct hnone hread =>
    have htidy : Tidy fields := ⟨hdistinct, by rw [hnone]; exact nofun⟩
    have hstatus := ((Bridge.ofJson?_iff hdistinct).mp hread).2.2
    rw [Readable.optional, hnone] at hstatus
    refine ⟨x, htidy, hread, ?_⟩
    rw [Bridge.statusOrInitial, ← Option.some.inj hstatus]
    exact BridgeStatus.kept_initial
  | changed _ hu ih =>
    obtain ⟨x, hx⟩ := ih
    obtain ⟨x', hx', -⟩ := hx.untouched hu
    exact ⟨x', hx'⟩
  | @passed fields fields' x _ hread hpass ih =>
    obtain ⟨x', hx'⟩ := ih
    obtain rfl : x' = x := Option.some.inj (hx'.read.symm.trans hread)
    obtain ⟨ctx, q, hsteps⟩ := hpass
    obtain ⟨m, -, -, y, hy, -⟩ := hx'.steps hsteps
    exact ⟨y, hy⟩

/-- **The stored status is the computed one but for the fields that it has cleared.** -/
theorem ofJson?_written (h : Reachable Bridge.ofJson? Pass fields)
    (hread : Bridge.ofJson? (.obj fields) = some x) {ctx : BridgeContext} {ns name : String}
    {next : Answer (BridgeCall.patchStatus ns name s) → Prog BridgeCall (Except Error Action)}
    (hsteps : (x.reconcile ctx).run.Steps Serves fields (.call (.patchStatus ns name s) next)
      fields') :
    ∃ y, Bridge.ofJson? (.obj fields') = some y ∧
      Bridge.ofJson? (Json.mergePatch (.obj [("status", s.toJson)]) (.obj fields')) =
        some { y with status := some (s.onto y.statusOrInitial) } := by
  obtain ⟨x', hx⟩ := holds_of_reachable h
  obtain rfl : x' = x := Option.some.inj (hx.read.symm.trans hread)
  obtain ⟨m, hkeeps, hknown⟩ := hx.steps hsteps
  obtain ⟨m', hd, -⟩ := hkeeps (.ok ())
  obtain ⟨y, hy, hgrows, hvalid, hkept, -⟩ := hknown.pending hd.patchStatus.2.2.1
  exact ⟨y, hy.read, (hy.patched hgrows hvalid hkept).read⟩

end StoredBridge

end BridgeOperator
