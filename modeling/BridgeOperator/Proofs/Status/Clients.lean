import BridgeOperator.Client.Reconcile
import BridgeOperator.Proofs.Client.Protocol
import BridgeOperator.Proofs.Status.Object

/-!
What is stored of a client while passes go over it. A pass writes statuses that continue one
another, and what it takes for the stored status differs from it in nothing but the fields that
have been cleared.
-/

namespace BridgeOperator

open Json (Distinct)
open Readable

namespace ClientStatus

variable {s s' : ClientStatus}

@[simp] theorem onto_self (s : ClientStatus) : s.onto s = s := by
  simp [onto]

@[simp] theorem onto_onto (s' s : ClientStatus) : s'.onto (s'.onto s) = s'.onto s := by
  simp [onto, ← Option.or_assoc]

/-- Whatever the new status has not cleared of the former one is stored as it says. -/
theorem onto_eq_iff : s'.onto s = s' ↔
    (s'.message = none → s.message = none) ∧ (s'.secretName = none → s.secretName = none) ∧
    (s'.secretSource = none → s.secretSource = none) := by
  have hor : ∀ {α : Type} (a b : Option α), a.or b = a ↔ (a = none → b = none) := by
    intro α a b
    cases a <;> simp
  obtain ⟨state, times, message, name, source⟩ := s'
  simp [onto, hor]

/-- The status has the times of another one and those that have been read since. -/
structure Continues (reads : List Instant) (s s' : ClientStatus) : Prop where
  grows : s.Grows s'
  times : ∀ e ∈ s'.stateTransitions.toList, e ∈ s.stateTransitions.toList ∨ e.2 ∈ reads

variable {reads : List Instant}

theorem continues_of_eq (h : s'.stateTransitions = s.stateTransitions) :
    Continues reads s s' where
  grows k hk := by rwa [h]
  times e he := .inl (by rwa [← h])

theorem Continues.later (h : Continues reads s s') (t : Instant) : Continues (t :: reads) s s' :=
  ⟨h.grows, fun e he => (h.times e he).imp_right (List.mem_cons_of_mem _)⟩

theorem continues_transition (s : ClientStatus) (state : ClientState) (message : Option String)
    {t : Instant} (ht : t ∈ reads) : Continues reads s (s.transition state message t) where
  grows k hk := by
    unfold transition
    dsimp only
    split
    · exact hk
    · rw [SortedMap.contains_insert, hk, Bool.or_true]
  times e he := by
    unfold transition at he
    dsimp only at he
    split at he
    · exact .inl he
    · rcases SortedMap.mem_insertEntry he with rfl | he
      · exact .inr ht
      · exact .inl he

end ClientStatus

/-- The call writes a status. -/
def ClientCall.isPatch : ClientCall → Bool
  | patchStatus .. => true
  | _ => false

namespace ClientPass

open ClientStatus (Continues)

/-- The status that was written last or found by the pass, unless nothing more is written, and the
readings of the clock so far. -/
structure Draft where
  cur : Option ClientStatus
  reads : List Instant

/-- What a pass may write. -/
inductive Writes : Protocol ClientCall Draft
  | now (d : Draft) (t : Instant) : Writes d .now t ⟨d.cur, t :: d.reads⟩
  | aside (d : Draft) (c : ClientCall) (r : Answer c)
      (hc : c.isPatch = false) : Writes d c r d
  | store (cur s : ClientStatus) (reads : List Instant) (ns name : String)
      (hs : Continues reads cur s) :
      Writes ⟨some cur, reads⟩ (.patchStatus ns name s) (.ok ()) ⟨some s, reads⟩
  | lose (cur s : ClientStatus) (reads : List Instant) (ns name : String) (e : Error)
      (hs : Continues reads cur s) :
      Writes ⟨some cur, reads⟩ (.patchStatus ns name s) (.error e) ⟨none, reads⟩

/-- Any way for a pass to end. -/
def Anyhow {α : Type} : α → Draft → Prop := fun _ _ => True

namespace Writes

variable {p : ClientPass} {d : Draft} {s cur : ClientStatus} {α : Type}

theorem publish (d : Draft) (n : Kube.Notice) (r : Answer (ClientCall.publish n)) :
    Writes d (.publish n) r d := .aside d _ r rfl

/-- A status is stored or lost. -/
theorem records {reads : List Instant} (hs : Continues reads cur s) (ns name : String)
    (r : Except Error Unit) : ∃ d, Writes ⟨some cur, reads⟩ (.patchStatus ns name s) r d ∧
      (r = .ok () → d = ⟨some s, reads⟩) := by
  cases r with
  | ok u => exact ⟨_, .store cur s reads ns name hs, fun _ => rfl⟩
  | error e => exact ⟨_, .lose cur s reads ns name e hs, nofun⟩

theorem mayEnd (d : Draft) : MayEnd Writes p s d := fun r =>
  ⟨d, .aside d _ r rfl, fun _ _ r' => ⟨d, .aside d _ r' rfl⟩⟩

/-- A transition that is dated by the last reading of the clock. -/
theorem dates {reads : List Instant} (state : ClientState) (message : Option String)
    (t : Instant) : ∃ d, Writes ⟨some s, reads⟩ .now t d ∧ ∀ r, ∃ d', Writes d
      (.patchStatus p.namespaceName p.client.name (s.transition state message t)) r d' := by
  refine ⟨_, .now _ t, fun r => ?_⟩
  obtain ⟨d', hdoes, -⟩ :=
    records (ClientStatus.continues_transition s state message List.mem_cons_self) _ _ r
  exact ⟨d', hdoes⟩

theorem keeps_watching {reads : List Instant} :
    (p.watching s).run.Keeps Writes ⟨some s, reads⟩ Anyhow := by
  refine watching_keeps fun now => ⟨_, .now _ now, ?_⟩
  refine supervise_keeps (fun deadline _ => ?_) fun _ => ?_
  · exact moveToWaiting_keeps publish fun message t => dates .waiting message t
  · refine delete_keeps publish (fun _ => mayEnd _) fun _ message t => ?_
    obtain ⟨d, hnow, hrecord⟩ := dates (p := p) (s := s) .expired message t
    refine ⟨d, hnow, fun r => ?_⟩
    obtain ⟨d', hdoes⟩ := hrecord r
    exact ⟨d', hdoes, mayEnd d'⟩

/-- A pass stores its status unless it is the one it has found. -/
theorem keeps_storing {reads : List Instant}
    (hs : Continues reads (p.client.status.getD .initial) s) :
    (p.storing s).run.Keeps Writes ⟨some (p.client.status.getD .initial), reads⟩ Anyhow := by
  refine storing_keeps (fun _ r => ?_) fun hfound => ?_
  · obtain ⟨d, hdoes, hstored⟩ := records hs p.namespaceName p.client.name r
    refine ⟨d, hdoes, fun hr => ?_⟩
    rw [hstored hr]
    exact keeps_watching
  · rw [hfound]
    exact keeps_watching

theorem keeps_run {reads : List Instant}
    (hs : Continues reads (p.client.status.getD .initial) s) :
    (p.run s).run.Keeps Writes ⟨some (p.client.status.getD .initial), reads⟩ Anyhow := by
  refine run_keeps (fun _ => ?_) fun _ => keeps_storing hs
  refine syncSecret_keeps publish (fun _ r => .aside _ _ r rfl) (fun _ r => .aside _ _ r rfl)
    (fun _ r => .aside _ _ r rfl) (fun s' hs' => ?_) fun e => nofun
  rintro _ ⟨⟩
  have hsame := hs'.stateTransitions
  refine keeps_storing ⟨fun k hk => ?_, fun e he => hs.times e (hsame ▸ he)⟩
  rw [hsame]
  exact hs.grows k hk

/-- Whatever reconciling a client writes continues the status that was found. -/
theorem keeps_reconcile (c : Client) (config : OperatorConfig) :
    (c.reconcile config).run.Keeps Writes ⟨some (c.status.getD .initial), []⟩ Anyhow := by
  refine Client.reconcile_keeps (fun _ r => .aside _ _ r rfl) (fun _ r => .aside _ _ r rfl)
    (fun _ r => .aside _ _ r rfl) (fun hnew ns _ message t => ⟨_, .now _ t, ?_⟩) fun ns _ => ?_
  · refine keeps_run (p := ⟨config, c, ns⟩) ?_
    rw [hnew]
    exact ClientStatus.continues_transition _ _ _ List.mem_cons_self
  · exact keeps_run (p := ⟨config, c, ns⟩) (ClientStatus.continues_of_eq rfl)

end Writes

end ClientPass

namespace StoredClient

open ClientPass (Draft Writes)

/-- How a pass over a stored client is answered. -/
def Serves : (c : ClientCall) → List (String × Json) → Answer c → List (String × Json) → Prop
  | .patchStatus ns name s, fields, r, fields' =>
    (Api.clients.patchStatus ns name s.toJson).run.Exec Api.Serves (.obj fields) r (.obj fields')
  | .now, fields, t, fields' => t.Valid ∧ Untouched Client.ofJson? fields fields'
  | .publish _, fields, _, fields' | .addFinalizer .., fields, _, fields'
  | .removeFinalizer .., fields, _, fields' | .deleteClient .., fields, _, fields'
  | .getSecret .., fields, _, fields' | .createSecret .., fields, _, fields'
  | .deleteSecret .., fields, _, fields' | .deleteBridgesOf .., fields, _, fields' =>
    Untouched Client.ofJson? fields fields'

/-- A pass over the client `x`, or the first part of one. -/
def Pass (x : Client) (fields fields' : List (String × Json)) : Prop :=
  ∃ config q, (x.reconcile config).run.Steps Serves fields q fields'

variable {fields fields' : List (String × Json)} {x : Client}

theorem Serves.untouched {c : ClientCall} {r : Answer c} (h : Serves c fields r fields')
    (hc : c.isPatch = false) : Untouched Client.ofJson? fields fields' := by
  cases c with
  | patchStatus ns name s => cases hc
  | now => exact h.2
  | _ => exact h

/-- The object holds the client. -/
structure Holds (fields : List (String × Json)) (x : Client) : Prop where
  tidy : Tidy fields
  read : Client.ofJson? (.obj fields) = some x

theorem Holds.valid (h : Holds fields x) :
    ValidTimes (x.status.getD .initial).stateTransitions :=
  (Client.reads h.tidy h.read).valid

theorem Holds.untouched (h : Holds fields x) (hu : Untouched Client.ofJson? fields fields') :
    ∃ x', Holds fields' x' ∧ x'.status = x.status := by
  obtain ⟨x', hx'⟩ := hu.readable
  have hstatus := ((Client.ofJson?_iff h.tidy.distinct).mp h.read).2.2
  have hstatus' := ((Client.ofJson?_iff hu.distinct).mp hx').2.2
  rw [optional_congr hu.status, hstatus] at hstatus'
  exact ⟨x', ⟨hu.tidy h.tidy, hx'⟩, (Option.some.inj hstatus').symm⟩

theorem Holds.patched {s : ClientStatus} (h : Holds fields x)
    (hgrows : (x.status.getD .initial).Grows s) (hvalid : ValidTimes s.stateTransitions) :
    Holds (patchedFields s.changes fields)
      { x with status := some (s.onto (x.status.getD .initial)) } where
  tidy := h.tidy.patched s.nodup_changes (List.mem_cons_of_mem _ List.mem_cons_self)
  read := Client.ofJson?_patched h.tidy h.read hgrows hvalid

variable {d d' : Draft} {s : ClientStatus}

/-- What holds of the object in the course of a pass. The status that the pass goes by is the stored
one but for the fields that have been cleared, unless nothing more is written. -/
structure Known (d : Draft) (fields : List (String × Json)) : Prop where
  readings : ∀ t ∈ d.reads, t.Valid
  stored : ∃ x, Holds fields x ∧ ∀ cur, d.cur = some cur →
    ValidTimes cur.stateTransitions ∧
      cur.onto (x.status.getD .initial) = x.status.getD .initial

/-- The status that is written next, over the one that is stored. -/
theorem Known.pending {cur : ClientStatus} {reads : List Instant}
    (h : Known ⟨some cur, reads⟩ fields)
    (hs : cur.Continues reads s) : ∃ x, Holds fields x ∧
      (x.status.getD .initial).Grows s ∧ ValidTimes s.stateTransitions := by
  obtain ⟨x, hx, hcur⟩ := h.stored
  obtain ⟨hvalid, honto⟩ := hcur cur rfl
  refine ⟨x, hx, ?_, fun e he => ?_⟩
  · rw [← honto]
    exact hs.grows
  · rcases hs.times e he with he | he
    · exact hvalid e he
    · exact h.readings _ he

theorem Known.step {c : ClientCall} {r : Answer c} (hd : Writes d c r d')
    (hserve : Serves c fields r fields') (h : Known d fields) : Known d' fields' := by
  have hother : Untouched Client.ofJson? fields fields' → ∃ x, Holds fields' x ∧
      ∀ cur, d.cur = some cur → ValidTimes cur.stateTransitions ∧
        cur.onto (x.status.getD .initial) = x.status.getD .initial := by
    intro hu
    obtain ⟨x, hx, hcur⟩ := h.stored
    obtain ⟨x', hx', hstatus⟩ := hx.untouched hu
    exact ⟨x', hx', by rwa [hstatus]⟩
  cases hd with
  | now d t => exact ⟨List.forall_mem_cons.mpr ⟨hserve.1, h.readings⟩, hother hserve.2⟩
  | aside d c r hc => exact ⟨h.readings, hother (hserve.untouched hc)⟩
  | store cur s reads ns name hs =>
    obtain ⟨x, hx, hgrows, hvalid⟩ := h.pending hs
    refine ⟨h.readings, ?_⟩
    rcases Api.settles_of_patchStatus hserve with hdone | ⟨⟨e, he⟩, -⟩
    · rw [ClientStatus.toJson_eq, mergePatch_status] at hdone
      cases hdone
      refine ⟨_, hx.patched hgrows hvalid, ?_⟩
      rintro _ ⟨⟩
      exact ⟨hvalid, s.onto_onto _⟩
    · cases he
  | lose cur s reads ns name e hs =>
    refine ⟨h.readings, ?_⟩
    rcases Api.settles_of_patchStatus hserve with hdone | ⟨-, hsame⟩
    · rw [ClientStatus.toJson_eq, mergePatch_status] at hdone
      cases hdone
      obtain ⟨x, hx, hgrows, hvalid⟩ := h.pending hs
      exact ⟨_, hx.patched hgrows hvalid, fun _ hnone => by cases hnone⟩
    · cases hsame
      obtain ⟨x, hx, -⟩ := h.stored
      exact ⟨x, hx, fun _ hnone => by cases hnone⟩

/-- What holds of the object wherever a pass over it has come. -/
theorem Holds.steps (h : Holds fields x) {config : OperatorConfig}
    {q : Prog ClientCall (Except Error Action)}
    (hsteps : (x.reconcile config).run.Steps Serves fields q fields') :
    ∃ d, q.Keeps Writes d ClientPass.Anyhow ∧ Known d fields' := by
  refine Prog.Steps.invariant (I := Known) ?_ (Writes.keeps_reconcile x config) hsteps
    ⟨nofun, x, h, ?_⟩
  · exact Known.step
  · rintro _ ⟨⟩
    exact ⟨h.valid, ClientStatus.onto_self _⟩

/-- Every object that comes about holds a client. -/
theorem holds_of_reachable (h : Reachable Client.ofJson? Pass fields) : ∃ x, Holds fields x := by
  induction h with
  | @made fields x hdistinct hnone hread =>
    exact ⟨x, ⟨hdistinct, by rw [hnone]; exact nofun⟩, hread⟩
  | changed _ hu ih =>
    obtain ⟨x, hx⟩ := ih
    obtain ⟨x', hx', -⟩ := hx.untouched hu
    exact ⟨x', hx'⟩
  | @passed fields fields' x _ hread hpass ih =>
    obtain ⟨x', hx'⟩ := ih
    obtain rfl : x' = x := Option.some.inj (hx'.read.symm.trans hread)
    obtain ⟨config, q, hsteps⟩ := hpass
    obtain ⟨d, -, -, y, hy, -⟩ := hx'.steps hsteps
    exact ⟨y, hy⟩

/-- **The stored status is the computed one but for the fields that it has cleared.** -/
theorem ofJson?_written (h : Reachable Client.ofJson? Pass fields)
    (hread : Client.ofJson? (.obj fields) = some x) {config : OperatorConfig} {ns name : String}
    {next : Answer (ClientCall.patchStatus ns name s) → Prog ClientCall (Except Error Action)}
    (hsteps : (x.reconcile config).run.Steps Serves fields (.call (.patchStatus ns name s) next)
      fields') :
    ∃ y, Client.ofJson? (.obj fields') = some y ∧
      Client.ofJson? (Json.mergePatch (.obj [("status", s.toJson)]) (.obj fields')) =
        some { y with status := some (s.onto (y.status.getD .initial)) } := by
  obtain ⟨x', hx⟩ := holds_of_reachable h
  obtain rfl : x' = x := Option.some.inj (hx.read.symm.trans hread)
  obtain ⟨d, hkeeps, hknown⟩ := hx.steps hsteps
  obtain ⟨d', hd, -⟩ := hkeeps (.ok ())
  cases hd with
  | aside _ _ _ hc => cases hc
  | store cur _ reads _ _ hs =>
    obtain ⟨y, hy, hgrows, hvalid⟩ := hknown.pending hs
    exact ⟨y, hy.read, (hy.patched hgrows hvalid).read⟩

end StoredClient

end BridgeOperator
