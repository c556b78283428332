import BridgeOperator.Proofs.World.Admission
import Mathlib.Data.List.Pairwise

/-!
Requests for one container that nobody holds yet. Those are let through before which nobody
arrived, and there always is one of them. There is only one unless two of them tie
(`one_goes_first_iff`): a name is that of one bridge within a namespace, and bridges of two
namespaces may have been created in the same second.
-/

namespace BridgeOperator

theorem Instant.before_trans {s t u : Instant} (hst : s.before t = true)
    (htu : t.before u = true) : s.before u = true := by
  simp only [before, Bool.or_eq_true, Bool.and_eq_true, decide_eq_true_eq] at *
  omega

namespace Bridge

variable {a b c : Bridge} {l l' : List Bridge}

theorem arrivedBefore_irrefl : b.arrivedBefore b = false := by
  cases h : b.arrivedBefore b with
  | false => rfl
  | true => rw [← h, arrivedBefore_asymm h]

theorem arrivedBefore_trans (hab : a.arrivedBefore b = true) (hbc : b.arrivedBefore c = true) :
    a.arrivedBefore c = true := by
  unfold arrivedBefore at *
  cases ha : a.metadata.creationTimestamp <;> cases hb : b.metadata.creationTimestamp <;>
    cases hc : c.metadata.creationTimestamp <;>
    simp only [ha, hb, hc, Bool.or_eq_true, Bool.and_eq_true, decide_eq_true_eq,
      Bool.false_eq_true] at *
  case none.none.none => exact String.lt_trans hab hbc
  case some.some.some s t u =>
    rcases hab with hst | ⟨rfl, hab⟩
    · rcases hbc with htu | ⟨rfl, -⟩
      · exact .inl (Instant.before_trans hst htu)
      · exact .inl hst
    · rcases hbc with hsu | ⟨rfl, hbc⟩
      · exact .inl hsu
      · exact .inr ⟨rfl, String.lt_trans hab hbc⟩

/-- Nobody arrived before a bridge and after one of the same creation time and name. -/
theorem arrivedBefore_congr
    (ht : b.metadata.creationTimestamp = c.metadata.creationTimestamp) (hn : b.name = c.name) :
    a.arrivedBefore b = a.arrivedBefore c := by
  unfold arrivedBefore
  rw [ht, hn]

/-- Two objects of the cluster: they differ in name or namespace, and in uid if both have one. -/
structure Apart (a b : Bridge) : Prop where
  place : ¬ (a.name = b.name ∧ a.metadata.namespaceName = b.metadata.namespaceName)
  uid : ∀ u, a.metadata.uid = some u → b.metadata.uid ≠ some u

theorem Apart.symm (h : a.Apart b) : b.Apart a where
  place := fun ⟨hn, hns⟩ => h.place ⟨hn.symm, hns.symm⟩
  uid u hb ha := h.uid u ha hb

theorem Apart.sameObject (h : a.Apart b) : a.sameObject b = false := by
  unfold Bridge.sameObject
  cases ha : a.metadata.uid <;> cases hb : b.metadata.uid <;> simp only
  case some.some u v =>
    refine decide_eq_false fun huv => h.uid u ha ?_
    rw [hb, huv]
  all_goals simpa using fun hn hns => h.place ⟨hn, hns⟩

/-- Nobody in the list arrived before the bridge. -/
def GoesFirst (l : List Bridge) (b : Bridge) : Prop := ∀ c ∈ l, c.arrivedBefore b = false

theorem exists_goesFirst (h : l ≠ []) : ∃ b ∈ l, GoesFirst l b := by
  induction l with
  | nil => exact absurd rfl h
  | cons a l ih =>
    by_cases hl : l = []
    · subst hl
      exact ⟨a, List.mem_singleton_self a, by simp [GoesFirst, arrivedBefore_irrefl]⟩
    · obtain ⟨b, hb, hfirst⟩ := ih hl
      cases hab : a.arrivedBefore b with
      | false =>
        exact ⟨b, .tail _ hb, fun c hc => (List.mem_cons.mp hc).elim (· ▸ hab) (hfirst c)⟩
      | true =>
        refine ⟨a, .head _, fun c hc => ?_⟩
        rcases List.mem_cons.mp hc with rfl | hc
        · exact arrivedBefore_irrefl
        · -- whoever came before `a` would have come before `b` as well
          refine Bool.eq_false_iff.mpr fun hca => ?_
          exact Bool.eq_false_iff.mp (hfirst c hc) (arrivedBefore_trans hca hab)

/-- Different bridges that all request one container. -/
structure Contest (l : List Bridge) : Prop where
  apart : l.Pairwise Apart
  requested : ∀ b ∈ l, b.state = .requested
  target : l.Pairwise fun b c => b.sameTarget c = true

section

variable (h : Contest l) (hb : b ∈ l) (hc : c ∈ l) (hne : b ≠ c)

include h hb hc hne

theorem Contest.apart_of_ne : b.Apart c :=
  have : Std.Symm Apart := ⟨fun _ _ => Apart.symm⟩
  h.apart.forall hb hc hne

theorem Contest.sameTarget_of_ne : b.sameTarget c = true :=
  have : Std.Symm fun b c : Bridge => b.sameTarget c = true :=
    ⟨fun _ _ hs => sameTarget_comm.trans hs⟩
  h.target.forall hb hc hne

end

/-- Two bridges go first that were created at one time under one name. -/
def Tied (l : List Bridge) : Prop :=
  ∃ b ∈ l, ∃ c ∈ l, b ≠ c ∧ GoesFirst l b ∧
    b.metadata.creationTimestamp = c.metadata.creationTimestamp ∧ b.name = c.name

/-- The bridges that go first are let through. -/
theorem Contest.ensureExclusive_iff (h : Contest l) (hb : b ∈ l) :
    b.ensureExclusive l = .ok () ↔ GoesFirst l b := by
  have howns : ∀ c ∈ l, c.owns b = c.arrivedBefore b := by
    intro c hc
    simp [owns, h.requested c hc, BridgeState.holdsTarget]
  rw [ensureExclusive_eq_ok]
  constructor
  · intro hfree c hc
    by_cases hbc : b = c
    · subst hbc
      exact arrivedBefore_irrefl
    · rw [← howns c hc]
      exact hfree c hc (h.apart_of_ne hb hc hbc).sameObject (h.sameTarget_of_ne hb hc hbc)
  · intro hfirst c hc _ _
    rw [howns c hc]
    exact hfirst c hc

/-- Two bridges that both go first were created at one time under one name. -/
theorem GoesFirst.tied (hb : b ∈ l) (hc : c ∈ l) (hfirst : GoesFirst l b)
    (hfirst' : GoesFirst l c) (hne : b ≠ c) : Tied l := by
  by_contra htied
  have htotal := arrivedBefore_total (a := b) (b := c) fun ht hn =>
    htied ⟨b, hb, c, hc, hne, hfirst, ht, hn⟩
  rw [hfirst c hc, hfirst' b hb] at htotal
  simp at htotal

/-- Of different bridges that request one container some are let through, whatever order they are
listed in, and it is exactly one unless two of those that go first tie. -/
theorem one_goes_first_iff (hne : l ≠ []) (h : Contest l) :
    (∃ b ∈ l, b.ensureExclusive l = .ok ()) ∧
      (∀ l' : List Bridge, l'.Perm l → ∀ b : Bridge,
        b.ensureExclusive l' = .ok () ↔ b.ensureExclusive l = .ok ()) ∧
      ((∃! b, b ∈ l ∧ b.ensureExclusive l = .ok ()) ↔ ¬ Tied l) := by
  obtain ⟨b, hb, hfirst⟩ := exists_goesFirst hne
  have hadmitted := (h.ensureExclusive_iff hb).mpr hfirst
  refine ⟨⟨b, hb, hadmitted⟩, fun l' hperm c => ?_, fun hunique htied => ?_, fun huntied => ?_⟩
  · simp only [ensureExclusive_eq_ok, hperm.mem_iff]
  · obtain ⟨c, hc, d, hd, hcd, hcfirst, ht, hn⟩ := htied
    have hdfirst : GoesFirst l d := fun x hx => by
      rw [← arrivedBefore_congr ht hn]
      exact hcfirst x hx
    exact hcd (hunique.unique ⟨hc, (h.ensureExclusive_iff hc).mpr hcfirst⟩
      ⟨hd, (h.ensureExclusive_iff hd).mpr hdfirst⟩)
  · refine ⟨b, ⟨hb, hadmitted⟩, fun c ⟨hc, hcadmitted⟩ => ?_⟩
    by_contra hcb
    exact huntied
      (hfirst.tied hb hc ((h.ensureExclusive_iff hc).mp hcadmitted) fun he => hcb he.symm)

end Bridge

/-! ## Three requests for one container -/

namespace Sample

/-- The request of another namespace, under the name of the first one. -/
def namesake : Bridge :=
  { first with
    metadata := { metadata "first" with namespaceName := some "carts", uid := some "namesake" } }

theorem contest_first_second : Bridge.Contest [first, second] where
  apart := List.pairwise_pair.mpr ⟨fun h => absurd h.1 (by decide),
    by simp [first, second, bridge, metadata]⟩
  requested := by simp [first, second, bridge, Bridge.state]
  target := List.pairwise_pair.mpr rfl

theorem contest_first_namesake : Bridge.Contest [first, namesake] where
  apart := List.pairwise_pair.mpr ⟨by simp [first, namesake, bridge, metadata],
    by simp [first, namesake, bridge, metadata]⟩
  requested := by simp [first, namesake, bridge, Bridge.state]
  target := List.pairwise_pair.mpr rfl

end Sample

theorem Bridge.one_goes_first_iff_shop : Bridge.Contest [Sample.first, Sample.second] ∧
    ((∃! b, b ∈ [Sample.first, Sample.second] ∧
      b.ensureExclusive [Sample.first, Sample.second] = .ok ()) ↔
        ¬ Bridge.Tied [Sample.first, Sample.second]) :=
  ⟨Sample.contest_first_second,
    (Bridge.one_goes_first_iff (List.cons_ne_nil _ _) Sample.contest_first_second).2.2⟩

/-- Two bridges of one name and one creation time are both let through. -/
theorem Bridge.not_always_one_first : ¬ ∀ l : List Bridge, l ≠ [] → Bridge.Contest l →
    ∃! b, b ∈ l ∧ b.ensureExclusive l = .ok () := by
  intro hall
  have hunique := hall _ (List.cons_ne_nil _ _) Sample.contest_first_namesake
  have hsame := hunique.unique ⟨.head _, rfl⟩ ⟨.tail _ (.head _), rfl⟩
  have hnamespace := congrArg (·.metadata.namespaceName) hsame
  simp [Sample.first, Sample.namesake, Sample.bridge, Sample.metadata] at hnamespace

end BridgeOperator
