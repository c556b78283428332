import BridgeOperator.Bridge.Pass
import BridgeOperator.Proofs.Program
import BridgeOperator.Proofs.SortedMap
import BridgeOperator.Provider.Standard

/-!
What a passed validation says about the other bridges, for both providers the operator comes with,
and the order of arrival that it goes by.
-/

namespace BridgeOperator

namespace Instant

variable {s t : Instant}

theorem before_asymm (h : s.before t = true) : t.before s = false := by
  simp only [before, Bool.or_eq_true, Bool.and_eq_true, decide_eq_true_eq] at h
  simp only [before, Bool.or_eq_false_iff, Bool.and_eq_false_iff, decide_eq_false_iff_not]
  omega

theorem before_total (h : s ≠ t) : s.before t = true ∨ t.before s = true := by
  have hne : s.seconds ≠ t.seconds ∨ s.nanos ≠ t.nanos := by
    by_cases hs : s.seconds = t.seconds
    · refine .inr fun hn => h ?_
      cases s
      cases t
      cases hs
      cases hn
      rfl
    · exact .inl hs
  simp only [before, Bool.or_eq_true, Bool.and_eq_true, decide_eq_true_eq]
  omega

theorem before_irrefl : t.before t = false := by
  simp [before]

end Instant

namespace Bridge

variable {a b : Bridge}

theorem arrivedBefore_asymm (h : a.arrivedBefore b = true) : b.arrivedBefore a = false := by
  unfold arrivedBefore at h ⊢
  cases ha : a.metadata.creationTimestamp <;> cases hb : b.metadata.creationTimestamp <;>
    simp only [ha, hb] at h ⊢
  case none.none => simpa using String.lt_asymm (by simpa using h)
  case none.some => cases h
  case some.some s t =>
    simp only [Bool.or_eq_true, Bool.and_eq_true, decide_eq_true_eq] at h
    rcases h with h | ⟨rfl, h⟩
    · have hne : t ≠ s := by
        rintro rfl
        rw [Instant.before_irrefl] at h
        cases h
      simp [Instant.before_asymm h, hne]
    · simp only [Instant.before_irrefl, Bool.false_or, decide_true, Bool.true_and,
        decide_eq_false_iff_not]
      exact String.lt_asymm h

theorem arrivedBefore_total
    (h : a.metadata.creationTimestamp = b.metadata.creationTimestamp → a.name ≠ b.name) :
    a.arrivedBefore b = true ∨ b.arrivedBefore a = true := by
  have hname : a.name ≠ b.name → a.name < b.name ∨ b.name < a.name := by
    intro hne
    rcases String.le_total a.name b.name with hle | hle
    · exact .inl (Std.lt_of_le_of_ne hle hne)
    · exact .inr (Std.lt_of_le_of_ne hle hne.symm)
  unfold arrivedBefore
  cases ha : a.metadata.creationTimestamp <;> cases hb : b.metadata.creationTimestamp <;>
    simp only [ha, hb] at h ⊢
  case none.none => simpa using hname (h trivial)
  case none.some => exact .inr trivial
  case some.none => exact .inl trivial
  case some.some s t =>
    by_cases hst : s = t
    · subst hst
      simpa [Instant.before_irrefl] using hname (h rfl)
    · rcases Instant.before_total hst with hb | hb
      · simp [hb]
      · simp [hb]

theorem sameWorkload_comm : a.sameWorkload b = b.sameWorkload a := by
  unfold sameWorkload
  congr 1
  · simp only [eq_comm]
  · cases WorkloadRef.parse a.spec.target <;> cases WorkloadRef.parse b.spec.target <;>
      simp only [eq_comm]

theorem sameTarget_comm : a.sameTarget b = b.sameTarget a := by
  unfold sameTarget
  rw [sameWorkload_comm]
  simp only [eq_comm]

theorem workload_eq_ok {target : WorkloadRef} (h : b.workload = .ok target) :
    WorkloadRef.parse b.spec.target = .ok target := by
  unfold workload at h
  cases hparse : WorkloadRef.parse b.spec.target with
  | error fault =>
    rw [hparse] at h
    cases h
  | ok found =>
    rw [hparse] at h
    cases h
    rfl

/-- What two bridges target is a matter of their specs alone. -/
theorem sameTarget_congr {a' b' : Bridge} (ha : a'.spec = a.spec) (hb : b'.spec = b.spec) :
    a'.sameTarget b' = a.sameTarget b := by
  unfold sameTarget sameWorkload
  rw [ha, hb]

/-- Nobody owns an overlap if none of the other bridges that overlap does. -/
theorem owningPeer_eq_none {request : Bridge} {peers : List Bridge} {overlaps : Bridge → Bool} :
    request.owningPeer peers overlaps = none ↔
      ∀ peer ∈ peers, request.sameObject peer = false → overlaps peer = true →
        peer.owns request = false := by
  simp [owningPeer]

/-- A request may have its target if nobody else who has the same one owns it. -/
theorem ensureExclusive_eq_ok {request : Bridge} {peers : List Bridge} :
    request.ensureExclusive peers = .ok () ↔
      ∀ peer ∈ peers, request.sameObject peer = false → request.sameTarget peer = true →
        peer.owns request = false := by
  rw [← owningPeer_eq_none]
  unfold ensureExclusive
  cases request.owningPeer peers request.sameTarget <;> simp

/-- A request may have a workload if nobody else of the provider owns a container of it. -/
theorem ensureWorkloadExclusive_eq_ok {request : Bridge} {peers : List Bridge}
    {kind : ProviderKind} : request.ensureWorkloadExclusive peers kind = .ok () ↔
      ∀ peer ∈ peers, request.sameObject peer = false → peer.spec.provider = kind.name →
        request.sameWorkload peer = true → peer.owns request = false := by
  let overlaps (peer : Bridge) : Bool :=
    peer.spec.provider = kind.name && request.sameWorkload peer
  have hnone : request.owningPeer peers overlaps = none ↔ _ := owningPeer_eq_none
  simp only [overlaps, Bool.and_eq_true, decide_eq_true_eq, and_imp] at hnone
  rw [← hnone]
  unfold ensureWorkloadExclusive
  dsimp only
  split
  · next hfree => simp [hfree]
  · next owner howner => simp [howner]

end Bridge

section

variable {σ : Type} {serves : (c : TargetCall) → σ → Answer c → σ → Prop} {s s' : σ}

/-- An attempt that begins with a check can only succeed if the check does. -/
theorem Attempt.exec_check {α : Type} {check : Except Error Unit} {rest : Unit → Work α} {a : α}
    (h : (liftM check >>= rest : Work α).run.Exec serves s (.ok a) s') : check = .ok () := by
  cases check with
  | ok u => rfl
  | error e =>
    obtain ⟨hr, -⟩ := Prog.exec_pure.mp h
    cases hr

theorem Registry.build_eq_ok {r : Registry} {name : String} {b : Binding} {q : BoundProvider}
    (h : r.build name b = .ok q) : q.binding = b ∧ r.get? name = some q.provider := by
  unfold Registry.build at h
  cases hget : r.get? name with
  | none =>
    rw [hget] at h
    cases h
  | some provider =>
    rw [hget] at h
    cases h
    exact ⟨rfl, rfl⟩

theorem Binding.ofBridge_eq_ok {config : OperatorConfig} {b : Bridge} {x : Binding}
    (h : Binding.ofBridge config b = .ok x) : ∃ target, b.workload = .ok target ∧
      x = { config, bridge := b.name, reference := b.reference, spec := b.spec, target } := by
  unfold Binding.ofBridge at h
  cases ht : b.workload with
  | error e =>
    rw [ht] at h
    cases h
  | ok target =>
    rw [ht] at h
    cases h
    exact ⟨target, rfl, rfl⟩

/-- Two bridges are on one workload if their bindings are. -/
theorem Bridge.sameWorkload_iff {config : OperatorConfig} {b c : Bridge} {x y : Binding}
    (hx : Binding.ofBridge config b = .ok x) (hy : Binding.ofBridge config c = .ok y) :
    b.sameWorkload c = true ↔ x.namespaceName = y.namespaceName ∧ x.target = y.target := by
  obtain ⟨target, htarget, rfl⟩ := Binding.ofBridge_eq_ok hx
  obtain ⟨target', htarget', rfl⟩ := Binding.ofBridge_eq_ok hy
  unfold sameWorkload
  rw [workload_eq_ok htarget, workload_eq_ok htarget']
  simp [Binding.namespaceName]

theorem Bridge.sameTarget_iff {config : OperatorConfig} {b c : Bridge} {x y : Binding}
    (hx : Binding.ofBridge config b = .ok x) (hy : Binding.ofBridge config c = .ok y) :
    b.sameTarget c = true ↔
      x.namespaceName = y.namespaceName ∧ x.target = y.target ∧ x.container = y.container := by
  have hcontainer : b.spec.targetContainer = c.spec.targetContainer ↔
      x.container = y.container := by
    obtain ⟨_, -, rfl⟩ := Binding.ofBridge_eq_ok hx
    obtain ⟨_, -, rfl⟩ := Binding.ofBridge_eq_ok hy
    exact Iff.rfl
  unfold sameTarget
  rw [Bool.and_eq_true, sameWorkload_iff hx hy, decide_eq_true_eq, hcontainer, and_assoc]

/-- What the provider of a bridge is bound to, and by which name it was found. -/
theorem Bridge.provider_eq_ok {ctx : BridgeContext} {b : Bridge} {q : BoundProvider}
    (h : b.provider ctx = .ok q) : Binding.ofBridge ctx.config b = .ok q.binding ∧
      ctx.registry.get? b.spec.provider = some q.provider := by
  unfold Bridge.provider at h
  cases hb : Binding.ofBridge ctx.config b with
  | error e =>
    rw [hb] at h
    cases h
  | ok binding =>
    rw [hb] at h
    obtain ⟨rfl, hq⟩ := Registry.build_eq_ok h
    exact ⟨rfl, hq⟩

theorem Bridge.provider_spec {ctx : BridgeContext} {b : Bridge} {q : BoundProvider}
    (h : b.provider ctx = .ok q) : q.binding.spec = b.spec := by
  obtain ⟨target, -, hx⟩ := Binding.ofBridge_eq_ok (Bridge.provider_eq_ok h).1
  rw [hx]

/-- There are two providers to be found. -/
theorem Registry.get_standard {name : String} {provider : Provider}
    (h : Registry.standard.get? name = some provider) :
    name = ProviderKind.carrier2.name ∧ provider = .sidecar ∨
      name = ProviderKind.duplicate.name ∧ provider = .duplicate := by
  have hmem := SortedMap.mem_ofList (SortedMap.mem_of_get? h)
  simpa using hmem

/-- Both providers refuse a request whose target is owned by another bridge. -/
theorem validate_exclusive {config : OperatorConfig} {b request : Bridge} {q : BoundProvider}
    {peers : List Bridge} (hq : b.provider ⟨config, .standard⟩ = .ok q)
    (h : (q.provider.validate q.binding request peers).run.Exec serves s (.ok ()) s') :
    request.ensureExclusive peers = .ok () := by
  rcases Registry.get_standard (Bridge.provider_eq_ok hq).2 with ⟨-, hp⟩ | ⟨-, hp⟩
  · rw [hp] at h
    exact Attempt.exec_check h
  · rw [hp] at h
    exact Attempt.exec_check h

end
end BridgeOperator
