import BridgeOperator.Client.Expiration

/-!
When a client may move on, by the clock. A sum of instants is what it is in nanoseconds, so that a
deletion waits for the time of the sunset and the grace period, or for the last instant there is.
-/

namespace BridgeOperator

namespace Instant

/-- The nanoseconds since 1970. A leap second repeats those of the second before it. -/
def sinceEpoch (t : Instant) : Int :=
  t.seconds * 1000000000 + (if t.nanos < 1000000000 then t.nanos else t.nanos - 1000000000 : Nat)

/-- The instant lies in no leap second. -/
def Ordinary (t : Instant) : Prop := t.nanos < 1000000000

variable {a b t : Instant}

theorem ordinary_last : last.Ordinary := by
  show 999999999 < 1000000000
  decide

theorem notAfter_iff : a.notAfter b = true ↔
    a.seconds < b.seconds ∨ a.seconds = b.seconds ∧ a.nanos ≤ b.nanos := by
  simp only [notAfter, before, Bool.not_eq_true', Bool.or_eq_false_iff, decide_eq_false_iff_not,
    Bool.and_eq_false_iff]
  omega

theorem sinceEpoch_le (hb : b.Ordinary) (ha : a.nanos < 2000000000) (h : a.notAfter b = true) :
    a.sinceEpoch ≤ b.sinceEpoch := by
  unfold Ordinary at hb
  unfold sinceEpoch
  rw [if_pos hb]
  rcases notAfter_iff.mp h with hlt | ⟨heq, hle⟩ <;> split <;> omega

/-- A sum is what it is in nanoseconds, as long as it is in range. -/
theorem add?_eq (s n : Nat) : ∃ sum : Instant, sum.nanos < 2000000000 ∧
    sum.sinceEpoch = t.sinceEpoch + s * 1000000000 + n ∧
    t.add? s n = if sum.notAfter last then some sum else none := by
  have hcarry : ∀ total : Nat, (⟨t.seconds + s + (total / 1000000000 : Nat),
      total % 1000000000⟩ : Instant).sinceEpoch = (t.seconds + s) * 1000000000 + total := by
    intro total
    have := Nat.div_add_mod total 1000000000
    unfold sinceEpoch
    dsimp only
    rw [if_pos (Nat.mod_lt _ (by omega))]
    omega
  have hsmall : ∀ total : Nat, total % 1000000000 < 2000000000 := fun total => by omega
  unfold add?
  split
  · next hleap =>
    split
    · refine ⟨_, hsmall _, ?_, rfl⟩
      rw [hcarry, sinceEpoch, if_neg (Nat.not_lt.mpr hleap)]
      omega
    · next hin =>
      rw [not_or] at hin
      refine ⟨_, Nat.not_le.mp hin.2, ?_, rfl⟩
      unfold sinceEpoch
      dsimp only
      rw [if_neg (Nat.not_lt.mpr hleap), if_neg (by omega)]
      omega
  · next hordinary =>
    refine ⟨_, hsmall _, ?_, rfl⟩
    rw [hcarry, sinceEpoch, if_pos (Nat.not_le.mp hordinary)]
    omega

end Instant

namespace Client

variable {c : Client} {now sunset : Instant} {grace : Nat}

/-- A deadline that the clock has reached is not early. -/
theorem deadline_not_early (hnow : now.Ordinary)
    (h : (deletionDeadline sunset grace).notAfter now = true) :
    min (sunset.sinceEpoch + grace) Instant.last.sinceEpoch ≤ now.sinceEpoch := by
  obtain ⟨sum, hsmall, hsum, hadd⟩ :=
    Instant.add?_eq (t := sunset) (grace / 1000000000) (grace % 1000000000)
  have hgrace : sum.sinceEpoch = sunset.sinceEpoch + grace := by
    have := Nat.div_add_mod grace 1000000000
    omega
  unfold deletionDeadline at h
  rw [hadd] at h
  rw [← hgrace]
  split at h
  · exact Int.le_trans (Int.min_le_left _ _) (Instant.sinceEpoch_le hnow hsmall h)
  · refine Int.le_trans (Int.min_le_right _ _) (Instant.sinceEpoch_le hnow ?_ h)
    exact Nat.lt_trans Instant.ordinary_last (by decide)

/-- The grace period after the sunset is over. -/
def Overdue (c : Client) (grace : Nat) (now : Instant) : Prop :=
  ∃ sunset, c.sunset? = some sunset ∧ (deletionDeadline sunset grace).notAfter now = true

theorem evaluate_eq_moveToWaiting {deadline : Instant}
    (h : c.evaluate now grace = .moveToWaiting deadline) :
    c.stateOrActive = .active ∧ c.sunset? ≠ none := by
  unfold evaluate at h
  cases hsunset : c.sunset? with
  | none =>
    rw [hsunset] at h
    cases h
  | some sunset =>
    cases hstate : c.stateOrActive with
    | active => exact ⟨rfl, nofun⟩
    | _ =>
      simp only [hsunset, hstate] at h
      split at h <;> cases h

theorem evaluate_eq_delete (h : c.evaluate now grace = .delete) :
    c.stateOrActive ≠ .active ∧ c.Overdue grace now := by
  unfold evaluate at h
  cases hsunset : c.sunset? with
  | none =>
    rw [hsunset] at h
    cases h
  | some sunset =>
    cases hstate : c.stateOrActive with
    | active =>
      simp only [hsunset, hstate] at h
      split at h <;> cases h
    | _ =>
      simp only [hsunset, hstate] at h
      split at h
      · next hdue => exact ⟨nofun, sunset, hsunset, hdue⟩
      · cases h

end Client
end BridgeOperator
