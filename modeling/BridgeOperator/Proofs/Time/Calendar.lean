import BridgeOperator.Time.Instant

/-!
The calendar. A day counted from 1970 and its date determine each other: the count of a date is
taken apart into periods of 400 years, years that start in March, and months.
-/

namespace BridgeOperator.Instant

/-- Days of a period before its `n`th year. The leap day is the last one of its year. -/
def eraDays (n : Int) : Int := 365 * n + n / 4 - n / 100

section

variable {d n : Int}

/-- The year of a period that a day lies in, unless it is the last day of the period. -/
theorem eraDays_bounds {fours hundreds : Int} (hfours : fours = d / 1460)
    (hhundreds : hundreds = d / 36524) (h0 : 0 ≤ d) (h1 : d < 146096)
    (hn : n = (d - fours + hundreds) / 365) :
    0 ≤ n ∧ n < 400 ∧ eraDays n ≤ d ∧ (d < eraDays (n + 1) ∨ n = 399) := by
  have hcentury : hundreds = 0 ∨ hundreds = 1 ∨ hundreds = 2 ∨ hundreds = 3 := by omega
  have hyear : n = 4 * fours - 1 ∨ n = 4 * fours ∨ n = 4 * fours + 1 ∨ n = 4 * fours + 2 ∨
      n = 4 * fours + 3 ∨ n = 4 * fours + 4 := by
    obtain rfl | rfl | rfl | rfl := hcentury <;> omega
  have hhundred : n / 100 = hundreds := by
    obtain rfl | rfl | rfl | rfl := hcentury <;> omega
  unfold eraDays
  rw [hhundred]
  obtain rfl | rfl | rfl | rfl := hcentury <;>
    obtain rfl | rfl | rfl | rfl | rfl | rfl := hyear <;> omega

theorem yearOfEra_bounds (h0 : 0 ≤ d) (h1 : d < 146097)
    (hn : n = (d - d / 1460 + d / 36524 - d / 146096) / 365) :
    0 ≤ n ∧ n < 400 ∧ eraDays n ≤ d ∧ (d < eraDays (n + 1) ∨ n = 399) := by
  by_cases hlast : d = 146096
  · subst hlast
    subst hn
    decide
  · have hzero : d / 146096 = 0 := by omega
    rw [hzero, Int.sub_zero] at hn
    exact eraDays_bounds rfl rfl h0 (by omega) hn

theorem isLeapYear_iff {era : Int} : isLeapYear (n + era * 400) = true ↔
    n % 4 = 0 ∧ (n % 100 ≠ 0 ∨ n % 400 = 0) := by
  have h4 : (n + era * 400) % 4 = n % 4 := by omega
  have h100 : (n + era * 400) % 100 = n % 100 := by omega
  have h400 : (n + era * 400) % 400 = n % 400 := by omega
  simp [isLeapYear, h4, h100, h400]

/-- A year that starts in March has a 366th day only if it ends with a leap day. -/
theorem dayOfYear_bounds (era : Int) (h1 : d < 146097) (hlow : eraDays n ≤ d)
    (hhigh : d < eraDays (n + 1) ∨ n = 399) :
    0 ≤ d - eraDays n ∧ d - eraDays n ≤ 365 ∧
      (d - eraDays n = 365 → isLeapYear (n + 1 + era * 400) = true) := by
  rw [isLeapYear_iff]
  unfold eraDays at *
  rcases hhigh with hhigh | rfl
  · omega
  · omega

/-- The date of a day of a year that starts in March. -/
def marchDate (year dayOfYear : Int) : Int × Nat × Nat :=
  let shifted := (5 * dayOfYear + 2) / 153
  let month := if shifted < 10 then shifted + 3 else shifted - 9
  (year + (if month ≤ 2 then 1 else 0), month.toNat,
    (dayOfYear - (153 * shifted + 2) / 5 + 1).toNat)

/-- There is such a date, and it is that of the day. -/
structure Dates (date : Int × Nat × Nat) (days : Int) : Prop where
  month_pos : 1 ≤ date.2.1
  month_le : date.2.1 ≤ 12
  day_pos : 1 ≤ date.2.2
  day_le : date.2.2 ≤ daysInMonth date.1 date.2.1
  days : daysFromCivil date.1 date.2.1 date.2.2 = days

theorem dates_marchDate {era : Int} (hn0 : 0 ≤ n) (hn1 : n < 400) (h0 : 0 ≤ d) (h1 : d ≤ 365)
    (hleap : d = 365 → isLeapYear (n + 1 + era * 400) = true) :
    Dates (marchDate (n + era * 400) d) (era * 146097 + eraDays n + d - 719468) := by
  have hera : (n + era * 400).fdiv 400 = era := by
    rw [Int.fdiv_eq_ediv_of_nonneg _ (by decide)]
    omega
  have hn : n + era * 400 - era * 400 = n := by omega
  have hnext : n + era * 400 + 1 = n + 1 + era * 400 := by omega
  have hfebruary : d ≤ 364 ∨ isLeapYear (n + 1 + era * 400) = true := by
    by_cases hlast : d = 365
    · exact .inr (hleap hlast)
    · exact .inl (by omega)
  have hshifted : ∃ s : Nat, s < 12 ∧ (5 * d + 2) / 153 = s :=
    ⟨((5 * d + 2) / 153).toNat, by omega, by omega⟩
  obtain ⟨s, hs, heq⟩ := hshifted
  unfold marchDate
  rw [heq]
  -- February is the last month; the others have their lengths in any year.
  by_cases hlast : s = 11
  · subst hlast
    refine ⟨by simp, by simp, ?_, ?_, ?_⟩
    · simp
      omega
    · rcases hfebruary with h | h
      · simp [daysInMonth]
        split <;> omega
      · simp [daysInMonth, hnext, h]
        omega
    · simp [daysFromCivil, hera, hn, eraDays]
      omega
  · have hmonth : s = 0 ∨ s = 1 ∨ s = 2 ∨ s = 3 ∨ s = 4 ∨ s = 5 ∨ s = 6 ∨ s = 7 ∨ s = 8 ∨ s = 9 ∨
        s = 10 := by omega
    rcases hmonth with rfl | rfl | rfl | rfl | rfl | rfl | rfl | rfl | rfl | rfl | rfl <;>
      refine ⟨?_, ?_, ?_, ?_, ?_⟩ <;> simp [daysInMonth, daysFromCivil, hera, hn, eraDays] <;> omega

end

/-- Every day lies in a year that starts in March. -/
theorem exists_march (days : Int) : ∃ era n d, 0 ≤ n ∧ n < 400 ∧ 0 ≤ d ∧ d ≤ 365 ∧
    (d = 365 → isLeapYear (n + 1 + era * 400) = true) ∧
    era * 146097 + eraDays n + d - 719468 = days ∧
    civilFromDays days = marchDate (n + era * 400) d := by
  obtain ⟨era, hera⟩ : ∃ era, era = (days + 719468) / 146097 := ⟨_, rfl⟩
  obtain ⟨d, hd⟩ : ∃ d, d = days + 719468 - era * 146097 := ⟨_, rfl⟩
  have hd0 : 0 ≤ d := by omega
  have hd1 : d < 146097 := by omega
  obtain ⟨n, hn⟩ : ∃ n, n = (d - d / 1460 + d / 36524 - d / 146096) / 365 := ⟨_, rfl⟩
  obtain ⟨hn0, hn1, hlow, hhigh⟩ := yearOfEra_bounds hd0 hd1 hn
  obtain ⟨h0, h1, hleap⟩ := dayOfYear_bounds era hd1 hlow hhigh
  refine ⟨era, n, d - eraDays n, hn0, hn1, h0, h1, hleap, by omega, ?_⟩
  have hfdiv : (days + 719468).fdiv 146097 = era := by
    rw [Int.fdiv_eq_ediv_of_nonneg _ (by decide), hera]
  simp only [civilFromDays, hfdiv, ← hd, ← hn]
  rfl

/-- Every day has a date. -/
theorem dates_civilFromDays (days : Int) : Dates (civilFromDays days) days := by
  obtain ⟨era, n, d, hn0, hn1, h0, h1, hleap, rfl, heq⟩ := exists_march days
  rw [heq]
  exact dates_marchDate hn0 hn1 h0 h1 hleap

theorem daysInMonth_le (year : Int) (month : Nat) : daysInMonth year month ≤ 31 := by
  unfold daysInMonth
  split
  · split <;> decide
  · split <;> decide

/-- The first and the last day that are computed with, and the days between them, have years that
are. -/
theorem year_bounds {days : Int} (hfirst : daysFromCivil minYear 1 1 ≤ days)
    (hlast : days ≤ daysFromCivil maxYear 12 31) :
    minYear ≤ (civilFromDays days).1 ∧ (civilFromDays days).1 ≤ maxYear := by
  have hlow : daysFromCivil minYear 1 1 = -96465292 := by decide
  have hhigh : daysFromCivil maxYear 12 31 = 95026236 := by decide
  obtain ⟨era, n, d, hn0, hn1, h0, h1, -, rfl, heq⟩ := exists_march days
  rw [hlow] at hfirst
  rw [hhigh] at hlast
  rw [heq]
  simp only [marchDate, minYear, maxYear, eraDays] at *
  -- The years at either end are reached within their periods.
  have hera : era = -656 ∨ -655 ≤ era ∧ era ≤ 654 ∨ era = 655 := by omega
  rcases hera with rfl | hera | rfl
  · have hn : 256 ≤ n := by omega
    have hd : n = 256 → 306 ≤ d := by omega
    split <;> split <;> omega
  · split <;> split <;> omega
  · have hn : n ≤ 142 := by omega
    have hd : n = 142 → d ≤ 305 := by omega
    split <;> split <;> omega

end BridgeOperator.Instant
