import BridgeOperator.Proofs.Client.Deadline
import BridgeOperator.Proofs.Json.Lexer
import BridgeOperator.Proofs.Time.Calendar
import BridgeOperator.Time.Parser
import BridgeOperator.Time.Printer
import Mathlib.Data.Nat.Digits.Defs

/-!
Instants are read back from the form they have in status fields, and whatever instant is read from
such a field can be written and read again.
-/

namespace BridgeOperator.Instant

variable {rest : List Char} {n width : Nat}

/-! ## Numbers -/

/-- The text goes on with something else than a digit. -/
def EndsDigits (rest : List Char) : Prop := ∀ c, rest.head? = some c → c.isDigit = false

/-- The digits of a number with zeros before them. -/
def paddedDigits (width n : Nat) : List Char :=
  List.replicate (width - (Nat.toDigits 10 n).length) '0' ++ Nat.toDigits 10 n

theorem toList_padLeft (width n : Nat) : (padLeft width n).toList = paddedDigits width n := by
  have hdigits : (toString n).toList = Nat.toDigits 10 n := Nat.toList_repr
  have hlength : (toString n).length = (Nat.toDigits 10 n).length := by
    rw [← hdigits, String.length_toList]
  simp only [padLeft, paddedDigits, String.toList_append, String.toList_ofList, hlength, hdigits]

theorem paddedDigits_isDigit : ∀ c ∈ paddedDigits width n, c.isDigit = true := by
  intro c hc
  rcases List.mem_append.mp hc with hc | hc
  · rw [List.eq_of_mem_replicate hc]
    rfl
  · exact Json.digits_isDigit c hc

theorem digitsToNat_paddedDigits (width n : Nat) : digitsToNat (paddedDigits width n) = n := by
  have hzeros : ∀ k, Nat.ofDigitChars 10 (List.replicate k '0') 0 = 0 := by
    intro k
    induction k with
    | zero => rfl
    | succ k ih => rwa [List.replicate_succ, Nat.ofDigitChars_cons]
  change Nat.ofDigitChars 10 (paddedDigits width n) 0 = n
  rw [paddedDigits, Nat.ofDigitChars_append, hzeros, Nat.ofDigitChars_ten_toDigits]

theorem length_paddedDigits (hwidth : 0 < width) (hn : n < 10 ^ width) :
    (paddedDigits width n).length = width := by
  have hlength := Nat.toDigits_length 10 n width hwidth hn
  rw [paddedDigits, List.length_append, List.length_replicate]
  omega

theorem length_paddedDigits_pos (width n : Nat) : 0 < (paddedDigits width n).length := by
  have := List.length_pos_iff.mpr (Nat.toDigits_ne_nil (b := 10) (n := n))
  rw [paddedDigits, List.length_append]
  omega

/-- Digits are read as far as they go, or as many as are asked for. -/
theorem number_eq {low high : Nat} {ds : List Char} (hds : ∀ c ∈ ds, c.isDigit = true)
    (hlow : low ≤ ds.length) (hend : ds.length = high ∨ ds.length ≤ high ∧ EndsDigits rest) :
    number low high (ds ++ rest) = some (digitsToNat ds, rest) := by
  have htake : ((ds ++ rest).take high).takeWhile Char.isDigit = ds := by
    have hall : ds.takeWhile Char.isDigit = ds := List.takeWhile_eq_self_iff.mpr hds
    rcases hend with rfl | ⟨hhigh, hrest⟩
    · rw [List.take_left, hall]
    · have hnone : (rest.take (high - ds.length)).takeWhile Char.isDigit = [] := by
        cases rest with
        | nil => simp
        | cons c rest =>
          cases high - ds.length with
          | zero => rfl
          | succ k => simp [hrest c rfl]
      rw [List.take_append, List.take_of_length_le hhigh,
        List.takeWhile_append_of_pos hds, hnone, List.append_nil]
  simp only [number, htake, List.drop_left]
  rw [if_neg (by omega)]

theorem number_padded {low : Nat} (hwidth : 0 < width) (hlow : low ≤ width) (hn : n < 10 ^ width) :
    number low width (paddedDigits width n ++ rest) = some (n, rest) := by
  have hlength := length_paddedDigits hwidth hn
  rw [number_eq paddedDigits_isDigit (by omega) (.inl hlength), digitsToNat_paddedDigits]

/-! ## Parts of a timestamp -/

theorem code_of_isDigit {c : Char} (h : c.isDigit = true) : 48 ≤ c.toNat ∧ c.toNat ≤ 57 := by
  simp only [Char.isDigit, Bool.and_eq_true, decide_eq_true_eq, ge_iff_le,
    UInt32.le_iff_toNat_le] at h
  exact h

theorem isBlank_of_isDigit {c : Char} (h : c.isDigit = true) : Text.isBlank c = false := by
  have hcode := code_of_isDigit h
  simp [Text.isBlank, Text.whiteSpace]
  omega

theorem trimStart_of_not_isBlank {c : Char} (h : Text.isBlank c = false) :
    Text.trimStart (c :: rest) = c :: rest := by
  simp [Text.trimStart, h]

theorem trimStart_padded : Text.trimStart (paddedDigits width n ++ rest) =
    paddedDigits width n ++ rest := by
  obtain ⟨c, ds, hds⟩ := List.exists_cons_of_length_pos (length_paddedDigits_pos width n)
  have hc : c ∈ paddedDigits width n := by
    rw [hds]
    exact List.mem_cons_self
  rw [hds]
  exact trimStart_of_not_isBlank (isBlank_of_isDigit (paddedDigits_isDigit c hc))

theorem lenientField_eq (hn : n < 100) :
    lenientField (paddedDigits 2 n ++ rest) = some (n, rest) := by
  rw [lenientField, trimStart_padded]
  exact number_padded (by decide) (by decide) hn

theorem blanks_eq {c : Char} (h : Text.isBlank c = false) :
    blanks (c :: rest) = some ((), c :: rest) := by
  rw [blanks, trimStart_of_not_isBlank h]

theorem literal_eq (c : Char) : literal c (c :: rest) = some ((), rest) := by
  simp [literal]

/-- A year without a sign is read as four digits. -/
theorem lenientYear_unsigned (hn : n < 10000) :
    lenientYear (paddedDigits 4 n ++ rest) = some ((n : Int), rest) := by
  have hnumber : number 1 4 (paddedDigits 4 n ++ rest) = some (n, rest) :=
    number_padded (by decide) (by decide) hn
  obtain ⟨c, ds, hds⟩ := List.exists_cons_of_length_pos (length_paddedDigits_pos 4 n)
  have hc : c.isDigit = true := paddedDigits_isDigit c (hds ▸ List.mem_cons_self)
  have hsign : ∀ d : Char, d.isDigit = false → c ≠ d := by
    rintro d hd rfl
    rw [hc] at hd
    cases hd
  rw [lenientYear, trimStart_padded]
  rw [hds, List.cons_append] at hnumber ⊢
  split
  · next heq => exact absurd (List.cons.inj heq).1 (hsign '-' rfl)
  · next heq => exact absurd (List.cons.inj heq).1 (hsign '+' rfl)
  · rw [hnumber]
    rfl

/-- A year with a sign is read as far as its digits go. -/
theorem lenientYear_signed {c : Char} (hc : c = '-' ∨ c = '+') (hend : EndsDigits rest) :
    lenientYear (c :: (paddedDigits 4 n ++ rest)) =
      some (if c = '-' then -(n : Int) else n, rest) := by
  have hblank : Text.isBlank c = false := by rcases hc with rfl | rfl <;> decide
  have hlength := length_paddedDigits_pos 4 n
  have hnumber : number 1 (paddedDigits 4 n ++ rest).length (paddedDigits 4 n ++ rest) =
      some (n, rest) := by
    rw [number_eq paddedDigits_isDigit hlength (.inr ⟨by simp, hend⟩), digitsToNat_paddedDigits]
  rw [lenientYear, trimStart_of_not_isBlank hblank]
  rcases hc with rfl | rfl
  · exact congrArg (Option.map _) hnumber
  · exact congrArg (Option.map _) hnumber

theorem lenientYear_eq (year : Int) (hend : EndsDigits rest) :
    lenientYear ((yearText year).toList ++ rest) = some (year, rest) := by
  unfold yearText
  split
  · next hyear =>
    obtain ⟨n, rfl⟩ := Int.eq_ofNat_of_zero_le hyear.1
    rw [toList_padLeft, Int.toNat_natCast]
    exact lenientYear_unsigned (by omega)
  · next hyear =>
    rw [String.toList_append, toList_padLeft]
    split
    · next hneg =>
      have h := lenientYear_signed (n := year.natAbs) (.inl rfl) hend
      have hvalue : -(year.natAbs : Int) = year := by omega
      rw [if_pos rfl, hvalue] at h
      exact h
    · next hpos =>
      have h := lenientYear_signed (n := year.natAbs) (.inr rfl) hend
      have hvalue : (year.natAbs : Int) = year := by omega
      rw [if_neg (by decide), hvalue] at h
      exact h

theorem fraction_padded (hwidth : 0 < width) (hnine : width ≤ 9) (hn : n < 10 ^ width)
    (hend : EndsDigits rest) :
    fraction ('.' :: (paddedDigits width n ++ rest)) = some (n * 10 ^ (9 - width), rest) := by
  have hlength := length_paddedDigits hwidth hn
  have hdrop : rest.dropWhile Char.isDigit = rest := by
    cases rest with
    | nil => rfl
    | cons c rest => simp [hend c rfl]
  have hused : (paddedDigits width n ++ rest).length - rest.length = width := by
    rw [List.length_append]
    omega
  rw [fraction, number_eq paddedDigits_isDigit (by omega) (.inr ⟨by omega, hend⟩)]
  simp only [Option.map_some, digitsToNat_paddedDigits, hused, hdrop]
  rfl

theorem endsDigits_cons {c : Char} (h : c.isDigit = false) : EndsDigits (c :: rest) := by
  rintro d ⟨⟩
  exact h

/-- A fraction is read in each of the lengths it is written in. -/
theorem fraction_eq (hn : n < 1000000000) :
    fraction ((fractionText n .auto).toList ++ ['Z']) = some (n, ['Z']) := by
  have hdot : ∀ width m : Nat, 0 < width → width ≤ 9 → m < 10 ^ width →
      fraction (("." ++ padLeft width m).toList ++ ['Z']) = some (m * 10 ^ (9 - width), ['Z']) := by
    intro width m hwidth hnine hm
    rw [String.toList_append, toList_padLeft]
    exact fraction_padded hwidth hnine hm (endsDigits_cons rfl)
  unfold fractionText
  dsimp only
  split
  · next hzero =>
    rw [hzero]
    rfl
  split
  · next hmillis =>
    have hvalue : n / 1000000 * 10 ^ (9 - 3) = n :=
      Nat.div_mul_cancel (Nat.dvd_of_mod_eq_zero hmillis)
    rw [hdot 3 _ (by decide) (by decide) (by omega), hvalue]
  split
  · next hmicros =>
    have hvalue : n / 1000 * 10 ^ (9 - 6) = n :=
      Nat.div_mul_cancel (Nat.dvd_of_mod_eq_zero hmicros)
    rw [hdot 6 _ (by decide) (by decide) (by omega), hvalue]
  · rw [hdot 9 _ (by decide) (by decide) hn, Nat.sub_self, Nat.pow_zero, Nat.mul_one]

/-! ## Instants -/

/-- The instant is in the range that is computed with, and if it lies in a leap second, that one
ends a minute. -/
structure Valid (t : Instant) : Prop where
  first_le : first.notAfter t = true
  le_last : t.notAfter last = true
  nanos_lt : t.nanos < 2000000000
  leap : 1000000000 ≤ t.nanos → t.seconds % 60 = 59

variable {t : Instant}

/-- The calendar's date and the time of day of an instant are those of the instant. -/
theorem ofCivil?_eq (h : t.Valid) {date : Int × Nat × Nat} {time : Nat} {leap : Bool}
    (hdate : civilFromDays (t.seconds.fdiv 86400) = date)
    (htime : (t.seconds.fmod 86400).toNat = time) (hleap : decide (1000000000 ≤ t.nanos) = leap) :
    ofCivil? date.1 date.2.1 date.2.2 (time / 3600) (time / 60 % 60)
      (time % 60 + (if leap then 1 else 0)) (if leap then t.nanos - 1000000000 else t.nanos) =
      some t := by
  obtain ⟨hfirst, hlast, hnanos, hsecond⟩ := h
  have hdates := dates_civilFromDays (t.seconds.fdiv 86400)
  rw [notAfter_iff] at hfirst hlast
  rw [Int.fdiv_eq_ediv_of_nonneg _ (by decide)] at hdate hdates
  rw [Int.fmod_eq_emod_of_nonneg _ (by decide)] at htime
  have hyear := @year_bounds (t.seconds / 86400) (by simp only [first] at hfirst; omega)
    (by simp only [last] at hlast; omega)
  rw [hdate] at hdates hyear
  obtain ⟨hmonth, hmonth', hday, hday', hdays⟩ := hdates
  have hseconds : daysFromCivil date.1 date.2.1 date.2.2 * 86400 + time = t.seconds := by
    rw [hdays]
    omega
  unfold ofCivil?
  cases leap with
  | true =>
    have hlong := of_decide_eq_true hleap
    have hmin : min (time % 60 + 1) 59 = time % 60 := by omega
    have hsixty : time % 60 + 1 = 60 := by omega
    rw [if_pos rfl, if_pos rfl, if_pos (by omega), hmin, if_pos hsixty, Nat.sub_add_cancel hlong]
    exact congrArg (fun s => some (⟨s, t.nanos⟩ : Instant)) (by omega)
  | false =>
    have hmin : min (time % 60 + 0) 59 = time % 60 := by omega
    rw [if_neg Bool.false_ne_true, if_neg Bool.false_ne_true, if_pos (by omega), hmin,
      if_neg (by omega)]
    exact congrArg (fun s => some (⟨s, t.nanos⟩ : Instant)) (by omega)

/-- An instant is found again from the time at any offset. -/
theorem atOffset_shiftSeconds (h : t.Valid) (k : Int) : (t.shiftSeconds k).atOffset k = some t := by
  have hback : (t.shiftSeconds k).shiftSeconds (-k) = t := by
    rw [shiftSeconds, shiftSeconds, Int.add_neg_cancel_right]
  simp only [atOffset, hback, h.first_le, h.le_last, Bool.and_self, if_true]

theorem atOffset_zero (h : t.Valid) : t.atOffset 0 = some t := by
  have hsame : t.shiftSeconds 0 = t := by rw [shiftSeconds, Int.add_zero]
  have hback := atOffset_shiftSeconds h 0
  rwa [hsame] at hback

theorem blank_letters : Text.isBlank '-' = false ∧ Text.isBlank ':' = false ∧
    Text.isBlank 'Z' = false := by decide

/-- Date and time are read as they are written. -/
theorem parseRelaxed?_eq {year : Int} {month day hour minute second nanos : Nat}
    (hmonth : month < 100) (hday : day < 100) (hhour : hour < 100) (hminute : minute < 100)
    (hsecond : second < 100) (hnanos : nanos < 1000000000) :
    parseRelaxed? ((yearText year).toList ++ ('-' :: (paddedDigits 2 month ++
      ('-' :: (paddedDigits 2 day ++ ('T' :: (paddedDigits 2 hour ++
      (':' :: (paddedDigits 2 minute ++ (':' :: (paddedDigits 2 second ++
      ((fractionText nanos .auto).toList ++ ['Z'])))))))))))) =
      (ofCivil? year month day hour minute second nanos).bind (atOffset · 0) := by
  obtain ⟨hdash, hcolon, hz⟩ := blank_letters
  have hmark : ∀ s, dateTimeMark ('T' :: s) = some ((), s) := fun s => rfl
  have hoffset : relaxedOffset ['Z'] = some (0, []) := rfl
  have hstep : ∀ {α β : Type} (a : α) (s : List Char) (k : α × List Char → Option β),
      (some (a, s) >>= k) = k (a, s) := fun _ _ _ => rfl
  unfold parseRelaxed?
  simp only [lenientYear_eq year (endsDigits_cons (c := '-') rfl), hstep, blanks_eq hdash,
    blanks_eq hcolon, blanks_eq hz, literal_eq, lenientField_eq hmonth, lenientField_eq hday, hmark,
    lenientField_eq hhour, lenientField_eq hminute, lenientField_eq hsecond, fraction_eq hnanos,
    hoffset]
  rfl

/-- **A valid instant is read back from its text.** -/
theorem parse?_render (h : t.Valid) : parse? t.render = some t := by
  obtain ⟨date, hdate⟩ : ∃ date, civilFromDays (t.seconds.fdiv 86400) = date := ⟨_, rfl⟩
  obtain ⟨time, htime⟩ : ∃ time, (t.seconds.fmod 86400).toNat = time := ⟨_, rfl⟩
  obtain ⟨leap, hleap⟩ : ∃ leap, decide (1000000000 ≤ t.nanos) = leap := ⟨_, rfl⟩
  have hdates := dates_civilFromDays (t.seconds.fdiv 86400)
  rw [hdate] at hdates
  have hday : date.2.2 ≤ 31 := hdates.day_le.trans (daysInMonth_le _ _)
  have hbound : time < 86400 := by
    rw [Int.fmod_eq_emod_of_nonneg _ (by decide)] at htime
    omega
  have hsecond : time % 60 + (if leap then 1 else 0) < 100 := by split <;> omega
  have hnanos : (if leap then t.nanos - 1000000000 else t.nanos) < 1000000000 := by
    have := h.nanos_lt
    cases leap with
    | true =>
      rw [if_pos rfl]
      omega
    | false =>
      have := of_decide_eq_false hleap
      rw [if_neg Bool.false_ne_true]
      omega
  have hmonth := hdates.month_le
  have hparse := @parseRelaxed?_eq date.1 date.2.1 date.2.2 (time / 3600) (time / 60 % 60) _ _
    (by omega) (by omega) (by omega) (by omega) hsecond hnanos
  rw [ofCivil?_eq h hdate htime hleap, Option.bind_some, atOffset_zero h] at hparse
  rw [← hparse, parse?, render, civilText, hdate, htime, hleap]
  simp only [String.toList_append, toList_padLeft, List.append_assoc]
  rfl

/-! ## What is read -/

theorem digitsToNat_lt {ds : List Char} (hds : ∀ c ∈ ds, c.isDigit = true) :
    digitsToNat ds < 10 ^ ds.length := by
  have hfold : ∀ (ds : List Char) (m : Nat), (∀ c ∈ ds, c.isDigit = true) →
      ds.foldl (fun n c => 10 * n + (c.toNat - '0'.toNat)) m < (m + 1) * 10 ^ ds.length := by
    intro ds
    induction ds with
    | nil =>
      intro m _
      simp
    | cons c ds ih =>
      intro m h
      have hc := code_of_isDigit (h c List.mem_cons_self)
      refine (ih _ fun d hd => h d (List.mem_cons_of_mem _ hd)).trans_le ?_
      rw [List.length_cons, Nat.pow_succ', ← Nat.mul_assoc]
      refine Nat.mul_le_mul_right _ ?_
      show 10 * m + (c.toNat - 48) + 1 ≤ (m + 1) * 10
      omega
  simpa [digitsToNat] using hfold ds 0 hds

theorem number_lt {low high : Nat} {s : List Char} (h : number low high s = some (n, rest)) :
    s.length - rest.length ≤ high ∧ n < 10 ^ (s.length - rest.length) := by
  unfold number at h
  dsimp only at h
  split at h
  · cases h
  · obtain ⟨rfl, rfl⟩ := Prod.mk.inj (Option.some.inj h)
    have hprefix := List.takeWhile_prefix Char.isDigit (l := s.take high)
    have hlength := hprefix.length_le
    rw [List.length_take] at hlength
    have hused : s.length - (s.drop ((s.take high).takeWhile Char.isDigit).length).length =
        ((s.take high).takeWhile Char.isDigit).length := by
      rw [List.length_drop]
      omega
    rw [hused]
    exact ⟨by omega, digitsToNat_lt fun c hc => List.mem_takeWhile_imp hc⟩

theorem fraction_lt {s : List Char} (h : fraction s = some (n, rest)) : n < 1000000000 := by
  unfold fraction at h
  split at h
  · next tail =>
    obtain ⟨⟨v, rest'⟩, hnumber, heq⟩ := Option.map_eq_some_iff.mp h
    obtain ⟨hused, hv⟩ := number_lt hnumber
    obtain ⟨rfl, -⟩ := Prod.mk.inj heq
    have hpow : 10 ^ (tail.length - rest'.length) * 10 ^ (9 - (tail.length - rest'.length)) =
        10 ^ 9 := by
      rw [← Nat.pow_add, Nat.add_sub_cancel' hused]
    calc v * 10 ^ (9 - (tail.length - rest'.length))
        < 10 ^ (tail.length - rest'.length) * 10 ^ (9 - (tail.length - rest'.length)) :=
          Nat.mul_lt_mul_of_pos_right hv (Nat.pow_pos (by decide))
      _ = 10 ^ 9 := hpow
  · cases h
    decide

/-- An offset is one of whole minutes. -/
theorem offset_dvd {separator : Reader Unit} {s : List Char} {shift : Int}
    (h : offset separator s = some (shift, rest)) : shift % 60 = 0 := by
  unfold offset at h
  split at h
  · cases h
  split at h
  · cases h
    rfl
  split at h
  · simp only [Option.bind_eq_bind, Option.bind_eq_some_iff] at h
    obtain ⟨⟨hours, s1⟩, -, ⟨_, s2⟩, -, ⟨minutes, s3⟩, -, h⟩ := h
    dsimp only at h
    split at h
    · cases h
    · simp only [Option.some.injEq, Prod.mk.injEq] at h
      obtain ⟨rfl, -⟩ := h
      split <;> omega
  · cases h

theorem relaxedOffset_dvd {s : List Char} {shift : Int}
    (h : relaxedOffset s = some (shift, rest)) : shift % 60 = 0 := by
  unfold relaxedOffset at h
  split at h
  · cases h
    rfl
  · exact offset_dvd h

theorem ofCivil?_bounds {year : Int} {month day hour minute second nanos : Nat}
    (hnanos : nanos < 1000000000)
    (h : ofCivil? year month day hour minute second nanos = some t) :
    t.nanos < 2000000000 ∧ (1000000000 ≤ t.nanos → t.seconds % 60 = 59) := by
  unfold ofCivil? at h
  split at h
  · cases h
    refine ⟨?_, fun hleap => ?_⟩
    · show (if second = 60 then _ else _) < _
      split <;> omega
    · have hsecond : second = 60 := by
        by_contra hne
        dsimp only at hleap
        rw [if_neg hne] at hleap
        omega
      subst hsecond
      simp only [Nat.reduceLeDiff, Nat.min_eq_right]
      omega
  · cases h

/-- **Whatever instant is read from a field of an object is valid.** -/
theorem valid_of_parse? {raw : String} (h : parse? raw = some t) : t.Valid := by
  unfold parse? parseRelaxed? at h
  obtain ⟨⟨year, s⟩, -, h⟩ := Option.bind_eq_some_iff.mp h
  obtain ⟨⟨_, s⟩, -, h⟩ := Option.bind_eq_some_iff.mp h
  obtain ⟨⟨_, s⟩, -, h⟩ := Option.bind_eq_some_iff.mp h
  obtain ⟨⟨month, s⟩, -, h⟩ := Option.bind_eq_some_iff.mp h
  obtain ⟨⟨_, s⟩, -, h⟩ := Option.bind_eq_some_iff.mp h
  obtain ⟨⟨_, s⟩, -, h⟩ := Option.bind_eq_some_iff.mp h
  obtain ⟨⟨day, s⟩, -, h⟩ := Option.bind_eq_some_iff.mp h
  obtain ⟨⟨_, s⟩, -, h⟩ := Option.bind_eq_some_iff.mp h
  obtain ⟨⟨hour, s⟩, -, h⟩ := Option.bind_eq_some_iff.mp h
  obtain ⟨⟨_, s⟩, -, h⟩ := Option.bind_eq_some_iff.mp h
  obtain ⟨⟨_, s⟩, -, h⟩ := Option.bind_eq_some_iff.mp h
  obtain ⟨⟨minute, s⟩, -, h⟩ := Option.bind_eq_some_iff.mp h
  obtain ⟨⟨_, s⟩, -, h⟩ := Option.bind_eq_some_iff.mp h
  obtain ⟨⟨_, s⟩, -, h⟩ := Option.bind_eq_some_iff.mp h
  obtain ⟨⟨second, s⟩, -, h⟩ := Option.bind_eq_some_iff.mp h
  obtain ⟨⟨nanos, s⟩, hfraction, h⟩ := Option.bind_eq_some_iff.mp h
  obtain ⟨⟨_, s⟩, -, h⟩ := Option.bind_eq_some_iff.mp h
  obtain ⟨⟨shift, s⟩, hshift, h⟩ := Option.bind_eq_some_iff.mp h
  dsimp only at h
  split at h
  · cases h
  split at h
  · cases h
  obtain ⟨u, hcivil, hoffset⟩ := Option.bind_eq_some_iff.mp h
  obtain ⟨hnanos, hleap⟩ := ofCivil?_bounds (fraction_lt hfraction) hcivil
  have hminutes := relaxedOffset_dvd hshift
  unfold atOffset at hoffset
  dsimp only at hoffset
  split at hoffset
  · next hrange =>
    cases hoffset
    rw [Bool.and_eq_true] at hrange
    refine ⟨hrange.1, hrange.2, hnanos, fun hlong => ?_⟩
    have := hleap hlong
    show (u.seconds + -shift) % 60 = 59
    omega
  · cases hoffset

end BridgeOperator.Instant
