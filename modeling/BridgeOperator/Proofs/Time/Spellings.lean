import BridgeOperator.Proofs.Time.RoundTrip

/-!
The spellings of an instant that a sunset may be given in: with blanks around it, as the time of
some place or without saying of which, and as precise as it takes. Three readers are tried in turn,
and each of them is met with texts that are meant for another. Whatever the spelling is, one of them
reads the instant, and those before it read nothing (`parseSunset?_spelling`).
-/

namespace BridgeOperator

/-! ## Trimming -/

namespace Text

variable {before core after : List Char}

theorem trimStart_append (h : ∀ c ∈ before, isBlank c = true) (rest : List Char) :
    trimStart (before ++ rest) = trimStart rest :=
  List.dropWhile_append_of_pos h

theorem trimStart_eq {s : List Char} (h : ∀ c, s.head? = some c → isBlank c = false) :
    trimStart s = s := by
  cases s with
  | nil => rfl
  | cons c s => simp [trimStart, h c rfl]

/-- What is between blanks, and neither begins nor ends with one, is what is left. -/
theorem trim_blanks (hbefore : ∀ c ∈ before, isBlank c = true)
    (hafter : ∀ c ∈ after, isBlank c = true) {first last : Char} (hfirst : core.head? = some first)
    (hlast : core.getLast? = some last) (hf : isBlank first = false) (hl : isBlank last = false) :
    trim (before ++ (core ++ after)) = core := by
  have hstart : trimStart (core ++ after) = core ++ after := by
    refine trimStart_eq fun c hc => ?_
    rw [List.head?_append, hfirst] at hc
    cases hc
    exact hf
  have hend : trimStart core.reverse = core.reverse := by
    refine trimStart_eq fun c hc => ?_
    rw [List.head?_reverse, hlast] at hc
    cases hc
    exact hl
  have hblanks : ∀ c ∈ after.reverse, isBlank c = true :=
    fun c hc => hafter c (List.mem_reverse.mp hc)
  rw [trim, trimStart_append hbefore, hstart, List.reverse_append, trimStart_append hblanks, hend,
    List.reverse_reverse]

end Text

namespace Instant

variable {rest : List Char} {t : Instant}

/-! ## Date and time of day -/

/-- A date and a time of day as they are written. The 60th second is a leap second. -/
structure Civil where
  year : Int
  month : Nat
  day : Nat
  hour : Nat
  minute : Nat
  second : Nat
  nanos : Nat

def civil (t : Instant) : Civil :=
  let date := civilFromDays (t.seconds.fdiv 86400)
  let time := (t.seconds.fmod 86400).toNat
  let leap := decide (1000000000 ≤ t.nanos)
  { year := date.1
    month := date.2.1
    day := date.2.2
    hour := time / 3600
    minute := time / 60 % 60
    second := time % 60 + (if leap then 1 else 0)
    nanos := if leap then t.nanos - 1000000000 else t.nanos }

/-- The instant has a year of four digits, and if it lies in a leap second, that one ends a
minute. -/
structure Dated (t : Instant) : Prop where
  year_nonneg : 0 ≤ t.civil.year
  year_le : t.civil.year ≤ 9999
  nanos_lt : t.nanos < 2000000000
  leap : 1000000000 ≤ t.nanos → t.seconds % 60 = 59

/-- All parts fit where they are written. -/
structure Civil.Fits (z : Civil) : Prop where
  year_nonneg : 0 ≤ z.year
  year_le : z.year ≤ 9999
  month_lt : z.month < 100
  day_lt : z.day < 100
  hour_lt : z.hour < 100
  minute_lt : z.minute < 100
  second_lt : z.second < 100
  nanos_lt : z.nanos < 1000000000

/-- Years of four digits are far from the ends of those that are computed with. -/
theorem days_bounds {year : Int} {month day : Nat} (h0 : 0 ≤ year) (h1 : year ≤ 9999)
    (hmonth : 1 ≤ month) (hmonth' : month ≤ 12) (hday : day ≤ 31) :
    -1000000 ≤ daysFromCivil year month day ∧ daysFromCivil year month day ≤ 4000000 := by
  simp only [daysFromCivil, Int.fdiv_eq_ediv_of_nonneg _ (show (0 : Int) ≤ 400 by decide)]
  split <;> split <;> omega

theorem Dated.valid (h : t.Dated) : t.Valid := by
  obtain ⟨hyear, hyear', hnanos, hleap⟩ := h
  have hdates := dates_civilFromDays (t.seconds.fdiv 86400)
  obtain ⟨hlow, hhigh⟩ := days_bounds hyear hyear' hdates.month_pos hdates.month_le
    (hdates.day_le.trans (daysInMonth_le _ _))
  have hdays : daysFromCivil t.civil.year (civilFromDays (t.seconds.fdiv 86400)).2.1
      (civilFromDays (t.seconds.fdiv 86400)).2.2 = t.seconds.fdiv 86400 := hdates.days
  rw [hdays, Int.fdiv_eq_ediv_of_nonneg _ (by decide)] at hlow hhigh
  have hfirst : first.seconds = -96465292 * 86400 := by decide
  have hlast : last.seconds = 95026236 * 86400 + 86399 := by decide
  exact ⟨notAfter_iff.mpr (.inl (by omega)), notAfter_iff.mpr (.inl (by omega)), hnanos, hleap⟩

theorem Dated.fits (h : t.Dated) : t.civil.Fits := by
  obtain ⟨hyear, hyear', hnanos, hleap⟩ := h
  have hdates := dates_civilFromDays (t.seconds.fdiv 86400)
  have hmonth := hdates.month_le
  have hday := hdates.day_le.trans (daysInMonth_le _ _)
  have htime : (t.seconds.fmod 86400).toNat < 86400 := by
    rw [Int.fmod_eq_emod_of_nonneg _ (by decide)]
    omega
  refine ⟨hyear, hyear', Nat.lt_of_le_of_lt hmonth (by decide),
    Nat.lt_of_le_of_lt hday (by decide), ?_, ?_, ?_, ?_⟩ <;> unfold civil <;> dsimp only
  · omega
  · omega
  · split <;> omega
  · split
    · omega
    · next hordinary =>
      have := of_decide_eq_false (Bool.eq_false_iff.mpr hordinary)
      omega

def Civil.instant? (z : Civil) : Option Instant :=
  ofCivil? z.year z.month z.day z.hour z.minute z.second z.nanos

theorem instant?_civil (h : t.Dated) : t.civil.instant? = some t :=
  ofCivil?_eq h.valid rfl rfl rfl

/-! ## Spellings -/

namespace Civil

def date (z : Civil) : List Char :=
  paddedDigits 4 z.year.toNat ++ '-' :: (paddedDigits 2 z.month ++ '-' :: paddedDigits 2 z.day)

/-- Hour and minute. -/
def clock (z : Civil) : List Char := paddedDigits 2 z.hour ++ ':' :: paddedDigits 2 z.minute

end Civil

/-- How much is written of what comes after the minutes. -/
inductive Detail where
  | minutes
  | seconds
  | fraction (digits : Nat)

namespace Detail

/-- The fraction of the second. -/
def tail (z : Civil) : Detail → List Char
  | fraction digits => '.' :: paddedDigits digits (z.nanos / 10 ^ (9 - digits))
  | _ => []

def text (z : Civil) : Detail → List Char
  | minutes => []
  | detail => ':' :: (paddedDigits 2 z.second ++ detail.tail z)

/-- What is not written is zero. -/
def Suffices (z : Civil) : Detail → Prop
  | minutes => z.second = 0 ∧ z.nanos = 0
  | seconds => z.nanos = 0
  | fraction digits => 0 < digits ∧ digits ≤ 9 ∧ 10 ^ (9 - digits) ∣ z.nanos

end Detail

/-- What is said about the place whose time it is. -/
inductive Zone where
  | silent
  | utc
  | offset (west : Bool) (hours minutes : Nat)

namespace Zone

/-- By how much the time is ahead of UTC, in seconds. -/
def ahead : Zone → Int
  | offset west hours minutes =>
    let span : Int := (hours * 3600 + minutes * 60 : Nat)
    if west then -span else span
  | _ => 0

def text : Zone → List Char
  | silent => []
  | utc => ['Z']
  | offset west hours minutes =>
    (if west then '-' else '+') :: (paddedDigits 2 hours ++ ':' :: paddedDigits 2 minutes)

/-- An offset is one of less than a day. -/
def Small : Zone → Prop
  | offset _ hours minutes => hours ≤ 23 ∧ minutes ≤ 59
  | _ => True

end Zone

structure Spelling where
  before : List Char
  mark : Char
  detail : Detail
  zone : Zone
  after : List Char

namespace Spelling

variable (s : Spelling)

/-- The instant as the time of the place. -/
def localTime (t : Instant) : Instant := t.shiftSeconds s.zone.ahead

/-- Date and time of day. -/
def stem (z : Civil) : List Char := z.date ++ s.mark :: (z.clock ++ s.detail.text z)

def write (t : Instant) : String :=
  String.ofList (s.before ++ (s.stem (s.localTime t).civil ++ s.zone.text ++ s.after))

/-- The instant can be spelled like this. Seconds can only be left out if there is no offset. -/
structure Suits (t : Instant) : Prop where
  before_blank : ∀ c ∈ s.before, Text.isBlank c = true
  after_blank : ∀ c ∈ s.after, Text.isBlank c = true
  mark : s.mark = 'T' ∨ s.mark = ' '
  small : s.zone.Small
  detail : s.detail.Suffices (s.localTime t).civil
  detailed : s.detail = .minutes → s.zone = .silent ∨ s.zone = .utc
  year_nonneg : 0 ≤ (s.localTime t).civil.year
  year_le : (s.localTime t).civil.year ≤ 9999

end Spelling

/-! ## Characters -/

theorem notMem_padded {c : Char} (h : c.isDigit = false) (width n : Nat) :
    c ∉ paddedDigits width n := by
  intro hc
  rw [paddedDigits_isDigit c hc] at h
  cases h

/-- The text ends in a digit. -/
def EndsInDigit (l : List Char) : Prop := ∃ c, l.getLast? = some c ∧ c.isDigit = true

theorem EndsInDigit.append {l : List Char} (h : EndsInDigit l) (l' : List Char) :
    EndsInDigit (l' ++ l) := by
  obtain ⟨c, hc, hdigit⟩ := h
  exact ⟨c, by rw [List.getLast?_append, hc]; rfl, hdigit⟩

theorem EndsInDigit.cons {l : List Char} (h : EndsInDigit l) (c : Char) : EndsInDigit (c :: l) :=
  h.append [c]

theorem endsInDigit_padded (width n : Nat) : EndsInDigit (paddedDigits width n) := by
  have hne := List.length_pos_iff.mp (length_paddedDigits_pos width n)
  exact ⟨_, List.getLast?_eq_some_getLast hne, paddedDigits_isDigit _ (List.getLast_mem hne)⟩

theorem head?_date (z : Civil) : ∃ c, z.date.head? = some c ∧ c.isDigit = true := by
  obtain ⟨c, ds, hds⟩ := List.exists_cons_of_length_pos (length_paddedDigits_pos 4 z.year.toNat)
  have hc : c ∈ paddedDigits 4 z.year.toNat := by
    rw [hds]
    exact List.mem_cons_self
  refine ⟨c, ?_, paddedDigits_isDigit c hc⟩
  rw [Civil.date, hds]
  rfl

theorem dropTrailingZ_eq {l : List Char} (h : EndsInDigit l) : dropTrailingZ l = l := by
  obtain ⟨c, hc, hdigit⟩ := h
  have hz : c ≠ 'Z' := by
    rintro rfl
    cases hdigit
  rw [← List.head?_reverse] at hc
  obtain ⟨l', hl'⟩ := List.head?_eq_some_iff.mp hc
  unfold dropTrailingZ
  rw [hl', List.dropWhile_cons_of_neg (by simpa using hz), ← hl', List.reverse_reverse]

theorem dropTrailingZ_mark (l : List Char) : dropTrailingZ (l ++ ['Z']) = dropTrailingZ l := by
  unfold dropTrailingZ
  rw [List.reverse_append]
  rfl

theorem markFirstSpace_eq {l : List Char} (h : ' ' ∉ l) : markFirstSpace l = l := by
  induction l with
  | nil => rfl
  | cons c l ih =>
    obtain ⟨hc, hl⟩ := not_or.mp fun hmem => h (List.mem_cons.mpr hmem)
    rw [markFirstSpace, if_neg (Ne.symm hc), ih hl]

theorem markFirstSpace_append {l : List Char} (h : ' ' ∉ l) (rest : List Char) :
    markFirstSpace (l ++ rest) = l ++ markFirstSpace rest := by
  induction l with
  | nil => rfl
  | cons c l ih =>
    obtain ⟨hc, hl⟩ := not_or.mp fun hmem => h (List.mem_cons.mpr hmem)
    rw [List.cons_append, markFirstSpace, if_neg (Ne.symm hc), ih hl]
    rfl

section

variable {z : Civil} {s : Spelling}

theorem endsInDigit_clock (z : Civil) : EndsInDigit z.clock :=
  ((endsInDigit_padded 2 z.minute).cons ':').append _

theorem endsInDigit_detail (detail : Detail) : EndsInDigit (z.clock ++ detail.text z) := by
  have hsecond := endsInDigit_padded 2 z.second
  cases detail with
  | minutes =>
    rw [Detail.text, List.append_nil]
    exact endsInDigit_clock z
  | seconds =>
    show EndsInDigit (z.clock ++ ':' :: (paddedDigits 2 z.second ++ []))
    rw [List.append_nil]
    exact (hsecond.cons ':').append _
  | fraction digits =>
    exact ((((endsInDigit_padded digits _).cons '.').append _).cons ':').append _

theorem space_notMem_date (z : Civil) : ' ' ∉ z.date := by
  simp [Civil.date, notMem_padded]

theorem space_notMem_detail (detail : Detail) : ' ' ∉ z.clock ++ detail.text z := by
  cases detail <;> simp [Civil.clock, Detail.text, Detail.tail, notMem_padded]

theorem endsInDigit_stem : EndsInDigit (s.stem z) :=
  ((endsInDigit_detail s.detail).cons _).append _

theorem isEmpty_stem (rest : List Char) : (s.stem z ++ rest).isEmpty = false := by
  obtain ⟨c, hc, -⟩ := endsInDigit_stem (z := z) (s := s)
  cases hstem : s.stem z with
  | nil =>
    rw [hstem] at hc
    cases hc
  | cons => rfl

/-- Without an offset, the lenient readers are given date and time with a `T` between them. -/
theorem naive_eq (hzone : s.zone = .silent ∨ s.zone = .utc) (hmark : s.mark = 'T' ∨ s.mark = ' ') :
    markFirstSpace (dropTrailingZ (s.stem z ++ s.zone.text)) =
      z.date ++ 'T' :: (z.clock ++ s.detail.text z) := by
  have hdrop : dropTrailingZ (s.stem z ++ s.zone.text) = s.stem z := by
    rcases hzone with hzone | hzone
    · rw [hzone, Zone.text, List.append_nil, dropTrailingZ_eq endsInDigit_stem]
    · rw [hzone, Zone.text, dropTrailingZ_mark, dropTrailingZ_eq endsInDigit_stem]
  rw [hdrop, Spelling.stem, markFirstSpace_append (space_notMem_date z)]
  rcases hmark with hmark | hmark
  · rw [hmark, markFirstSpace, if_neg (by decide), markFirstSpace_eq (space_notMem_detail _)]
  · rw [hmark, markFirstSpace, if_pos rfl]

/-- A spelling begins with a digit and ends in one or with the letter `Z`. -/
theorem trim_write (hbefore : ∀ c ∈ s.before, Text.isBlank c = true)
    (hafter : ∀ c ∈ s.after, Text.isBlank c = true) :
    Text.trim (s.before ++ (s.stem z ++ s.zone.text ++ s.after)) = s.stem z ++ s.zone.text := by
  obtain ⟨first, hfirst, hdigit⟩ := head?_date z
  have hhead : (s.stem z ++ s.zone.text).head? = some first := by
    rw [Spelling.stem, List.append_assoc, List.head?_append, hfirst]
    rfl
  have hdigits : EndsInDigit (s.stem z ++ s.zone.text) →
      ∃ last, (s.stem z ++ s.zone.text).getLast? = some last ∧ Text.isBlank last = false :=
    fun ⟨c, hc, hcdigit⟩ => ⟨c, hc, isBlank_of_isDigit hcdigit⟩
  have hlast : ∃ last, (s.stem z ++ s.zone.text).getLast? = some last ∧
      Text.isBlank last = false := by
    cases hzone : s.zone with
    | silent =>
      rw [hzone] at hdigits
      exact hdigits (by rw [Zone.text, List.append_nil]; exact endsInDigit_stem)
    | utc => exact ⟨'Z', by rw [Zone.text, List.getLast?_append]; rfl, by decide⟩
    | offset west hours minutes =>
      rw [hzone] at hdigits
      exact hdigits ((((endsInDigit_padded 2 minutes).cons ':').append _).cons _ |>.append _)
  obtain ⟨last, hlast, hblank⟩ := hlast
  exact Text.trim_blanks hbefore hafter hhead hlast (isBlank_of_isDigit hdigit) hblank

/-! ## Readers -/

/-- What the strict reader does after the minutes. -/
def strictRest (z : Civil) (s : List Char) : Option Instant := do
  let (_, s) ← literal ':' s
  let (second, s) ← number 2 2 s
  let (nanos, s) ← fraction s
  let (shift, s) ← offset (literal ':') s
  if maxOffset < shift ∨ shift < -maxOffset then none
  if !s.isEmpty then none
  (ofCivil? z.year z.month z.day z.hour z.minute second nanos).bind (atOffset · shift)

theorem some_bind {α β : Type} (a : α) (s : List Char) (k : α × List Char → Option β) :
    (some (a, s) >>= k) = k (a, s) := rfl

theorem number_two {n : Nat} (hn : n < 100) :
    number 2 2 (paddedDigits 2 n ++ rest) = some (n, rest) :=
  number_padded (by decide) (by decide) hn

theorem parseStrict?_eq (hz : z.Fits) {mark : Char} (hmark : mark = 'T' ∨ mark = ' ') :
    parseStrict? (z.date ++ mark :: (z.clock ++ rest)) = strictRest z rest := by
  have hyear : ((z.year.toNat : Nat) : Int) = z.year := Int.toNat_of_nonneg hz.year_nonneg
  have hfour : ∀ {rest : List Char}, number 4 4 (paddedDigits 4 z.year.toNat ++ rest) =
      some (z.year.toNat, rest) := by
    intro rest
    have hbound : z.year.toNat < 10 ^ 4 := by
      have := hz.year_le
      omega
    exact number_padded (by decide) (by decide) hbound
  have hdateTime : ∀ s, dateTimeMark (mark :: s) = some ((), s) := by
    rcases hmark with rfl | rfl <;> exact fun _ => rfl
  unfold parseStrict? strictRest Civil.date Civil.clock
  simp only [List.append_assoc, List.cons_append, hfour, some_bind, literal_eq,
    number_two hz.month_lt, number_two hz.day_lt, hdateTime, number_two hz.hour_lt,
    number_two hz.minute_lt, hyear]

theorem lenientMinutes_eq (hz : z.Fits) : lenientMinutes (z.date ++ 'T' :: (z.clock ++ rest)) =
    some ((z.year, z.month, z.day, z.hour, z.minute), rest) := by
  have hyear : ((z.year.toNat : Nat) : Int) = z.year := Int.toNat_of_nonneg hz.year_nonneg
  have hfour : ∀ {rest : List Char}, lenientYear (paddedDigits 4 z.year.toNat ++ rest) =
      some (z.year, rest) := by
    intro rest
    have := hz.year_le
    rw [lenientYear_unsigned (by omega), hyear]
  unfold lenientMinutes Civil.date Civil.clock
  simp only [List.append_assoc, List.cons_append, hfour, some_bind, literal_eq,
    lenientField_eq hz.month_lt, lenientField_eq hz.day_lt, lenientField_eq hz.hour_lt,
    lenientField_eq hz.minute_lt]

/-- A fraction is read in any length that suffices. -/
theorem fraction_tail {detail : Detail} (hdetail : detail.Suffices z) (hne : detail ≠ .minutes)
    (hnanos : z.nanos < 1000000000)
    (hrest : ∀ c, rest.head? = some c → c.isDigit = false ∧ c ≠ '.') :
    fraction (detail.tail z ++ rest) = some (z.nanos, rest) := by
  cases detail with
  | minutes => exact absurd rfl hne
  | seconds =>
    have hzero : z.nanos = 0 := hdetail
    rw [hzero]
    cases rest with
    | nil => rfl
    | cons c rest =>
      show fraction (c :: rest) = some (0, c :: rest)
      unfold fraction
      split
      · next heq => exact absurd (List.cons.inj heq).1 (hrest c rfl).2
      · rfl
  | fraction digits =>
    obtain ⟨hpos, hnine, hdvd⟩ := hdetail
    have hpow : 10 ^ digits * 10 ^ (9 - digits) = 1000000000 := by
      rw [← Nat.pow_add, Nat.add_sub_cancel' hnine]
    have hbound : z.nanos / 10 ^ (9 - digits) < 10 ^ digits :=
      Nat.div_lt_of_lt_mul (by rw [Nat.mul_comm, hpow]; exact hnanos)
    rw [Detail.tail, List.cons_append,
      fraction_padded hpos hnine hbound fun c hc => (hrest c hc).1, Nat.div_mul_cancel hdvd]

theorem head?_zone (zone : Zone) (c : Char) (hc : zone.text.head? = some c) :
    c.isDigit = false ∧ c ≠ '.' := by
  cases zone with
  | silent => cases hc
  | utc =>
    cases hc
    decide
  | offset west hours minutes =>
    cases hc
    cases west <;> decide

theorem offset_zone {zone : Zone} (hsmall : zone.Small) (hne : zone ≠ .silent) :
    offset (literal ':') zone.text = some (zone.ahead, []) := by
  cases zone with
  | silent => exact absurd rfl hne
  | utc => rfl
  | offset west hours minutes =>
    obtain ⟨hhours, hminutes⟩ := hsmall
    have hfirst : number 2 2 (paddedDigits 2 hours ++ ':' :: paddedDigits 2 minutes) =
        some (hours, ':' :: paddedDigits 2 minutes) :=
      number_two (Nat.lt_of_le_of_lt hhours (by decide))
    have hsecond : number 2 2 (paddedDigits 2 minutes ++ []) = some (minutes, []) :=
      number_two (Nat.lt_of_le_of_lt hminutes (by decide))
    rw [List.append_nil] at hsecond
    cases west <;>
      simp [Zone.text, Zone.ahead, offset, hfirst, hsecond, literal, Nat.not_lt.mpr hminutes]

theorem ahead_bounds {zone : Zone} (hsmall : zone.Small) :
    zone.ahead ≤ maxOffset ∧ -maxOffset ≤ zone.ahead ∧ zone.ahead % 60 = 0 := by
  have hmax : maxOffset = 86340 := by decide
  rw [hmax]
  cases zone with
  | offset west hours minutes =>
    obtain ⟨hhours, hminutes⟩ := hsmall
    simp only [Zone.ahead]
    split <;> omega
  | _ => decide

theorem text_of_ne {detail : Detail} (hne : detail ≠ .minutes) :
    detail.text z = ':' :: (paddedDigits 2 z.second ++ detail.tail z) := by
  cases detail with
  | minutes => exact absurd rfl hne
  | _ => rfl

/-- Without seconds nothing is read. -/
theorem strictRest_minutes {zone : Zone} (hzone : zone = .silent ∨ zone = .utc) :
    strictRest z (Detail.minutes.text z ++ zone.text) = none := by
  rcases hzone with rfl | rfl <;> rfl

section

variable {detail : Detail} {zone : Zone} (hz : z.Fits) (hdetail : detail.Suffices z)
  (hne : detail ≠ .minutes)

include hz hdetail hne

/-- Without an offset nothing is read. -/
theorem strictRest_silent : strictRest z (detail.text z ++ Zone.silent.text) = none := by
  unfold strictRest
  simp only [text_of_ne hne, List.append_assoc, List.cons_append, literal_eq, some_bind,
    number_two hz.second_lt, fraction_tail hdetail hne hz.nanos_lt (head?_zone .silent)]
  rfl

theorem strictRest_zone (hsmall : zone.Small) (hzone : zone ≠ .silent) :
    strictRest z (detail.text z ++ zone.text) = z.instant?.bind (atOffset · zone.ahead) := by
  obtain ⟨hhigh, hlow, -⟩ := ahead_bounds hsmall
  have hrange : ¬ (maxOffset < zone.ahead ∨ zone.ahead < -maxOffset) := by omega
  unfold strictRest
  simp only [text_of_ne hne, List.append_assoc, List.cons_append, literal_eq, some_bind,
    number_two hz.second_lt, fraction_tail hdetail hne hz.nanos_lt (head?_zone zone),
    offset_zone hsmall hzone, if_neg hrange]
  rfl

theorem parseSeconds?_eq :
    parseSeconds? (z.date ++ 'T' :: (z.clock ++ detail.text z)) = z.instant? := by
  have hfraction : fraction (detail.tail z ++ []) = some (z.nanos, []) :=
    fraction_tail hdetail hne hz.nanos_lt nofun
  rw [List.append_nil] at hfraction
  unfold parseSeconds?
  simp only [lenientMinutes_eq hz, some_bind, text_of_ne hne, literal_eq,
    lenientField_eq hz.second_lt, hfraction]
  rfl

end

theorem parseSeconds?_minutes (hz : z.Fits) :
    parseSeconds? (z.date ++ 'T' :: (z.clock ++ Detail.minutes.text z)) = none := by
  unfold parseSeconds?
  rw [lenientMinutes_eq hz]
  rfl

theorem parseMinutes?_eq (hz : z.Fits) (hdetail : Detail.minutes.Suffices z) :
    parseMinutes? (z.date ++ 'T' :: (z.clock ++ Detail.minutes.text z)) = z.instant? := by
  obtain ⟨hsecond, hnanos⟩ := hdetail
  unfold parseMinutes? Civil.instant?
  rw [lenientMinutes_eq hz, hsecond, hnanos]
  rfl

end

/-! ## Sunsets -/

theorem dated_localTime {s : Spelling} (ht : t.Dated) (hs : s.Suits t) : (s.localTime t).Dated := by
  obtain ⟨-, -, hminutes⟩ := ahead_bounds hs.small
  refine ⟨hs.year_nonneg, hs.year_le, ht.nanos_lt, fun hlong => ?_⟩
  have := ht.leap hlong
  show (t.seconds + s.zone.ahead) % 60 = 59
  omega

/-- Without an offset the time is that of UTC. -/
theorem localTime_eq {s : Spelling} (h : s.zone = .silent ∨ s.zone = .utc) :
    s.localTime t = t := by
  have hzero : s.zone.ahead = 0 := by rcases h with h | h <;> rw [h] <;> rfl
  rw [Spelling.localTime, hzero, shiftSeconds, Int.add_zero]

/-- **Whatever the spelling of an instant, it is the instant that is read.** -/
theorem parseSunset?_write {s : Spelling} (ht : t.Dated) (hs : s.Suits t) :
    parseSunset? (s.write t) = some t := by
  obtain ⟨z, hz⟩ : ∃ z, z = (s.localTime t).civil := ⟨_, rfl⟩
  have hdated := dated_localTime ht hs
  have hfits : z.Fits := hz ▸ hdated.fits
  have hinstant : z.instant? = some (s.localTime t) := hz ▸ instant?_civil hdated
  have hdetail : s.detail.Suffices z := hz ▸ hs.detail
  have hstrict : parseStrict? (s.stem z ++ s.zone.text) =
      strictRest z (s.detail.text z ++ s.zone.text) := by
    rw [← parseStrict?_eq hfits hs.mark, Spelling.stem]
    simp only [List.append_assoc, List.cons_append]
  unfold parseSunset? Spelling.write
  rw [String.toList_ofList, ← hz, trim_write hs.before_blank hs.after_blank]
  dsimp only
  rw [isEmpty_stem, if_neg Bool.false_ne_true, hstrict]
  by_cases hminutes : s.detail = .minutes
  -- Neither the strict reader nor the one for seconds finds anything after the minutes.
  · have hzone := hs.detailed hminutes
    rw [hminutes] at hdetail
    rw [naive_eq hzone hs.mark, hminutes, strictRest_minutes hzone, parseSeconds?_minutes hfits,
      parseMinutes?_eq hfits hdetail, hinstant, localTime_eq hzone]
    rfl
  · by_cases hzone : s.zone = .silent
    -- The strict reader misses an offset.
    · rw [naive_eq (.inl hzone) hs.mark, hzone, strictRest_silent hfits hdetail hminutes,
        parseSeconds?_eq hfits hdetail hminutes, hinstant, localTime_eq (.inl hzone)]
      rfl
    · rw [strictRest_zone hfits hdetail hminutes hs.small hzone, hinstant, Option.bind_some,
        Spelling.localTime, atOffset_shiftSeconds ht.valid]
      rfl

namespace Sample

/-- The time where it is an hour later than in UTC. -/
def eastern : Spelling := ⟨[' '], ' ', .fraction 2, .offset false 1 0, ['\t', '\n']⟩

/-- The last half hour of 2029, and half a second into it. -/
def yearEnd : Instant := ⟨1893454200, 500000000⟩

end Sample

open Sample in
theorem parseSunset?_write_eastern : yearEnd.Dated ∧ eastern.Suits yearEnd ∧
    eastern.write yearEnd = " 2030-01-01 00:30:00.50+01:00\t\n" ∧
    parseSunset? " 2030-01-01 00:30:00.50+01:00\t\n" = some yearEnd := by
  have hdated : yearEnd.Dated := ⟨by decide, by decide, by decide, by decide⟩
  have hbefore : ∀ c ∈ eastern.before, Text.isBlank c = true :=
    List.forall_mem_singleton.mpr (by decide)
  have hafter : ∀ c ∈ eastern.after, Text.isBlank c = true :=
    List.forall_mem_cons.mpr ⟨by decide, List.forall_mem_singleton.mpr (by decide)⟩
  have hsuits : eastern.Suits yearEnd :=
    ⟨hbefore, hafter, .inr rfl, ⟨by decide, by decide⟩, ⟨by decide, by decide, by decide⟩,
      nofun, by decide, by decide⟩
  have htext : eastern.write yearEnd = " 2030-01-01 00:30:00.50+01:00\t\n" := by decide
  have hread := parseSunset?_write hdated hsuits
  rw [htext] at hread
  exact ⟨hdated, hsuits, htext, hread⟩

/-! ## What is read -/

theorem nanos_lt_of_ofCivil? {year : Int} {month day hour minute second nanos : Nat}
    {s s' : List Char} (hfraction : fraction s = some (nanos, s'))
    (h : ofCivil? year month day hour minute second nanos = some t) : t.nanos < 2000000000 :=
  (ofCivil?_bounds (fraction_lt hfraction) h).1

theorem nanos_lt_of_parseStrict? {s : List Char} (h : parseStrict? s = some t) :
    t.nanos < 2000000000 := by
  unfold parseStrict? at h
  obtain ⟨⟨year, s⟩, -, h⟩ := Option.bind_eq_some_iff.mp h
  obtain ⟨⟨_, s⟩, -, h⟩ := Option.bind_eq_some_iff.mp h
  obtain ⟨⟨month, s⟩, -, h⟩ := Option.bind_eq_some_iff.mp h
  obtain ⟨⟨_, s⟩, -, h⟩ := Option.bind_eq_some_iff.mp h
  obtain ⟨⟨day, s⟩, -, h⟩ := Option.bind_eq_some_iff.mp h
  obtain ⟨⟨_, s⟩, -, h⟩ := Option.bind_eq_some_iff.mp h
  obtain ⟨⟨hour, s⟩, -, h⟩ := Option.bind_eq_some_iff.mp h
  obtain ⟨⟨_, s⟩, -, h⟩ := Option.bind_eq_some_iff.mp h
  obtain ⟨⟨minute, s⟩, -, h⟩ := Option.bind_eq_some_iff.mp h
  obtain ⟨⟨_, s⟩, -, h⟩ := Option.bind_eq_some_iff.mp h
  obtain ⟨⟨second, s⟩, -, h⟩ := Option.bind_eq_some_iff.mp h
  obtain ⟨⟨nanos, s⟩, hfraction, h⟩ := Option.bind_eq_some_iff.mp h
  obtain ⟨⟨shift, s⟩, -, h⟩ := Option.bind_eq_some_iff.mp h
  dsimp only at h
  split at h
  · cases h
  split at h
  · cases h
  obtain ⟨u, hcivil, hoffset⟩ := Option.bind_eq_some_iff.mp h
  unfold atOffset at hoffset
  dsimp only at hoffset
  split at hoffset
  · cases hoffset
    have hbound : u.nanos < 2000000000 := nanos_lt_of_ofCivil? hfraction hcivil
    exact hbound
  · cases hoffset

theorem nanos_lt_of_parseSeconds? {s : List Char} (h : parseSeconds? s = some t) :
    t.nanos < 2000000000 := by
  unfold parseSeconds? at h
  obtain ⟨⟨⟨year, month, day, hour, minute⟩, s⟩, -, h⟩ := Option.bind_eq_some_iff.mp h
  obtain ⟨⟨_, s⟩, -, h⟩ := Option.bind_eq_some_iff.mp h
  obtain ⟨⟨second, s⟩, -, h⟩ := Option.bind_eq_some_iff.mp h
  obtain ⟨⟨nanos, s⟩, hfraction, h⟩ := Option.bind_eq_some_iff.mp h
  dsimp only at h
  split at h
  · exact nanos_lt_of_ofCivil? hfraction h
  · cases h

theorem nanos_lt_of_parseMinutes? {s : List Char} (h : parseMinutes? s = some t) :
    t.nanos < 2000000000 := by
  unfold parseMinutes? at h
  obtain ⟨⟨⟨year, month, day, hour, minute⟩, s⟩, -, h⟩ := Option.bind_eq_some_iff.mp h
  dsimp only at h
  split at h
  · exact nanos_lt_of_ofCivil? (s := []) rfl h
  · cases h

/-- A sunset in a leap second is within it. -/
theorem nanos_lt_of_parseSunset? {raw : String} (h : parseSunset? raw = some t) :
    t.nanos < 2000000000 := by
  unfold parseSunset? at h
  dsimp only at h
  split at h
  · cases h
  · rcases Option.or_eq_some_iff.mp h with h | ⟨-, h⟩
    · rcases Option.or_eq_some_iff.mp h with h | ⟨-, h⟩
      · exact nanos_lt_of_parseStrict? h
      · exact nanos_lt_of_parseSeconds? h
    · exact nanos_lt_of_parseMinutes? h

end Instant

end BridgeOperator
