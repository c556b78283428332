import BridgeOperator.Proofs.Yaml.Literal
import BridgeOperator.Proofs.Yaml.Plain
import BridgeOperator.Proofs.Yaml.Quoted
import BridgeOperator.Proofs.Yaml.Reach

/-!
A scalar becomes one token, whatever style it is written in. As a value it is read up to the next
token on a later line, as a key up to its colon.
-/

namespace BridgeOperator.Yaml.Scanner

variable {c c' : Cursor} {found : List Token} {indents : List Int} {key : Option SimpleKey}
  {allowed broken : Bool} {s t : List Char} {x : Char} {m n : Nat}

/-! ## Taking a scalar -/

/-- The key that may start at a token. -/
def keyAt (c : Cursor) (found : List Token) (indents : List Int) : SimpleKey where
  required := indents.head?.getD (-1) = (c.column : Int)
  before := found.length
  line := c.line
  column := c.column
  index := c.index

/-- The key that is remembered at a token. -/
def saved (c : Cursor) (found : List Token) (indents : List Int) (allowed : Bool) :
    Option SimpleKey :=
  if allowed then some (keyAt c found indents) else none

theorem saveKey_between :
    (between c found indents allowed).saveKey =
      some (within c found indents (saved c found indents allowed) allowed) := by
  cases allowed <;> rfl

theorem not_atMark (h : c.atDocumentMark = false) : c.atMark '-' = false ∧ c.atMark '.' = false :=
  Bool.or_eq_false_iff.mp h

/-- The quote around a scalar. -/
def quote (single : Bool) : Char := if single then '\'' else '"'

theorem take_quoted {single : Bool} (hmark : c.atDocumentMark = false)
    (hc : c.rest = quote single :: t)
    (hread : readQuoted single (t.length + 1) (c.after [quote single]) [] = some (s.reverse, c')) :
    (between c found indents allowed).take =
      some (within c' (.scalar false (String.ofList s) :: found) indents
        (saved c found indents allowed) false) := by
  have htake : (between c found indents allowed).take =
      (between c found indents allowed).takeQuoted single := by
    cases single <;> simp [take, within, hc, not_atMark hmark, quote]
  have hadvance : c.advance = c.after [quote single] :=
    Cursor.advance_eq_after (by cases single <;> rfl)
  rw [htake, takeQuoted, saveKey_between]
  simp only [bind, Option.bind_some, within, hadvance, rest_step hc, hread, List.reverse_reverse]
  rfl

theorem take_literal (hmark : c.atDocumentMark = false) (hc : c.rest = '|' :: t)
    (hread : readBlock true (between c found indents allowed).indent (c.after ['|']) =
      some (String.ofList s, c')) :
    (between c found indents allowed).take =
      some (between c' (.scalar false (String.ofList s) :: found) indents true) := by
  have htake : (between c found indents allowed).take =
      (between c found indents allowed).takeBlockScalar true := by
    simp [take, within, inFlow, hc, not_atMark hmark]
  rw [htake, takeBlockScalar]
  simp only [bind, dropKey, within, Option.bind_some, Cursor.advance_eq_after (c := c) (x := '|') rfl]
  rw [show Scanner.readBlock true (Scanner.indent ⟨c, found, indents, [none], allowed⟩) _ = _ from hread]
  rfl

/-- The plainest style, and what allows it. -/
theorem styleOf_cases (s : List Char) :
    (styleOf s = .plain ∧ isAmbiguous s = false ∧ plainAllowed s = true) ∨
    (styleOf s = .single ∧ singleAllowed s = true ∧ '\n' ∉ s) ∨
    styleOf s = .double ∨
    (styleOf s = .literal ∧ literalAllowed s = true ∧ '\n' ∈ s) := by
  unfold styleOf
  split
  · split <;> simp_all
  · split
    · simp_all
    · split <;> simp_all

theorem not_blank_of_not_end {u : List Char} (h : isBlankOrEnd u = false) :
    u.head?.any isBlank = false := by
  cases u with
  | nil => rfl
  | cons x u => exact (Bool.or_eq_false_iff.mp h).1

/-- An indicator that may start a plain scalar has more of it right after it. -/
theorem isBlankOrEnd_text (hs : PlainText (x :: s)) (hx : x = '?' ∨ x = ':' ∨ x = '-') :
    isBlankOrEnd (s ++ t) = false := by
  have hhead := hs.head
  simp only [startsIndicator, Bool.or_eq_false_iff, Bool.and_eq_false_iff, beq_eq_false_iff_ne]
    at hhead
  exact isBlankOrEnd_append (hhead.2.resolve_left (by rcases hx with rfl | rfl | rfl <;> simp))

/-- No other indicator starts a plain scalar. -/
theorem not_indicator (hs : PlainText (x :: s)) :
    x ∉ "#,[]\x7b\x7d&*!|>'\"%@`".toList := by
  have hhead := hs.head
  simp only [startsIndicator, Bool.or_eq_false_iff] at hhead
  simpa using hhead.1

theorem startsPlain_text (hs : PlainText (x :: s)) : startsPlain false (x :: (s ++ t)) = true := by
  have hbreak : isBreak x = false := hs.unbroken x List.mem_cons_self
  have hblank : isBlank x = false := by
    rw [isBlank_of_isPrintable (hs.printable x List.mem_cons_self)]
    simpa using hs.space
  have hnot := not_indicator hs
  by_cases hx : x = '?' ∨ x = ':' ∨ x = '-'
  · have hend := isBlankOrEnd_text (t := t) hs hx
    have hhead := not_blank_of_not_end hend
    rw [startsPlain, hend, hhead]
    rcases hx with rfl | rfl | rfl <;> rfl
  · simp only [String.reduceToList, List.mem_cons, List.not_mem_nil, or_false, not_or] at hx hnot
    simp [startsPlain, hblank, hbreak, hx, hnot]

theorem startsToken_plain (hs : PlainText s) : StartsToken (s ++ t) := by
  obtain ⟨x, s, rfl⟩ := List.exists_cons_of_ne_nil hs.nonempty
  have hprintable := hs.printable x List.mem_cons_self
  have hblank : isBlank x = false := by
    rw [isBlank_of_isPrintable hprintable]
    simpa using hs.space
  refine ⟨solid_cons hblank (hs.unbroken x List.mem_cons_self), ?_⟩
  rintro y ⟨⟩
  constructor
  · rintro rfl
    exact not_indicator hs (by decide)
  · rintro rfl
    exact absurd hprintable (by decide)

theorem take_plain (hs : PlainText s) (hmark : c.atDocumentMark = false) (hc : c.rest = s ++ t)
    (hread : readPlain false ((between c found indents allowed).indent + 1)
      (2 * c.rest.length + 2) c Gap.none [] = some (s.reverse, broken, c')) :
    (between c found indents allowed).take =
      some (within c' (.scalar true (String.ofList s) :: found) indents
        (saved c found indents allowed) broken) := by
  obtain ⟨x, s, rfl⟩ := List.exists_cons_of_ne_nil hs.nonempty
  have htake : (between c found indents allowed).take =
      (between c found indents allowed).takePlain := by
    have hstarts := startsPlain_text (t := t) hs
    have hnot := not_indicator hs
    have hend := isBlankOrEnd_text (t := t) hs
    simp only [String.reduceToList, List.mem_cons, List.not_mem_nil, or_false, not_or] at hnot
    have hdash : ¬(x = '-' ∧ isBlankOrEnd (s ++ t) = true) := fun h => by simp [hend, h.1] at h
    have hquestion : ¬(x = '?' ∧ isBlankOrEnd (s ++ t) = true) := fun h => by simp [hend, h.1] at h
    have hcolon : ¬(x = ':' ∧ isBlankOrEnd (s ++ t) = true) := fun h => by simp [hend, h.1] at h
    rw [List.cons_append] at hc
    simp [take, within, inFlow, hc, not_atMark hmark, hnot, hdash, hquestion, hcolon, hstarts]
  rw [htake, takePlain, saveKey_between]
  simp only [bind, Option.bind_some]
  change ((readPlain false ((between c found indents allowed).indent + 1) (2 * c.rest.length + 2) c
    Gap.none []).bind _) = _
  rw [hread]
  simp [emit, within]

/-! ## Values -/

/-- At the next token, so many columns to the right, with everything closed that is deeper. -/
def arrived (c : Cursor) (n : Nat) (found : List Token) (indents : List Int) : Scanner :=
  (between c found indents true).unroll n

theorem isStale_saved {line : Nat} (hm : m < c.column) (hline : c.line < line) :
    IsStale (saved c found (m :: indents) allowed) line := by
  cases allowed with
  | false => exact isStale_none line
  | true =>
    rintro k ⟨⟩
    refine ⟨?_, hline⟩
    have hne : ¬((m : Int) = c.column) := by omega
    exact decide_eq_false hne

theorem settle_between (hrest : StartsToken c.rest)
    (h : (between c found indents allowed).indent ≤ c.column) :
    (between c found indents allowed).settle = some (between c found indents allowed) := by
  rw [settle_token hrest (isStale_none _), unroll_of_le h]

theorem Reaches.line (hc : c.rest = '\n' :: (spaces n ++ t)) (ht : StartsToken t)
    (hkey : IsStale key (c.line + 1)) :
    Reaches (within c found indents key allowed)
      (arrived (c.after ('\n' :: spaces n)) n found indents) := by
  have hrest : (c.after ('\n' :: spaces n)).rest = t := Cursor.rest_after_of_eq hc
  have hcolumn : (c.after ('\n' :: spaces n)).column = n := by
    rw [Cursor.column_after_break rfl (unbroken_spaces n)]
    simp [spaces]
  refine .of_settle (settle_line hc ht hkey) ?_ ?_
  · have h : ((between (c.after ('\n' :: spaces n)) found indents true).unroll
        (c.after ('\n' :: spaces n)).column).settle = some _ :=
      settle_unroll (by rw [hrest]; exact ht)
    rw [hcolumn] at h
    exact h
  · change (c.after ('\n' :: spaces n)).rest.length ≤ c.rest.length
    rw [hrest, hc]
    simp
    omega

theorem Reaches.past (hrest : StartsToken c.rest) (hcolumn : c.column = n)
    (hkey : IsStale key c.line) :
    Reaches (within c found indents key true) (arrived c n found indents) := by
  subst hcolumn
  exact .of_settle (settle_token hrest hkey) (settle_unroll hrest) (Nat.le_refl _)

/-- The text between quotes stands for another text. -/
structure Quotes (single : Bool) (s body : List Char) : Prop where
  length : s.length ≤ body.length
  read {c : Cursor} {t : List Char} {fuel : Nat} : 0 < c.column →
    c.rest = body ++ quote single :: t → t.head? ≠ some (quote single) → s.length < fuel →
    readQuoted single fuel c [] = some (s.reverse, c.after (body ++ [quote single]))

theorem quotes_single {indent : Nat} (hs : SingleQuotable s) (h : Unbroken s ∨ 0 < indent) :
    Quotes true s (singleBody indent s) where
  length := length_le_singleBody indent s
  read hcolumn hc ht hfuel := by
    have hread : readQuoted true _ _ [] = some (s.reverse ++ [], _) :=
      readQuoted_single hs h hcolumn hc ht hfuel
    rwa [List.append_nil] at hread

theorem quotes_double (s : List Char) : Quotes false s (s.flatMap escaped) where
  length := (flatMap_escaped s).2.1
  read hcolumn hc _ hfuel := by
    have hread : readQuoted false _ _ [] = some (s.reverse ++ [], _) :=
      readQuoted_double hcolumn hc hfuel
    rwa [List.append_nil] at hread

theorem Quotes.take {single : Bool} {body : List Char} (h : Quotes single s body)
    (hc : c.rest = quote single :: body ++ quote single :: t)
    (ht : t.head? ≠ some (quote single)) :
    (between c found indents allowed).take =
      some (within (c.after (quote single :: body ++ [quote single]))
        (.scalar false (String.ofList s) :: found) indents (saved c found indents allowed)
        false) := by
  have hmark : c.atDocumentMark = false :=
    Cursor.atDocumentMark_of_head hc (by cases single <;> decide)
  have hcolumn : 0 < (c.after [quote single]).column := by
    rw [Cursor.column_after_of_unbroken (by cases single <;> decide)]
    exact Nat.succ_pos _
  refine take_quoted hmark hc (h.read hcolumn (rest_step hc) ht ?_)
  have := h.length
  simp
  omega

section

variable (hm : m < c.column) (hn : n ≤ m) (ht : StartsToken t)

include hm ht

theorem reaches_quoted {single : Bool} {body : List Char} (h : Quotes single s body)
    (hc : c.rest = quote single :: body ++ quote single :: '\n' :: (spaces n ++ t)) :
    Reaches (between c found (m :: indents) allowed)
      (arrived (c.after (quote single :: body ++ quote single :: '\n' :: spaces n)) n
        (.scalar false (String.ofList s) :: found) (m :: indents)) := by
  have htake : (between c found (m :: indents) allowed).take = some (within _ _ _ _ false) :=
    h.take hc (by cases single <;> nofun)
  have hrest : (c.after (quote single :: body ++ [quote single])).rest = '\n' :: (spaces n ++ t) :=
    Cursor.rest_after_of_eq (by rw [hc]; simp)
  have hend : c.after (quote single :: body ++ quote single :: '\n' :: spaces n) =
      (c.after (quote single :: body ++ [quote single])).after ('\n' :: spaces n) := by simp
  have hstart : StartsToken c.rest := by
    rw [hc]
    cases single <;> exact ⟨solid_cons rfl rfl, by rintro x ⟨⟩; decide⟩
  have hline : c.line ≤ (c.after (quote single :: body ++ [quote single])).line := by
    rw [Cursor.line_after]
    exact Nat.le_add_right ..
  rw [hend]
  refine (Reaches.of_take (settle_between hstart ?_) htake ?_).trans
    (.line hrest ht (isStale_saved hm (Nat.lt_succ_of_le hline)))
  · exact Int.le_of_lt (Int.ofNat_lt.mpr hm)
  · change (c.after _).rest.length < c.rest.length
    rw [hrest, hc]
    simp
    omega

include hn

theorem reaches_plain (hs : PlainText s) (hc : c.rest = s ++ '\n' :: (spaces n ++ t)) :
    Reaches (between c found (m :: indents) allowed)
      (arrived (c.after (s ++ '\n' :: spaces n)) n
        (.scalar true (String.ofList s) :: found) (m :: indents)) := by
  have hmark : c.atDocumentMark = false := Cursor.atDocumentMark_of_column (by omega)
  have hstart : StartsToken c.rest := by
    rw [hc]
    exact startsToken_plain hs
  have hfuel : s.length < 2 * c.rest.length + 2 := by
    rw [hc, List.length_append]
    omega
  have hread : readPlain false ((between c found (m :: indents) allowed).indent + 1)
      (2 * c.rest.length + 2) c Gap.none [] =
        some (s.reverse, true, c.after (s ++ '\n' :: spaces n)) :=
    readPlain_value hs (show (m : Int) + 1 ≤ c.column + 1 by omega) hfuel hc ht.1
      (show (n : Int) < m + 1 by omega)
  have hrest : (c.after (s ++ '\n' :: spaces n)).rest = t :=
    Cursor.rest_after_of_eq (by rw [hc]; simp)
  have hcolumn : (c.after (s ++ '\n' :: spaces n)).column = n := by
    rw [Cursor.after_append, Cursor.column_after_break rfl (unbroken_spaces n)]
    simp [spaces]
  have hline : c.line < (c.after (s ++ '\n' :: spaces n)).line := by
    rw [Cursor.line_after, List.countP_append, List.countP_cons_of_pos rfl]
    omega
  have htake := take_plain hs hmark hc hread
  refine (Reaches.of_take (settle_between hstart ?_) htake ?_).trans
    (.past (by rw [hrest]; exact ht) hcolumn (isStale_saved hm hline))
  · exact Int.le_of_lt (Int.ofNat_lt.mpr hm)
  · change (c.after _).rest.length < c.rest.length
    rw [hrest, hc]
    simp
    omega

theorem reaches_literal (hs : literalAllowed s = true) (hne : s ≠ [])
    (hc : c.rest = literalHeader s ++ '\n' ::
      (indentLines (m + 2) true (closed s) ++ (spaces n ++ t))) :
    Reaches (between c found (m :: indents) allowed)
      (arrived (c.after (literalHeader s ++ '\n' ::
          (indentLines (m + 2) true (closed s) ++ spaces n))) n
        (.scalar false (String.ofList s) :: found) (m :: indents)) := by
  rw [literalHeader_eq] at hc ⊢
  rw [List.cons_append] at hc
  have hmark : c.atDocumentMark = false := Cursor.atDocumentMark_of_column (by omega)
  have hstart : StartsToken c.rest := by
    rw [hc]
    exact ⟨solid_cons rfl rfl, by rintro x ⟨⟩; decide⟩
  have hread := readBlock_literal (c := c.after ['|']) hs hne hn ht.1 (rest_step hc)
  rw [← Cursor.after_append] at hread
  have htake : (between c found (m :: indents) allowed).take = some (between _ _ _ true) :=
    take_literal hmark hc hread
  have hlines := Cursor.rest_after_of_eq (c := c) (t := t)
    (u := ['|'] ++ ((if hinted s then ['2'] else []) ++ (chompingOf s).sign ++ '\n' ::
      (indentLines (m + 2) true (closed s) ++ spaces n))) (by rw [hc]; simp)
  have hcolumn := Cursor.column_after_endsLine (c := c)
    ((endsLine_closed (m + 2) s).append
      ('|' :: ((if hinted s then ['2'] else []) ++ (chompingOf s).sign ++ ['\n']))) n
  refine (Reaches.of_take (settle_between hstart ?_) htake ?_).trans
    (.past ?_ (by simpa using hcolumn) (isStale_none _))
  · exact Int.le_of_lt (Int.ofNat_lt.mpr hm)
  · change (c.after _).rest.length < c.rest.length
    rw [hlines, hc]
    simp
    omega
  · rw [hlines]
    exact ht

theorem reaches_scalar (hc : c.rest = scalarLine (m + 2) s ++ (spaces n ++ t)) :
    Reaches (between c found (m :: indents) allowed)
      (arrived (c.after (scalarLine (m + 2) s ++ spaces n)) n
        (.scalar (styleOf s = .plain) (String.ofList s) :: found) (m :: indents)) := by
  unfold scalarLine at hc ⊢
  obtain ⟨hstyle, -, hs⟩ | ⟨hstyle, hs, hnewline⟩ | hstyle | ⟨hstyle, hs, hnewline⟩ := styleOf_cases s
  · rw [hstyle] at hc ⊢
    simpa using reaches_plain hm hn ht (.of_allowed hs) (by simpa using hc)
  · rw [hstyle] at hc ⊢
    simp only [singleText_eq] at hc ⊢
    simpa [quote] using reaches_quoted hm ht (quotes_single (.of_allowed hs hnewline) (.inr (by omega)))
      (by simpa [quote] using hc)
  · rw [hstyle] at hc ⊢
    simpa [quote, doubleText] using reaches_quoted hm ht (quotes_double s)
      (by simpa [quote, doubleText] using hc)
  · rw [hstyle] at hc ⊢
    have hne : s ≠ [] := List.ne_nil_of_mem hnewline
    have hclosed := indentLines_closed (m + 2) s
    simpa [hclosed] using reaches_literal hm hn ht hs hne (by rw [hclosed]; simpa using hc)

end

end BridgeOperator.Yaml.Scanner
