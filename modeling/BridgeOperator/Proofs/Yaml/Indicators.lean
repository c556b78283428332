import BridgeOperator.Proofs.Yaml.Scalars

/-!
The tokens that make up structure: the indicators of entries, keys and values, each of which may
open a collection at its column, and the brackets of an empty collection.
-/

namespace BridgeOperator.Yaml.Scanner

variable {c : Cursor} {found found' : List Token} {indents indents' : List Int} {allowed : Bool}
  {t : List Char} {m n : Nat} {x : Char} {start token : Token}

/-! ## Opening and closing -/

/-- The tokens found and the columns of the open collections, with one open at a column. -/
def opened (start : Token) (column : Int) (found : List Token) (indents : List Int) :
    List Token × List Int :=
  if column ≤ indents.head?.getD (-1) then (found, indents)
  else (start :: found, column :: indents)

theorem roll_between (start : Token) (column : Int) :
    (between c found indents allowed).roll column none start =
      between c (opened start column found indents).1 (opened start column found indents).2
        allowed := by
  unfold roll opened
  by_cases h : column ≤ indents.head?.getD (-1)
  · rw [if_pos (by simpa [inFlow, within, indent] using h), if_pos h]
  · rw [if_neg (by simpa [inFlow, within, indent] using h), if_neg h]
    rfl

theorem opened_same (start : Token) :
    opened start m found ((m : Int) :: indents) = (found, (m : Int) :: indents) :=
  if_pos (Int.le_refl _)

theorem opened_deeper (start : Token) (h : m < n) :
    opened start n found ((m : Int) :: indents) = (start :: found, (n : Int) :: (m : Int) :: indents) :=
  if_neg (Int.not_le.mpr (Int.ofNat_lt.mpr h))

/-- What has arrived at the column of the innermost collection closes nothing. -/
theorem arrived_same (h : m ≤ n) :
    arrived c n found (m :: indents) = between c found (m :: indents) true :=
  unroll_of_le (Int.ofNat_le.mpr h)

/-- A collection is closed where the next token is left of it. -/
theorem arrived_closed (h : n < m) :
    arrived c n found (m :: indents) = arrived c n (.blockEnd :: found) indents :=
  unroll_cons h

/-! ## Indicators -/

/-- The indicators of entries, keys and values, with what they open and what they become. -/
def indicators : List (Char × Token × Token) :=
  [('-', .sequenceStart, .entry), ('?', .mappingStart, .key), (':', .mappingStart, .value)]

theorem entry_mem : ('-', Token.sequenceStart, Token.entry) ∈ indicators := by simp [indicators]

theorem key_mem : ('?', Token.mappingStart, Token.key) ∈ indicators := by simp [indicators]

theorem value_mem : (':', Token.mappingStart, Token.value) ∈ indicators := by simp [indicators]

theorem startsToken_indicator (h : (x, start, token) ∈ indicators) : StartsToken (x :: t) := by
  simp only [indicators, List.mem_cons, Prod.mk.injEq, List.not_mem_nil, or_false] at h
  rcases h with ⟨rfl, -, -⟩ | ⟨rfl, -, -⟩ | ⟨rfl, -, -⟩ <;>
    exact ⟨solid_cons rfl rfl, by rintro x ⟨⟩; decide⟩

theorem take_indicator (h : (x, start, token) ∈ indicators) (hc : c.rest = x :: ' ' :: t) :
    (between c found indents true).take =
      some (between (c.after [x]) (token :: (opened start c.column found indents).1)
        (opened start c.column found indents).2 true) := by
  have hmark : c.atMark '-' = false ∧ c.atMark '.' = false := by
    cases t <;> simp [Cursor.atMark, hc]
  simp only [indicators, List.mem_cons, Prod.mk.injEq, List.not_mem_nil, or_false] at h
  rcases h with ⟨rfl, rfl, rfl⟩ | ⟨rfl, rfl, rfl⟩ | ⟨rfl, rfl, rfl⟩
  · have htake : (between c found indents true).take = (between c found indents true).takeEntry := by
      simp [take, within, hc, hmark, isBlankOrEnd, isBlank]
    rw [htake, takeEntry, roll_between]
    rfl
  · have htake : (between c found indents true).take = (between c found indents true).takeKey := by
      simp [take, within, hc, hmark, isBlankOrEnd, isBlank]
    rw [htake, takeKey, roll_between]
    rfl
  · have htake : (between c found indents true).take = (between c found indents true).takeValue := by
      simp [take, within, hc, hmark, isBlankOrEnd, isBlank]
    have hvalue : (between c found indents true).takeValue =
        let s := (between c found indents true).roll c.column none .mappingStart
        some { s.emitAndAdvance .value with keyAllowed := !s.inFlow } := rfl
    rw [htake, hvalue, roll_between]
    rfl

/-- A gap of spaces before a token on the same line. -/
theorem Reaches.gap (hc : c.rest = spaces n ++ t) (ht : StartsToken t)
    (hindent : (between c found indents allowed).indent ≤ c.column) :
    Reaches (between c found indents allowed) (between (c.after (spaces n)) found indents allowed) := by
  have hrest : (c.after (spaces n)).rest = t := Cursor.rest_after_of_eq hc
  have hcolumn : (between (c.after (spaces n)) found indents allowed).indent ≤
      (c.after (spaces n)).column := by
    rw [Cursor.column_after_of_unbroken (unbroken_spaces n)]
    exact Int.le_trans hindent (by omega)
  refine .of_settle ?_ (settle_between (by rw [hrest]; exact ht) hcolumn) ?_
  · rw [settle_spaces hc ht, unroll_of_le hcolumn]
  · change (c.after (spaces n)).rest.length ≤ c.rest.length
    rw [hrest, hc, List.length_append]
    omega

/-- An indicator and the space after it. -/
theorem reaches_indicator (h : (x, start, token) ∈ indicators) (hc : c.rest = x :: ' ' :: t)
    (ht : StartsToken t) (hcolumn : c.column = m)
    (hindent : (between c found indents' true).indent ≤ m)
    (hopened : opened start m found indents' = (found', (m : Int) :: indents)) :
    Reaches (between c found indents' true)
      (between (c.after [x, ' ']) (token :: found') (m :: indents) true) := by
  subst hcolumn
  have hx : isBreak x = false := by
    simp only [indicators, List.mem_cons, Prod.mk.injEq, List.not_mem_nil, or_false] at h
    rcases h with ⟨rfl, -, -⟩ | ⟨rfl, -, -⟩ | ⟨rfl, -, -⟩ <;> rfl
  have htake : (between c found indents' true).take =
      some (between (c.after [x]) (token :: found') (c.column :: indents) true) := by
    rw [take_indicator h hc, hopened]
  have hrest : (c.after [x]).rest = ' ' :: t := rest_step hc
  have hstart : StartsToken c.rest := by
    rw [hc]
    exact startsToken_indicator h
  refine (Reaches.of_take (settle_between hstart hindent) htake ?_).trans
    (.gap (n := 1) hrest ht ?_)
  · change (c.after [x]).rest.length < c.rest.length
    rw [hrest, hc]
    exact Nat.lt_succ_self _
  · rw [Cursor.column_after_of_unbroken (by simpa [Unbroken] using hx)]
    exact Int.ofNat_le.mpr (Nat.le_add_right _ _)

/-! ## Empty collections -/

/-- The brackets and braces, with the tokens they become. -/
def brackets : List (Char × Char × Token × Token) :=
  [('[', ']', .flowSequenceStart, .flowSequenceEnd), ('\x7b', '\x7d', .flowMappingStart, .flowMappingEnd)]

/-- Within a flow collection that has just been opened. -/
def inBrackets (c : Cursor) (found : List Token) (indents : List Int) (key : Option SimpleKey) :
    Scanner := ⟨c, found, indents, [none, key], true⟩

theorem take_bracket {y : Char} {stop : Token} (h : (x, y, start, stop) ∈ brackets)
    (hc : c.rest = x :: y :: t) :
    (between c found indents allowed).take =
      some (inBrackets (c.after [x]) (start :: found) indents
        (saved c found indents allowed)) := by
  simp only [brackets, List.mem_cons, Prod.mk.injEq, List.not_mem_nil, or_false] at h
  have hopen : (between c found indents allowed).openFlow start =
      some (inBrackets c.advance (start :: found) indents (saved c found indents allowed)) := by
    rw [openFlow, saveKey_between]
    rfl
  rcases h with ⟨rfl, rfl, rfl, rfl⟩ | ⟨rfl, rfl, rfl, rfl⟩ <;>
  · have hmark := not_atMark (Cursor.atDocumentMark_of_head hc ⟨by decide, by decide⟩)
    rw [← Cursor.advance_eq_after rfl, ← hopen]
    simp [take, within, hc, hmark]

theorem take_closing {y : Char} {stop : Token} {key : Option SimpleKey}
    (h : (x, y, start, stop) ∈ brackets) (hc : c.rest = y :: t) :
    (inBrackets c found indents key).take =
      some (within (c.after [y]) (stop :: found) indents key false) := by
  simp only [brackets, List.mem_cons, Prod.mk.injEq, List.not_mem_nil, or_false] at h
  rcases h with ⟨rfl, rfl, rfl, rfl⟩ | ⟨rfl, rfl, rfl, rfl⟩ <;>
  · have hmark := not_atMark (Cursor.atDocumentMark_of_head hc ⟨by decide, by decide⟩)
    rw [← Cursor.advance_eq_after rfl]
    simp [take, inBrackets, hc, hmark]
    rfl

/-- A key that has started right before the bracket is still one. -/
theorem settle_inBrackets {key : Option SimpleKey} (hrest : StartsToken c.rest)
    (hkey : ∀ k, key = some k → k.line = c.line ∧ c.index ≤ k.index + 1024) :
    (inBrackets c found indents key).settle = some (inBrackets c found indents key) := by
  have hskip : ∀ fuel, skipBlanks fuel (inBrackets c found indents key) =
      inBrackets c found indents key := fun _ => skipBlanks_token rfl hrest
  have hstale : (inBrackets c found indents key).staleKeys = some (inBrackets c found indents key) := by
    cases key with
    | none => rfl
    | some k =>
      obtain ⟨hline, hindex⟩ := hkey k rfl
      have h : ¬(k.line < c.line ∨ k.index + 1024 < c.index) := by omega
      simp [staleKeys, inBrackets, h]
  rw [settle, hskip, hstale]
  rfl

theorem reaches_empty {y : Char} {stop : Token} (h : (x, y, start, stop) ∈ brackets)
    (hm : m < c.column) (hc : c.rest = x :: y :: '\n' :: (spaces n ++ t)) (ht : StartsToken t) :
    Reaches (between c found (m :: indents) allowed)
      (arrived (c.after (x :: y :: '\n' :: spaces n)) n (stop :: start :: found) (m :: indents)) := by
  have hxy : isBreak x = false ∧ isBreak y = false ∧ (∀ u, StartsToken (x :: u)) ∧
      ∀ u, StartsToken (y :: u) := by
    simp only [brackets, List.mem_cons, Prod.mk.injEq, List.not_mem_nil, or_false] at h
    rcases h with ⟨rfl, rfl, -, -⟩ | ⟨rfl, rfl, -, -⟩ <;>
      exact ⟨rfl, rfl, fun u => ⟨solid_cons rfl rfl, by rintro x ⟨⟩; decide⟩,
        fun u => ⟨solid_cons rfl rfl, by rintro x ⟨⟩; decide⟩⟩
  obtain ⟨hx, hy, hstart, hstop⟩ := hxy
  have hrest : (c.after [x]).rest = y :: '\n' :: (spaces n ++ t) := rest_step hc
  have hrest' : ((c.after [x]).after [y]).rest = '\n' :: (spaces n ++ t) := rest_step hrest
  have hline : (c.after [x]).line = c.line :=
    Cursor.line_after_of_unbroken (by simpa [Unbroken] using hx)
  have hline' : ((c.after [x]).after [y]).line = c.line := by
    rw [Cursor.line_after_of_unbroken (by simpa [Unbroken] using hy), hline]
  have hkey : ∀ k, saved c found (m :: indents) allowed = some k →
      k.line = (c.after [x]).line ∧ (c.after [x]).index ≤ k.index + 1024 := by
    intro k hk
    rw [hline, Cursor.index_after]
    cases allowed with
    | false => cases hk
    | true =>
      cases hk
      exact ⟨rfl, Nat.add_le_add_left (by simp) _⟩
  have hfirst : Reaches (between c found (m :: indents) allowed)
      (inBrackets (c.after [x]) (start :: found) (m :: indents)
        (saved c found (m :: indents) allowed)) := by
    refine .of_take (settle_between (by rw [hc]; exact hstart _) ?_) (take_bracket h hc) ?_
    · exact Int.le_of_lt (Int.ofNat_lt.mpr hm)
    · change (c.after [x]).rest.length < c.rest.length
      rw [hrest, hc]
      exact Nat.lt_succ_self _
  have hsecond : Reaches (inBrackets (c.after [x]) (start :: found) (m :: indents)
        (saved c found (m :: indents) allowed))
      (within ((c.after [x]).after [y]) (stop :: start :: found) (m :: indents)
        (saved c found (m :: indents) allowed) false) := by
    refine .of_take (settle_inBrackets (by rw [hrest]; exact hstop _) hkey) (take_closing h hrest) ?_
    change ((c.after [x]).after [y]).rest.length < (c.after [x]).rest.length
    rw [hrest', hrest]
    exact Nat.lt_succ_self _
  exact (hfirst.trans hsecond).trans
    (.line hrest' ht (isStale_saved hm (by rw [hline']; exact Nat.lt_succ_self _)))

end BridgeOperator.Yaml.Scanner
