import BridgeOperator.Proofs.Yaml.Indicators

/-!
The keys of a mapping. A key on one line is recognised by its colon, and the tokens that should
have come before it are put there then; any other key is announced by a question mark.
-/

namespace BridgeOperator.Yaml.Scanner

variable {c : Cursor} {found : List Token} {indents : List Int} {allowed : Bool}
  {k : SimpleKey} {s t : List Char} {m n : Nat}

/-! ## The text of a key -/

theorem length_le_utf8ByteSize (s : String) : s.toList.length ≤ s.utf8ByteSize := by
  induction s using String.push_induction with
  | empty => exact Nat.le_refl 0
  | push s x ih =>
    have := x.utf8Size_pos
    simp only [String.toList_push, List.length_append, List.length_singleton,
      String.utf8ByteSize_push]
    omega

/-- What a text has to be like to be a key on one line. -/
structure KeyLine (s : List Char) : Prop where
  unbroken : Unbroken s
  length : s.length ≤ 128

theorem KeyLine.of_isSimpleKey {s : String} (h : isSimpleKey s = true) : KeyLine s.toList := by
  simp only [isSimpleKey, Bool.and_eq_true, decide_eq_true_eq, Bool.not_eq_true'] at h
  exact ⟨fun x hx => by simpa using List.any_eq_false.mp h.2 x hx,
    Nat.le_trans (length_le_utf8ByteSize s) h.1⟩

/-- The key is written in quotes, or plain. -/
theorem KeyLine.cases (hs : KeyLine s) :
    (styleOf s = .plain ∧ PlainText s ∧ keyText s = s) ∨
    (styleOf s ≠ .plain ∧ ∃ single body, Quotes single s body ∧
      keyText s = quote single :: body ++ [quote single] ∧
      Unbroken body ∧ body.length ≤ 6 * s.length) := by
  unfold keyText
  obtain ⟨hstyle, -, hs'⟩ | ⟨hstyle, hs', hnewline⟩ | hstyle | ⟨hstyle, -, hnewline⟩ :=
    styleOf_cases s <;> rw [hstyle]
  · exact .inl ⟨rfl, .of_allowed hs', rfl⟩
  · obtain ⟨hunbroken, hlength⟩ : Unbroken (singleBody 0 s) ∧ _ :=
      singleBody_of_unbroken hs.unbroken
    exact .inr ⟨nofun, true, _, quotes_single (.of_allowed hs' hnewline) (.inl hs.unbroken),
      singleText_eq 0 s, hunbroken, by omega⟩
  · obtain ⟨hunbroken, -, hlength⟩ := flatMap_escaped s
    exact .inr ⟨nofun, false, _, quotes_double s, rfl, hunbroken, hlength⟩
  · exact absurd (hs.unbroken '\n' hnewline) (by decide)

theorem unbroken_quote (single : Bool) : Unbroken [quote single] := by cases single <;> decide

/-- The text of a key is on one line and short enough. -/
theorem KeyLine.keyText (hs : KeyLine s) :
    Unbroken (keyText s) ∧ keyText s ≠ [] ∧ (Yaml.keyText s).length ≤ 1024 := by
  have hlength := hs.length
  obtain ⟨-, hplain, heq⟩ | ⟨-, single, body, -, heq, hbody, hbound⟩ := hs.cases
  · rw [heq]
    exact ⟨hs.unbroken, hplain.nonempty, by omega⟩
  · rw [heq]
    refine ⟨(unbroken_quote single).append (hbody.append (unbroken_quote single)), nofun, ?_⟩
    simp
    omega

theorem KeyLine.startsToken (hs : KeyLine s) : StartsToken (Yaml.keyText s ++ t) := by
  obtain ⟨-, hplain, heq⟩ | ⟨-, single, body, -, heq, -, -⟩ := hs.cases
  · rw [heq]
    exact startsToken_plain hplain
  · rw [heq]
    cases single <;> exact ⟨solid_cons rfl rfl, by rintro x ⟨⟩; decide⟩

/-- A key is taken for a scalar at first, and where it started is remembered. -/
theorem take_keyText (hs : KeyLine s) (hc : c.rest = keyText s ++ ':' :: t)
    (ht : isBlankOrEnd t = true) (hindent : (between c found indents true).indent ≤ c.column) :
    (between c found indents true).take =
      some (within (c.after (keyText s))
        (.scalar (styleOf s = .plain) (String.ofList s) :: found) indents
        (some (keyAt c found indents)) false) := by
  obtain ⟨hstyle, hplain, heq⟩ | ⟨hstyle, single, body, hquotes, heq, -, -⟩ := hs.cases
  · rw [heq] at hc ⊢
    have hread : readPlain false ((between c found indents true).indent + 1)
        (2 * c.rest.length + 2) c Gap.none [] = some (s.reverse, false, c.after s) :=
      readPlain_key hplain (by omega) (by rw [hc, List.length_append]; omega) hc ht
    rw [hstyle]
    exact take_plain hplain (atDocumentMark_plain hplain.mark hc ⟨by decide, by decide⟩) hc hread
  · rw [heq] at hc ⊢
    have hplain : decide (styleOf s = .plain) = false := decide_eq_false hstyle
    rw [hplain]
    exact hquotes.take (t := ':' :: t) (by rw [hc]; simp) (by cases single <;> nofun)

/-! ## The tokens of a key -/

/-- A key that is still on its line stays one. -/
theorem settle_key (hrest : StartsToken c.rest) (hline : k.line = c.line)
    (hindex : c.index ≤ k.index + 1024)
    (hindent : (within c found indents (some k) allowed).indent ≤ c.column) :
    (within c found indents (some k) allowed).settle =
      some (within c found indents (some k) allowed) := by
  have hstale : (within c found indents (some k) allowed).staleKeys =
      some (within c found indents (some k) allowed) := by
    have h : ¬(k.line < c.line ∨ k.index + 1024 < c.index) := by omega
    simp [staleKeys, within, h]
  have hskip : ∀ fuel, skipBlanks fuel (within c found indents (some k) allowed) =
      within c found indents (some k) allowed := fun _ => skipBlanks_token rfl hrest
  rw [settle, hskip, hstale]
  exact congrArg some (unroll_of_le hindent)

/-- The colon after a key puts the key, and the start of a mapping, before it. -/
theorem take_colon {scalar : Token} (hc : c.rest = ':' :: t) (ht : isBlankOrEnd t = true)
    (hk : k.before = found.length) :
    (within c (scalar :: found) indents (some k) allowed).take =
      some (between (c.after [':'])
        (.value :: scalar :: .key :: (opened .mappingStart k.column found indents).1)
        (opened .mappingStart k.column found indents).2 false) := by
  have hmark := not_atMark (Cursor.atDocumentMark_of_head hc ⟨by decide, by decide⟩)
  have htake : (within c (scalar :: found) indents (some k) allowed).take =
      (within c (scalar :: found) indents (some k) allowed).takeValue := by
    simp [take, within, hc, hmark, ht]
  rw [htake]
  unfold takeValue opened within
  by_cases h : (k.column : Int) ≤ indents.head?.getD (-1)
  · simp [insertAt, roll, inFlow, indent, h, hk, emitAndAdvance, emit, within,
      Cursor.advance_eq_after (c := c) (x := ':') rfl]
  · have hlater : found.length + 1 + 1 - found.length = 2 := by omega
    simp [insertAt, roll, inFlow, indent, h, hk, hlater, emitAndAdvance, emit, within,
      Cursor.advance_eq_after (c := c) (x := ':') rfl]

/-- A key on one line and its colon. -/
theorem reaches_key (hs : KeyLine s) (hc : c.rest = keyText s ++ ':' :: t)
    (ht : isBlankOrEnd t = true) (hindent : (between c found indents true).indent ≤ c.column) :
    Reaches (between c found indents true)
      (between (c.after (keyText s ++ [':']))
        (.value :: .scalar (styleOf s = .plain) (String.ofList s) :: .key ::
          (opened .mappingStart c.column found indents).1)
        (opened .mappingStart c.column found indents).2 false) := by
  obtain ⟨hunbroken, hne, hlength⟩ := hs.keyText
  have hrest : (c.after (keyText s)).rest = ':' :: t := Cursor.rest_after_of_eq hc
  have hrest' : (c.after (keyText s ++ [':'])).rest = t := by
    rw [Cursor.after_append, rest_step hrest]
  have hstart : StartsToken c.rest := by
    rw [hc]
    exact hs.startsToken
  have hcolumn : (c.after (keyText s)).column = c.column + (keyText s).length :=
    Cursor.column_after_of_unbroken hunbroken
  let scalar : Token := .scalar (styleOf s = .plain) (String.ofList s)
  let key : Scanner :=
    within (c.after (keyText s)) (scalar :: found) indents (some (keyAt c found indents)) false
  have hsettle : key.settle = some key :=
    settle_key (by rw [hrest]; exact ⟨solid_cons rfl rfl, by rintro x ⟨⟩; decide⟩)
      (Cursor.line_after_of_unbroken hunbroken).symm
      (by rw [Cursor.index_after]; exact Nat.add_le_add_left hlength _)
      (by rw [hcolumn]; exact Int.le_trans hindent (by omega))
  have hcolon : key.take = some (between ((c.after (keyText s)).after [':']) _ _ false) :=
    take_colon hrest ht rfl
  rw [← Cursor.after_append] at hcolon
  refine (Reaches.of_take (settle_between hstart hindent) (take_keyText hs hc ht hindent) ?_).trans
    (.of_take hsettle hcolon ?_)
  · change (c.after (keyText s)).rest.length < c.rest.length
    have := List.length_pos_iff.mpr hne
    rw [hrest, hc, List.length_append]
    omega
  · change (c.after (keyText s ++ [':'])).rest.length < (c.after (keyText s)).rest.length
    rw [hrest, hrest']
    exact Nat.lt_succ_self _

end BridgeOperator.Yaml.Scanner
