import BridgeOperator.Proofs.Yaml.Blanks
import BridgeOperator.Proofs.Yaml.Text

/-!
Plain scalars are read back as the text that is written plain: nothing in it ends the scalar or
starts a comment, and it neither starts nor ends with a space.
-/

namespace BridgeOperator.Yaml

variable {s u v t : List Char} {x : Char}

theorem isBlankOrEnd_append (h : isBlankOrEnd u = false) : isBlankOrEnd (u ++ t) = false := by
  cases u with
  | nil => cases h
  | cons x u => exact h

/-- What holds of every part of a plain scalar from some character on. -/
structure PlainPart (s : List Char) : Prop where
  printable : Printable s
  unbroken : Unbroken s
  last : s.getLast? ≠ some ' '
  colon : ∀ p q, s = p ++ ':' :: q → isBlankOrEnd q = false
  hash : ∀ p a q, s = p ++ a :: '#' :: q → a ≠ ' '

theorem PlainPart.right (h : PlainPart (u ++ v)) : PlainPart v where
  printable x hx := h.printable x (List.mem_append_right _ hx)
  unbroken := h.unbroken.right
  last hlast := by
    refine h.last ?_
    rw [List.getLast?_append, hlast]
    rfl
  colon p q hv := h.colon (u ++ p) q (by rw [hv, List.append_assoc])
  hash p a q hv := h.hash (u ++ p) a q (by rw [hv, List.append_assoc])

theorem hasInnerIndicator_right (h : hasInnerIndicator (u ++ v) = false) :
    hasInnerIndicator v = false := by
  induction u with
  | nil => exact h
  | cons x u ih =>
    refine ih ?_
    cases huv : u ++ v with
    | nil => rfl
    | cons y w =>
      rw [List.cons_append, huv] at h
      exact (Bool.or_eq_false_iff.mp h).2

theorem not_hasInnerIndicator {a b : Char} (h : hasInnerIndicator (u ++ a :: b :: v) = false) :
    (b = ':' → isBlankOrEnd v = false) ∧ (b = '#' → a ≠ ' ') := by
  have hpair := hasInnerIndicator_right h
  simp only [hasInnerIndicator, Bool.or_eq_false_iff, Bool.and_eq_false_iff, beq_eq_false_iff_ne]
    at hpair
  obtain ⟨⟨hcolon, hhash⟩, -⟩ := hpair
  refine ⟨fun hb => hcolon.resolve_left fun hne => hne hb, fun hb ha => ?_⟩
  have hblank := (hhash.resolve_left fun hne => hne hb).1
  rw [ha] at hblank
  cases hblank

/-- What a plain scalar starts with, and what all of it is like. -/
structure PlainText (s : List Char) : Prop extends PlainPart s where
  nonempty : s ≠ []
  head : startsIndicator s = false
  space : s.head? ≠ some ' '
  mark : startsDocumentMark s = false

theorem PlainText.of_allowed (h : plainAllowed s = true) : PlainText s := by
  simp only [plainAllowed, Bool.and_eq_true, Bool.not_eq_true', List.isEmpty_eq_false_iff] at h
  obtain ⟨⟨⟨⟨⟨⟨⟨hne, hbreak⟩, hescape⟩, hfirst⟩, hlast⟩, hmark⟩, hhead⟩, hinner⟩ := h
  refine ⟨⟨printable_of_not_needsEscape hescape, ?_, ?_, ?_, ?_⟩, hne, hhead, ?_, hmark⟩
  · exact fun x hx => by simpa using List.any_eq_false.mp hbreak x hx
  · intro hspace
    rw [hspace] at hlast
    cases hlast
  · rintro p q rfl
    rcases List.eq_nil_or_concat p with rfl | ⟨p, a, rfl⟩
    · simp only [List.nil_append, startsIndicator, Bool.or_eq_false_iff, beq_self_eq_true,
        Bool.or_true, Bool.true_or, Bool.true_and] at hhead
      exact hhead.2
    · rw [List.concat_eq_append, List.append_assoc] at hinner
      exact (not_hasInnerIndicator hinner).1 rfl
  · rintro p a q rfl
    exact (not_hasInnerIndicator hinner).2 rfl
  · intro hspace
    rw [hspace] at hfirst
    cases hfirst

/-- Digits make a plain text. -/
theorem PlainText.of_digits (hne : s ≠ []) (h : ∀ x ∈ s, x.isDigit = true) : PlainText s := by
  have hnot : ∀ {x y : Char}, x ∈ s → y.isDigit = false → x ≠ y := by
    rintro x y hx hy rfl
    rw [h x hx] at hy
    cases hy
  refine ⟨⟨fun x hx => ?_, fun x hx => ?_, fun hlast => ?_, ?_, ?_⟩, hne, ?_, fun hhead => ?_, ?_⟩
  · have hdigit := h x hx
    simp only [Char.isDigit, Bool.and_eq_true, decide_eq_true_eq, ge_iff_le, UInt32.le_iff_toNat_le] at hdigit
    have hlow : 48 ≤ x.toNat := hdigit.1
    have hhigh : x.toNat ≤ 57 := hdigit.2
    simp only [isPrintable, Bool.or_eq_true, Bool.and_eq_true, decide_eq_true_eq]
    omega
  · simp [isBreak, hnot hx]
  · exact hnot (List.mem_of_getLast? hlast) rfl rfl
  · rintro p q rfl
    exact absurd rfl (hnot (y := ':') (by simp) rfl)
  · rintro p a q rfl rfl
    exact absurd rfl (hnot (y := ' ') (by simp) rfl)
  · obtain ⟨x, s, rfl⟩ := List.exists_cons_of_ne_nil hne
    simp [startsIndicator, hnot (y := _) List.mem_cons_self]
  · exact hnot (List.mem_of_head? hhead) rfl rfl
  · obtain ⟨x, s, rfl⟩ := List.exists_cons_of_ne_nil hne
    have hdash : x ≠ '-' := hnot List.mem_cons_self rfl
    have hdot : x ≠ '.' := hnot List.mem_cons_self rfl
    unfold startsDocumentMark
    split <;> simp_all

namespace Scanner

variable {c : Cursor} {indent : Int} {fuel n : Nat} {text blanks : List Char}

/-- A character that belongs to the scalar. -/
theorem readPlain_char (hmark : c.atDocumentMark = false) (hc : c.rest = x :: t)
    (hhash : x = '#' → text ≠ [] ∧ blanks = []) (hx : endsPlain false (x :: t) = false) :
    readPlain false indent (fuel + 1) c ⟨blanks, none, []⟩ text =
      readPlain false indent fuel (c.after [x]) Gap.none (x :: blanks.reverse ++ text) := by
  have hbreak : isBreak x = false := by
    simp only [endsPlain, Bool.or_eq_false_iff] at hx
    exact hx.1.1.2
  have hcomment : ((c.rest.head? = some '#' : Bool) &&
      (text.isEmpty || !blanks.isEmpty || (none : Option Char).isSome)) = false := by
    by_cases h : x = '#'
    · obtain ⟨htext, rfl⟩ := hhash h
      simp [htext]
    · simp [hc, h]
  have hcolon : badColon false c.rest = false := by
    unfold badColon
    split <;> rfl
  rw [readPlain, hmark, hcomment, hcolon, Cursor.advance_eq_after hbreak]
  simp [hc, hx, Gap.text]

/-- A gap after a word: the scalar is over if what follows is not indented. -/
theorem readPlain_gap {g : Gap} {c' : Cursor} (hmark : c.atDocumentMark = false)
    (hc : c.rest = x :: t) (hx : isBlank x = true ∨ isBreak x = true)
    (hgap : readGap (some indent) (c.rest.length + 1) c Gap.none = some (g, c')) :
    readPlain false indent (fuel + 1) c Gap.none text =
      if (c'.column : Int) < indent then some (text, g.first.isSome, c')
      else readPlain false indent fuel c' g text := by
  have hends : endsPlain false (x :: t) = true := by
    rcases hx with hx | hx <;> simp [endsPlain, hx]
  have hhash : x ≠ '#' := by
    rintro rfl
    exact absurd hx (by decide)
  have hcolon : badColon false (x :: t) = false := by
    unfold badColon
    split <;> rfl
  rw [readPlain, hmark, hgap]
  simp [hc, hhash, hcolon, hends, hx]

/-- A run of spaces between two words. -/
theorem readPlain_spaces (hmark : c.atDocumentMark = false) (hcolumn : indent ≤ c.column + 1)
    (hc : c.rest = spaces (n + 1) ++ t) (ht : Solid t) :
    readPlain false indent (fuel + 1) c Gap.none text =
      readPlain false indent fuel (c.after (spaces (n + 1))) ⟨spaces (n + 1), none, []⟩ text := by
  have hgap : readGap (some indent) (c.rest.length + 1) c Gap.none =
      some (⟨[] ++ spaces (n + 1), none, []⟩, c.after (spaces (n + 1))) :=
    readGap_spaces hc ht (lt_of_spaces hc)
  have hin : ¬((c.after (spaces (n + 1))).column : Int) < indent := by
    rw [Cursor.column_after_of_unbroken (unbroken_spaces _)]
    simp only [spaces, List.length_replicate]
    omega
  rw [readPlain_gap hmark hc (.inl rfl) hgap, if_neg hin]
  rfl

/-- The end of the line ends the scalar if the next line is not indented. -/
theorem readPlain_line (hcolumn : 0 < c.column) (hc : c.rest = '\n' :: (spaces n ++ t))
    (ht : Solid t) (hn : (n : Int) < indent) :
    readPlain false indent (fuel + 1) c Gap.none text =
      some (text, true, c.after ('\n' :: spaces n)) := by
  have hgap : readGap (some indent) (c.rest.length + 1) c Gap.none =
      some (⟨[], some '\n', []⟩, c.after (['\n'] ++ spaces n)) :=
    readGap_breaks hc (.inl rfl) nofun ht (lt_of_breaks hc)
  have hout : ((c.after ('\n' :: spaces n)).column : Int) < indent := by
    rw [Cursor.column_after_break rfl (unbroken_spaces n)]
    simpa [spaces] using hn
  rw [readPlain_gap (Cursor.atDocumentMark_of_column hcolumn) hc (.inr rfl) hgap]
  exact if_pos hout

/-- The colon after a key ends the scalar. -/
theorem readPlain_colon (hcolumn : 0 < c.column) (hc : c.rest = ':' :: t)
    (ht : isBlankOrEnd t = true) :
    readPlain false indent (fuel + 1) c Gap.none text = some (text, false, c) := by
  have hcolon : badColon false (':' :: t) = false := by
    unfold badColon
    split <;> rfl
  rw [readPlain, Cursor.atDocumentMark_of_column hcolumn]
  simp [hc, hcolon, endsPlain, ht, isBlank, isBreak, Gap.none]

/-- All of a plain text is taken before what ends it is looked at. -/
theorem readPlain_text (hu : PlainPart u) (hmark : c.atDocumentMark = false)
    (hcolumn : indent ≤ c.column + 1) (hc : c.rest = u ++ t)
    (hhash : u.head? = some '#' → text ≠ [] ∧ blanks = [])
    (hgap : blanks = [] ∨ u.head? ≠ some ' ' ∧ u ≠ []) :
    ∃ k, readPlain false indent (u.length + fuel) c ⟨blanks, none, []⟩ text =
      readPlain false indent (k + fuel) (c.after u) Gap.none
        (u.reverse ++ blanks.reverse ++ text) := by
  induction u using words_induction generalizing c text blanks fuel with
  | nil =>
    obtain rfl := hgap.resolve_right fun h => h.2 rfl
    exact ⟨0, rfl⟩
  | run n v hv ih =>
    obtain rfl : blanks = [] := hgap.resolve_right fun h => h.1 rfl
    have hne : v ≠ [] := by
      rintro rfl
      exact hu.last (by simp [spaces, List.getLast?_replicate])
    obtain ⟨y, v, rfl⟩ := List.exists_cons_of_ne_nil hne
    have hpart : PlainPart (y :: v) := hu.right
    have hhash' : y ≠ '#' := by
      rintro rfl
      exact hu.hash (spaces n) ' ' v (by simp [spaces, List.replicate_succ']) rfl
    have hy := hpart.printable y List.mem_cons_self
    have hblank : isBlank y = false := by
      rw [isBlank_of_isPrintable hy]
      simpa using hv
    have hsolid : Solid (y :: v ++ t) := solid_cons hblank (hpart.unbroken y List.mem_cons_self)
    rw [List.append_assoc] at hc
    have hcolumn' : (c.after (spaces (n + 1))).column = c.column + (n + 1) := by
      rw [Cursor.column_after_of_unbroken (unbroken_spaces _)]
      simp [spaces]
    obtain ⟨k, hk⟩ : ∃ k, readPlain false indent ((y :: v).length + (n + fuel))
          (c.after (spaces (n + 1))) ⟨spaces (n + 1), none, []⟩ text =
        readPlain false indent (k + (n + fuel)) ((c.after (spaces (n + 1))).after (y :: v)) Gap.none
          ((y :: v).reverse ++ (spaces (n + 1)).reverse ++ text) :=
      ih hpart (Cursor.atDocumentMark_of_column (by omega)) (by omega) (Cursor.rest_after_of_eq hc)
        (fun h => absurd (Option.some.inj h) hhash') (.inr ⟨hv, hne⟩)
    have hfuel : (spaces (n + 1) ++ y :: v).length + fuel = (y :: v).length + (n + fuel) + 1 := by
      simp [spaces]
      omega
    refine ⟨k + n, ?_⟩
    rw [hfuel, ← Gap.none, readPlain_spaces hmark hcolumn hc hsolid, hk, Nat.add_assoc]
    simp [spaces]
  | char x v hspace ih =>
    have hbreak : isBreak x = false := hu.unbroken x List.mem_cons_self
    have hblank : isBlank x = false := by
      rw [isBlank_of_isPrintable (hu.printable x List.mem_cons_self)]
      simpa using hspace
    have hends : endsPlain false (x :: (v ++ t)) = false := by
      by_cases hx : x = ':'
      · subst hx
        simp [endsPlain, isBlank, isBreak, isBlankOrEnd_append (hu.colon [] v rfl)]
      · simp [endsPlain, hblank, hbreak, hx]
    have hcolumn' : (c.after [x]).column = c.column + 1 :=
      Cursor.column_after_of_unbroken (u := [x]) (by simpa [Unbroken] using hbreak)
    obtain ⟨k, hk⟩ : ∃ k, readPlain false indent (v.length + fuel) (c.after [x]) ⟨[], none, []⟩
          (x :: blanks.reverse ++ text) =
        readPlain false indent (k + fuel) ((c.after [x]).after v) Gap.none
          (v.reverse ++ [].reverse ++ (x :: blanks.reverse ++ text)) :=
      ih (hu.right (u := [x])) (Cursor.atDocumentMark_of_column (by omega)) (by omega)
        (Cursor.rest_after_of_eq hc) (fun _ => ⟨List.cons_ne_nil _ _, rfl⟩) (.inl rfl)
    have hfuel : (x :: v).length + fuel = v.length + fuel + 1 := by
      simp only [List.length_cons]
      omega
    refine ⟨k, ?_⟩
    rw [hfuel, readPlain_char hmark hc (fun h => hhash (by rw [h]; rfl)) hends, Gap.none, hk]
    simp [Gap.none]

/-- Neither the text nor what stands after it makes a mark at the left margin. -/
theorem atDocumentMark_plain (hs : startsDocumentMark s = false) (hc : c.rest = s ++ x :: t)
    (hx : x ≠ '-' ∧ x ≠ '.') : c.atDocumentMark = false := by
  unfold Cursor.atDocumentMark Cursor.atMark
  rw [hc]
  match s with
  | [] => rcases t with _ | ⟨y, _ | ⟨z, t⟩⟩ <;> simp [hx]
  | [a] => cases t <;> simp [hx]
  | [a, b] => simp [hx]
  | a :: b :: d :: s =>
    have hnot : ∀ m, m = '-' ∨ m = '.' → ¬ (a = m ∧ b = m ∧ d = m) := by
      rintro m hm ⟨rfl, rfl, rfl⟩
      rcases hm with rfl | rfl <;> cases hs
    have hdash := hnot '-' (.inl rfl)
    have hdot := hnot '.' (.inr rfl)
    simp only [List.cons_append, Bool.or_eq_false_iff, Bool.and_eq_false_iff,
      beq_eq_false_iff_ne, decide_eq_false_iff_not]
    grind

section

variable (hs : PlainText s) (hcolumn : indent ≤ c.column + 1) (hfuel : s.length < fuel)

include hs

theorem column_after_plain : 0 < (c.after s).column := by
  rw [Cursor.column_after_of_unbroken hs.unbroken]
  have := List.length_pos_iff.mpr hs.nonempty
  omega

include hcolumn hfuel

/-- A plain text is read up to what stands after it. -/
theorem readPlain_upTo (hc : c.rest = s ++ x :: t) (hx : x ≠ '-' ∧ x ≠ '.') :
    ∃ fuel', readPlain false indent fuel c Gap.none [] =
      readPlain false indent (fuel' + 1) (c.after s) Gap.none s.reverse := by
  have hhash : s.head? ≠ some '#' := by
    intro h
    obtain ⟨v, rfl⟩ := List.head?_eq_some_iff.mp h
    exact absurd hs.head (by simp [startsIndicator])
  obtain ⟨k, hk⟩ : ∃ k, readPlain false indent (s.length + (fuel - s.length)) c ⟨[], none, []⟩ [] =
      readPlain false indent (k + (fuel - s.length)) (c.after s) Gap.none
        (s.reverse ++ [].reverse ++ []) :=
    readPlain_text hs.toPlainPart (atDocumentMark_plain hs.mark hc hx) hcolumn hc
      (fun h => absurd h hhash) (.inl rfl)
  refine ⟨k + (fuel - s.length) - 1, ?_⟩
  have hfrom : s.length + (fuel - s.length) = fuel := by omega
  have hto : k + (fuel - s.length) - 1 + 1 = k + (fuel - s.length) := by omega
  rw [hfrom] at hk
  rw [hto, Gap.none, hk]
  simp [Gap.none]

/-- A plain value ends with its line. -/
theorem readPlain_value (hc : c.rest = s ++ '\n' :: (spaces n ++ t)) (ht : Solid t)
    (hn : (n : Int) < indent) :
    readPlain false indent fuel c Gap.none [] =
      some (s.reverse, true, c.after (s ++ '\n' :: spaces n)) := by
  obtain ⟨fuel', hto⟩ := readPlain_upTo hs hcolumn hfuel hc ⟨nofun, nofun⟩
  rw [hto, readPlain_line (column_after_plain hs) (Cursor.rest_after_of_eq hc) ht hn,
    Cursor.after_append]

/-- A plain key ends before its colon. -/
theorem readPlain_key (hc : c.rest = s ++ ':' :: t) (ht : isBlankOrEnd t = true) :
    readPlain false indent fuel c Gap.none [] = some (s.reverse, false, c.after s) := by
  obtain ⟨fuel', hto⟩ := readPlain_upTo hs hcolumn hfuel hc ⟨nofun, nofun⟩
  rw [hto, readPlain_colon (column_after_plain hs) (Cursor.rest_after_of_eq hc) ht]

end

end Scanner
end BridgeOperator.Yaml
