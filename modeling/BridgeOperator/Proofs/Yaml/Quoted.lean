import BridgeOperator.Proofs.Yaml.Blanks
import BridgeOperator.Proofs.Yaml.Text

/-!
Quoted scalars are read back as the text they were written from: between single quotes, where
spaces and breaks stand as they are and breaks are followed by indentation, and between double
quotes, where everything else than printable characters is escaped.
-/

namespace BridgeOperator.Yaml

variable {s t : List Char} {indent fuel : Nat} {x : Char} {c : Cursor} {text : List Char}

/-! ## Single quotes -/

/-- What a text has to be like to be written between single quotes. -/
structure SingleQuotable (s : List Char) : Prop where
  printable : Printable s
  newline : '\n' ∉ s
  spaceBreak : hasPair isSpace isBreak s = false
  breakSpace : hasPair isBreak isSpace s = false

theorem SingleQuotable.right {u : List Char} (h : SingleQuotable (u ++ s)) : SingleQuotable s where
  printable x hx := h.printable x (List.mem_append_right _ hx)
  newline hmem := h.newline (List.mem_append_right _ hmem)
  spaceBreak := hasPair_right h.spaceBreak
  breakSpace := hasPair_right h.breakSpace

theorem SingleQuotable.of_allowed (h : singleAllowed s = true) (hnewline : '\n' ∉ s) :
    SingleQuotable s := by
  simp only [singleAllowed, Bool.and_eq_true, Bool.not_eq_true'] at h
  exact ⟨printable_of_not_needsEscape h.2, hnewline, h.1.2, h.1.1⟩

/-- What stands between single quotes. -/
def singleBody (indent : Nat) (s : List Char) : List Char :=
  indentLines indent false (doubleQuotes s) ++
    (if s.getLast?.any isBreak then spaces indent else [])

theorem singleText_eq (indent : Nat) (s : List Char) :
    singleText indent s = '\'' :: singleBody indent s ++ ['\''] := by
  simp [singleText, singleBody]

theorem doubleQuotes_append (s t : List Char) :
    doubleQuotes (s ++ t) = doubleQuotes s ++ doubleQuotes t := List.flatMap_append

theorem doubleQuotes_of_ne (h : ∀ x ∈ s, x ≠ '\'') : doubleQuotes s = s := by
  induction s with
  | nil => rfl
  | cons x s ih =>
    have hx : x ≠ '\'' := h x List.mem_cons_self
    have hs := ih fun y hy => h y (List.mem_cons_of_mem _ hy)
    simp only [doubleQuotes] at hs ⊢
    simp [hx, hs]

theorem head?_doubleQuotes (s : List Char) : (doubleQuotes s).head? = s.head? := by
  cases s with
  | nil => rfl
  | cons x s =>
    by_cases hx : x = '\'' <;> simp [doubleQuotes, hx]

theorem singleBody_cons (hx : isBreak x = false) :
    singleBody indent (x :: s) =
      (if x = '\'' then ['\'', '\''] else [x]) ++ singleBody indent s := by
  have hlast : (x :: s).getLast?.any isBreak = s.getLast?.any isBreak := by
    cases s with
    | nil => simp [hx]
    | cons y s => simp [List.getLast?_cons]
  have hquote : isBreak '\'' = false := rfl
  unfold singleBody
  rw [hlast]
  by_cases h : x = '\''
  · subst h
    simp [doubleQuotes, indentLines, hquote]
  · simp [doubleQuotes, indentLines, h, hx]

theorem length_le_doubleQuotes (s : List Char) : s.length ≤ (doubleQuotes s).length := by
  induction s with
  | nil => exact Nat.le_refl 0
  | cons x s ih =>
    by_cases hx : x = '\''
    · simpa [doubleQuotes, hx] using Nat.le_succ_of_le ih
    · simpa [doubleQuotes, hx] using ih

theorem length_le_singleBody (indent : Nat) (s : List Char) :
    s.length ≤ (singleBody indent s).length := by
  rw [singleBody, List.length_append]
  exact Nat.le_add_right_of_le
    (Nat.le_trans (length_le_doubleQuotes s) length_le_indentLines)

/-- A text on one line stays on one line, and grows at most twofold. -/
theorem singleBody_of_unbroken (hs : Unbroken s) :
    Unbroken (singleBody indent s) ∧ (singleBody indent s).length ≤ 2 * s.length := by
  induction s with
  | nil => exact ⟨nofun, Nat.le_refl 0⟩
  | cons x s ih =>
    have hx : isBreak x = false := hs x List.mem_cons_self
    obtain ⟨hunbroken, hlength⟩ := ih fun y hy => hs y (List.mem_cons_of_mem _ hy)
    rw [singleBody_cons hx]
    split
    · exact ⟨.append (by decide) hunbroken, by simp; omega⟩
    · exact ⟨.append (by simpa [Unbroken] using hx) hunbroken, by simp; omega⟩

theorem singleBody_spaces (n : Nat) : singleBody indent (spaces n ++ s) =
    spaces n ++ singleBody indent s := by
  induction n with
  | zero => rfl
  | succ n ih =>
    rw [Scanner.spaces_succ, List.cons_append, singleBody_cons rfl, ih]
    rfl

theorem singleBody_breaks {u : List Char} (hu : ∀ y ∈ u, IsLineEnd y) (hne : u ≠ [])
    (hs : ∀ y, s.head? = some y → isBreak y = false) :
    singleBody indent (u ++ s) = u ++ (spaces indent ++ singleBody indent s) := by
  have hquotes : doubleQuotes u = u := doubleQuotes_of_ne fun y hy => by
    rcases hu y hy with rfl | rfl | rfl <;> decide
  unfold singleBody
  rw [doubleQuotes_append, hquotes, indentLines_breaks (fun y hy => (hu y hy).isBreak) hne]
  cases s with
  | nil =>
    obtain ⟨w, hw⟩ : ∃ y, u.getLast? = some y := ⟨_, List.getLast?_eq_some_getLast hne⟩
    have hbreak : isBreak w = true := (hu w (List.mem_of_getLast? hw)).isBreak
    simp [doubleQuotes, indentLines, hw, hbreak]
  | cons y s =>
    have hhead := head?_doubleQuotes (y :: s)
    have hne' : doubleQuotes (y :: s) ≠ [] := by
      intro h
      rw [h] at hhead
      cases hhead
    have hlast : (u ++ y :: s).getLast? = (y :: s).getLast? := by
      rw [List.getLast?_append, List.getLast?_cons, Option.some_or]
    rw [hlast, indentLines_solid hne' (by rw [hhead]; exact hs)]
    simp only [List.append_assoc]

/-- What follows a run of spaces or breaks between the quotes, or the quote at the end. -/
theorem solid_singleBody (hspace : s.head? ≠ some ' ')
    (hprintable : Printable s) (hs : ∀ y, s.head? = some y → isBreak y = false) :
    Solid (singleBody indent s ++ '\'' :: t) := by
  cases s with
  | nil => exact solid_cons rfl rfl
  | cons y s =>
    have hbreak : isBreak y = false := hs y rfl
    have hblank : isBlank y = false := by
      rw [isBlank_of_isPrintable (hprintable y List.mem_cons_self)]
      simpa using hspace
    rw [singleBody_cons hbreak]
    by_cases h : y = '\''
    · subst h
      exact solid_cons rfl rfl
    · rw [if_neg h]
      exact solid_cons hblank hbreak

namespace Scanner

theorem readQuoted_close (hcolumn : 0 < c.column) (hc : c.rest = '\'' :: t)
    (ht : t.head? ≠ some '\'') (hfuel : 0 < fuel) :
    readQuoted true fuel c text = some (text, c.after ['\'']) := by
  obtain ⟨fuel, rfl⟩ := Nat.exists_eq_add_one.mpr hfuel
  rw [readQuoted, Cursor.atDocumentMark_of_column hcolumn, hc]
  simp [ht, Cursor.advance_eq_after (c := c) (x := '\'') rfl]

theorem readQuoted_quote (hcolumn : 0 < c.column) (hc : c.rest = '\'' :: '\'' :: t) :
    readQuoted true (fuel + 1) c text =
      readQuoted true fuel (c.after ['\'', '\'']) ('\'' :: text) := by
  have hadvance := Cursor.advanceBy_eq_after (c := c) (u := ['\'', '\'']) (by decide)
  simp only [List.length_cons, List.length_nil] at hadvance
  rw [readQuoted, Cursor.atDocumentMark_of_column hcolumn, hc]
  simp [hadvance]

/-- A character that stands for itself. -/
theorem readQuoted_char {single : Bool} (hcolumn : 0 < c.column) (hc : c.rest = x :: t)
    (hblank : isBlank x = false) (hbreak : isBreak x = false)
    (hx : if single then x ≠ '\'' else x ≠ '"' ∧ x ≠ '\\') :
    readQuoted single (fuel + 1) c text = readQuoted single fuel (c.after [x]) (x :: text) := by
  rw [readQuoted, Cursor.atDocumentMark_of_column hcolumn, hc]
  cases single
  · simp only [Bool.false_eq_true, if_false] at hx
    simp [hx.1, hx.2, hblank, hbreak, Cursor.advance_eq_after (c := c) hbreak]
  · simp only [if_true] at hx
    simp [hx, hblank, hbreak, Cursor.advance_eq_after (c := c) hbreak]

/-- A gap between words. -/
theorem readQuoted_gap {single : Bool} {g : Gap} {c' : Cursor} (hcolumn : 0 < c.column)
    (hc : c.rest = x :: t) (hx : isBlank x = true ∨ isBreak x = true)
    (hgap : readGap none (c.rest.length + 1) c Gap.none = some (g, c')) :
    readQuoted single (fuel + 1) c text = readQuoted single fuel c' (g.text.reverse ++ text) := by
  have hne : x ≠ '\'' ∧ x ≠ '"' ∧ x ≠ '\\' := by
    refine ⟨?_, ?_, ?_⟩ <;> rintro rfl <;> exact absurd hx (by decide)
  rw [readQuoted, Cursor.atDocumentMark_of_column hcolumn, hgap]
  simp [hc, hne, hx]

/-- A run of spaces within quotes. -/
theorem readQuoted_spaces {single : Bool} {n : Nat} (hcolumn : 0 < c.column)
    (hc : c.rest = spaces (n + 1) ++ t) (ht : Solid t) :
    readQuoted single (fuel + 1) c text =
      readQuoted single fuel (c.after (spaces (n + 1))) (spaces (n + 1) ++ text) := by
  have hgap : readGap none (c.rest.length + 1) c Gap.none =
      some (⟨[] ++ spaces (n + 1), none, []⟩, c.after (spaces (n + 1))) :=
    readGap_spaces hc ht (lt_of_spaces hc)
  rw [readQuoted_gap hcolumn hc (.inl rfl) hgap]
  simp [Gap.text, spaces]

/-- A run of breaks within quotes, and the indentation after it. -/
theorem readQuoted_breaks {b : Char} {u : List Char} (hcolumn : 0 < c.column)
    (hc : c.rest = b :: u ++ (spaces indent ++ t)) (hu : ∀ y ∈ b :: u, IsLineEnd y)
    (hnewline : b ≠ '\n') (ht : Solid t) :
    readQuoted true (fuel + 1) c text =
      readQuoted true fuel (c.after (b :: u ++ spaces indent)) ((b :: u).reverse ++ text) := by
  have hb := hu b List.mem_cons_self
  have hgap : readGap none (c.rest.length + 1) c Gap.none =
      some (⟨[], some b, u⟩, c.after (b :: u ++ spaces indent)) :=
    readGap_breaks hc hb (fun y hy => hu y (List.mem_cons_of_mem _ hy)) ht (lt_of_breaks hc)
  rw [readQuoted_gap hcolumn hc (.inr hb.isBreak) hgap]
  simp [Gap.text, hnewline]

/-- What is written between single quotes is read back. -/
theorem readQuoted_single (hs : SingleQuotable s) (hindent : Unbroken s ∨ 0 < indent)
    (hcolumn : 0 < c.column) (hc : c.rest = singleBody indent s ++ '\'' :: t)
    (ht : t.head? ≠ some '\'') (hfuel : s.length < fuel) :
    readQuoted true fuel c text =
      some (s.reverse ++ text, c.after (singleBody indent s ++ ['\''])) := by
  induction s using lines_induction generalizing c text fuel with
  | nil => exact readQuoted_close hcolumn hc ht hfuel
  | run n v hv ih =>
    obtain ⟨fuel, rfl⟩ := Nat.exists_eq_add_one.mpr (Nat.zero_lt_of_lt hfuel)
    have hbreak : ∀ y, v.head? = some y → isBreak y = false := fun y hy =>
      not_pair_run hs.spaceBreak (fun z hz => by rw [List.eq_of_mem_replicate hz]; rfl)
        (List.cons_ne_nil _ _) hy
    have hcolumn' : 0 < (c.after (spaces (n + 1))).column := by
      rw [Cursor.column_after_of_unbroken (unbroken_spaces _)]
      omega
    rw [singleBody_spaces] at hc ⊢
    rw [List.append_assoc] at hc
    rw [readQuoted_spaces hcolumn hc (solid_singleBody hv hs.right.printable hbreak),
      ih hs.right (hindent.imp_left (·.right)) hcolumn' (Cursor.rest_after_of_eq hc)
        (by simp [spaces] at hfuel; omega)]
    simp [spaces]
  | breaks b u v hbreaks hv ih =>
    obtain ⟨fuel, rfl⟩ := Nat.exists_eq_add_one.mpr (Nat.zero_lt_of_lt hfuel)
    have hends : ∀ y ∈ b :: u, IsLineEnd y := fun y hy =>
      .of_isPrintable (hs.printable y (List.mem_append_left _ hy)) (hbreaks y hy)
    have hnewline : b ≠ '\n' := fun h => hs.newline (by simp [h])
    have hvspace : v.head? ≠ some ' ' := fun h =>
      absurd (not_pair_run hs.breakSpace hbreaks (List.cons_ne_nil _ _) h) (by decide)
    have hpos : 0 < indent := hindent.resolve_left fun h => by
      have hb := h b (by simp)
      rw [hbreaks b List.mem_cons_self] at hb
      cases hb
    have hcolumn' : 0 < (c.after (b :: u ++ spaces indent)).column := by
      rw [Cursor.after_append, Cursor.column_after_of_unbroken (unbroken_spaces _)]
      simp only [spaces, List.length_replicate]
      omega
    rw [singleBody_breaks hends (List.cons_ne_nil _ _) hv] at hc ⊢
    rw [List.append_assoc, List.append_assoc] at hc
    rw [readQuoted_breaks hcolumn hc hends hnewline
        (solid_singleBody hvspace hs.right.printable hv),
      ih hs.right (.inr hpos) hcolumn' (Cursor.rest_after_of_eq (by rw [hc, List.append_assoc]))
        (by simp at hfuel; omega)]
    simp
  | char x v hx hbreak ih =>
    obtain ⟨fuel, rfl⟩ := Nat.exists_eq_add_one.mpr (Nat.zero_lt_of_lt hfuel)
    have hfuel' : v.length < fuel := by
      simp only [List.length_cons] at hfuel
      omega
    rw [singleBody_cons hbreak, List.append_assoc] at hc
    rw [singleBody_cons hbreak]
    have hnext : ∀ {u : List Char}, Unbroken u →
        (c.after u).rest = singleBody indent v ++ '\'' :: t →
        readQuoted true fuel (c.after u) (x :: text) =
          some (v.reverse ++ (x :: text), (c.after u).after (singleBody indent v ++ ['\''])) :=
      fun hu hrest => ih (hs.right (u := [x])) (hindent.imp_left (·.right (u := [x])))
        (by rw [Cursor.column_after_of_unbroken hu]; omega) hrest hfuel'
    by_cases hquote : x = '\''
    · subst hquote
      rw [if_pos rfl] at hc ⊢
      rw [readQuoted_quote hcolumn hc, hnext (by decide) (Cursor.rest_after_of_eq hc)]
      simp
    · rw [if_neg hquote] at hc ⊢
      have hblank : isBlank x = false := by
        rw [isBlank_of_isPrintable (hs.printable x List.mem_cons_self)]
        simpa using hx
      have hplain : readQuoted true (fuel + 1) c text =
          readQuoted true fuel (c.after [x]) (x :: text) :=
        readQuoted_char hcolumn hc hblank hbreak hquote
      rw [hplain, hnext (by simpa [Unbroken] using hbreak) (Cursor.rest_after_of_eq hc)]
      simp

/-! ## Double quotes -/

/-- The character stands for itself between double quotes. -/
def IsDirect (x : Char) : Prop :=
  isPrintable x = true ∧ isBreak x = false ∧ x ≠ '"' ∧ x ≠ '\\'

theorem escaped_of_isDirect (hx : IsDirect x) : escaped x = [x] := by
  obtain ⟨hprintable, hbreak, hquote, hslash⟩ := hx
  simp [escaped, hprintable, hbreak, hquote, hslash]

theorem hexValue_upperHex_two :
    ∀ n < 256, hexValue? (upperHex 2 n) = some n ∧ (upperHex 2 n).length = 2 := by
  decide +kernel

theorem hexValue_upperHex_four : ∀ n ∈ [0xFEFF, 0xFFFE, 0xFFFF],
    hexValue? (upperHex 4 n) = some n ∧ (upperHex 4 n).length = 4 := by decide

/-- A code written in hexadecimal is read as the character it stands for. -/
theorem codeEscape_eq {width : Nat} {ds : List Char} (hds : hexValue? ds = some x.toNat)
    (hlen : ds.length = width) (hc : c.rest = ds ++ t) :
    codeEscape width c = some ([x], c.advanceBy width) := by
  have hvalid : ¬((0xD800 ≤ x.toNat ∧ x.toNat ≤ 0xDFFF) ∨ 0x10FFFF < x.toNat) := by
    have := x.valid
    simp only [UInt32.isValidChar, Nat.isValidChar] at this
    show ¬((0xD800 ≤ x.val.toNat ∧ x.val.toNat ≤ 0xDFFF) ∨ 0x10FFFF < x.val.toNat)
    omega
  subst hlen
  simp [codeEscape, hc, hds, hvalid, Char.ofNat_toNat]

/-- Above U+00FF only the byte order mark and two codes that are no characters are escaped by their
code. -/
theorem mem_of_not_isDirect (hx : ¬IsDirect x) (hascii : 255 < x.toNat) (hline : x.toNat ≠ 0x2028)
    (hparagraph : x.toNat ≠ 0x2029) : x.toNat ∈ [0xFEFF, 0xFFFE, 0xFFFF] := by
  have hne : ∀ y : Char, y.toNat ≠ x.toNat → x ≠ y := by
    rintro y h rfl
    exact h rfl
  have hbreak : isBreak x = false := by
    simp only [isBreak, Bool.or_eq_false_iff, beq_eq_false_iff_ne]
    refine ⟨⟨⟨⟨?_, ?_⟩, ?_⟩, ?_⟩, ?_⟩ <;> apply hne <;> simp only [Char.reduceToNat] <;> omega
  have hquote : x ≠ '"' := hne _ (by simp only [Char.reduceToNat]; omega)
  have hslash : x ≠ '\\' := hne _ (by simp only [Char.reduceToNat]; omega)
  have hprintable : isPrintable x = false := by
    rw [← Bool.not_eq_true]
    exact fun h => hx ⟨h, hbreak, hquote, hslash⟩
  have hvalid : x.toNat < 0xD800 ∨ 0xDFFF < x.toNat ∧ x.toNat < 0x110000 := x.valid
  simp only [isPrintable, Bool.or_eq_false_iff, Bool.and_eq_false_iff, decide_eq_false_iff_not]
    at hprintable
  simp only [List.mem_cons, List.not_mem_nil, or_false]
  omega

/-- The text is an escape that stands for a character. -/
def Escapes (x : Char) (text : List Char) : Prop :=
  ∃ letters, text = '\\' :: letters ∧ Unbroken letters ∧ letters ≠ [] ∧ letters.length ≤ 5 ∧
    Printable letters ∧ ∀ {c : Cursor} {t : List Char}, c.rest = letters ++ t →
      readEscape c = some ([x], c.advanceBy letters.length)

theorem escapes_letter {y : Char} (l : Char) (hx : x = y)
    (hl : isBreak l = false ∧ isPrintable l = true)
    (h : ∀ {c : Cursor} {t : List Char}, c.rest = l :: t → readEscape c = some ([y], c.advance)) :
    Escapes x ['\\', l] := by
  subst hx
  exact ⟨[l], rfl, by simpa [Unbroken] using hl.1, nofun, by simp, .cons hl.2 nofun,
    fun hc => h hc⟩

theorem upperHex_two : ∀ n < 256, Unbroken (upperHex 2 n) ∧ Printable (upperHex 2 n) := by
  decide +kernel

theorem upperHex_four : ∀ n ∈ [0xFEFF, 0xFFFE, 0xFFFF],
    Unbroken (upperHex 4 n) ∧ Printable (upperHex 4 n) := by
  decide

theorem escapes_code {width : Nat} {ds : List Char} (l : Char) (hds : hexValue? ds = some x.toNat)
    (hlen : ds.length = width) (hwidth : width ≤ 4)
    (hletters : Unbroken (l :: ds) ∧ Printable (l :: ds))
    (h : ∀ {c : Cursor} {t : List Char}, c.rest = l :: t →
      readEscape c = codeEscape width c.advance) : Escapes x ('\\' :: l :: ds) := by
  refine ⟨l :: ds, rfl, hletters.1, nofun, ?_, hletters.2, fun {c t} hc => ?_⟩
  · rw [List.length_cons, hlen]
    omega
  have hrest : c.advance.rest = ds ++ t := by
    rw [Cursor.advance_eq_after (hletters.1 l List.mem_cons_self)]
    exact rest_step hc
  rw [h hc, codeEscape_eq hds hlen hrest, ← hlen]
  simp [Cursor.advanceBy, Cursor.advance, Nat.add_comm, Nat.add_left_comm]

/-- What is escaped is read back, whatever the form of its escape. -/
theorem escapes_escaped (hx : ¬IsDirect x) : Escapes x (escaped x) := by
  have hcode : ∀ {n}, x.toNat = n → x = Char.ofNat n := fun h => by rw [← h, Char.ofNat_toNat]
  rw [escaped]
  refine iteInduction (fun h => escapes_letter _ h ⟨rfl, rfl⟩ fun hc => ?_) fun hquote => ?_
  · rw [readEscape, hc]
    rfl
  refine iteInduction (fun h => escapes_letter _ h ⟨rfl, rfl⟩ fun hc => ?_) fun hslash => ?_
  · rw [readEscape, hc]
    rfl
  refine iteInduction (fun h => ?_) fun _ => ?_
  · simp only [Bool.and_eq_true, Bool.not_eq_true'] at h
    exact absurd ⟨h.1, h.2, hquote, hslash⟩ hx
  -- the codes with a letter of their own
  iterate 12
    refine iteInduction (fun h => escapes_letter _ (hcode h) ⟨rfl, rfl⟩ fun hc => ?_) fun _ => ?_
    · rw [readEscape, hc]
      rfl
  rename_i hline hparagraph
  refine iteInduction (fun h => ?_) fun hascii => ?_
  · obtain ⟨hds, hlen⟩ := hexValue_upperHex_two x.toNat (by omega)
    obtain ⟨hunbroken, hprintable⟩ := upperHex_two x.toNat (by omega)
    refine escapes_code _ hds hlen (by decide)
      ⟨List.forall_mem_cons.mpr ⟨rfl, hunbroken⟩, .cons rfl hprintable⟩ fun hc => ?_
    rw [readEscape, hc]
    rfl
  · have hmem := mem_of_not_isDirect hx (by omega) hline hparagraph
    obtain ⟨hds, hlen⟩ := hexValue_upperHex_four x.toNat hmem
    rw [if_pos (by simp only [List.mem_cons, List.not_mem_nil, or_false] at hmem; omega)]
    obtain ⟨hunbroken, hprintable⟩ := upperHex_four x.toNat hmem
    refine escapes_code _ hds hlen (by decide)
      ⟨List.forall_mem_cons.mpr ⟨rfl, hunbroken⟩, .cons rfl hprintable⟩ fun hc => ?_
    rw [readEscape, hc]
    rfl

theorem readQuoted_escape (hcolumn : 0 < c.column) (hx : ¬IsDirect x)
    (hc : c.rest = escaped x ++ t) :
    readQuoted false (fuel + 1) c text =
      readQuoted false fuel (c.after (escaped x)) (x :: text) := by
  obtain ⟨letters, heq, hunbroken, hne, -, -, hread⟩ := escapes_escaped hx
  have hhead : (letters ++ t).head?.any isBreak = false := by
    cases letters with
    | nil => exact absurd rfl hne
    | cons l letters => simpa using hunbroken l List.mem_cons_self
  have hadvance : c.advance = c.next '\\' :=
    Cursor.advance_eq_after (c := c) (x := '\\') rfl
  rw [heq, List.cons_append] at hc
  have hrest : (c.next '\\').rest = letters ++ t := rest_step hc
  rw [readQuoted, Cursor.atDocumentMark_of_column hcolumn, hc, heq, Cursor.after_cons,
    ← Cursor.advanceBy_eq_after hunbroken]
  simp [-List.head?_append, hhead, hadvance, hread hrest]

theorem unbroken_escaped (x : Char) : Unbroken (escaped x) := by
  by_cases hx : IsDirect x
  · rw [escaped_of_isDirect hx]
    simpa [Unbroken] using hx.2.1
  · obtain ⟨letters, heq, hunbroken, -⟩ := escapes_escaped hx
    rw [heq]
    exact List.forall_mem_cons.mpr ⟨rfl, hunbroken⟩

theorem length_escaped (x : Char) : 0 < (escaped x).length ∧ (escaped x).length ≤ 6 := by
  by_cases hx : IsDirect x
  · rw [escaped_of_isDirect hx]
    exact ⟨by simp, by simp⟩
  · obtain ⟨letters, heq, -, -, hlength, -⟩ := escapes_escaped hx
    rw [heq, List.length_cons]
    omega

theorem printable_escaped (x : Char) : Printable (escaped x) := by
  by_cases hx : IsDirect x
  · rw [escaped_of_isDirect hx]
    exact .cons hx.1 nofun
  · obtain ⟨letters, heq, -, -, -, hletters, -⟩ := escapes_escaped hx
    rw [heq]
    exact .cons rfl hletters

/-- A text between double quotes is on one line, and grows at most sixfold. -/
theorem flatMap_escaped (s : List Char) :
    Unbroken (s.flatMap escaped) ∧ s.length ≤ (s.flatMap escaped).length ∧
      (s.flatMap escaped).length ≤ 6 * s.length := by
  induction s with
  | nil => exact ⟨nofun, Nat.le_refl 0, Nat.le_refl 0⟩
  | cons x s ih =>
    obtain ⟨hunbroken, hlow, hhigh⟩ := ih
    obtain ⟨hlow', hhigh'⟩ := length_escaped x
    rw [List.flatMap_cons, List.length_append, List.length_cons]
    exact ⟨.append (unbroken_escaped x) hunbroken, by omega, by omega⟩

theorem solid_escaped (hspace : x ≠ ' ') : Solid (escaped x ++ t) := by
  by_cases hx : IsDirect x
  · rw [escaped_of_isDirect hx]
    refine solid_cons ?_ hx.2.1
    rw [isBlank_of_isPrintable hx.1]
    simpa using hspace
  · obtain ⟨letters, heq, -⟩ := escapes_escaped hx
    rw [heq]
    exact solid_cons rfl rfl

theorem escaped_spaces (n : Nat) : (spaces n).flatMap escaped = spaces n := by
  induction n with
  | zero => rfl
  | succ n ih => rw [spaces_succ, List.flatMap_cons, ih]; rfl

/-- What is written between double quotes is read back. -/
theorem readQuoted_double (hcolumn : 0 < c.column) (hc : c.rest = s.flatMap escaped ++ '"' :: t)
    (hfuel : s.length < fuel) :
    readQuoted false fuel c text = some (s.reverse ++ text, c.after (s.flatMap escaped ++ ['"'])) := by
  induction s using words_induction generalizing c text fuel with
  | nil =>
    obtain ⟨fuel, rfl⟩ := Nat.exists_eq_add_one.mpr hfuel
    rw [readQuoted, Cursor.atDocumentMark_of_column hcolumn, hc]
    simp [Cursor.advance_eq_after (c := c) (x := '"') rfl]
  | run n v hv ih =>
    obtain ⟨fuel, rfl⟩ := Nat.exists_eq_add_one.mpr (Nat.zero_lt_of_lt hfuel)
    have hsolid : Solid (v.flatMap escaped ++ '"' :: t) := by
      cases v with
      | nil => exact solid_cons rfl rfl
      | cons y v =>
        rw [List.flatMap_cons, List.append_assoc]
        exact solid_escaped fun h => hv (by rw [h]; rfl)
    have hcolumn' : 0 < (c.after (spaces (n + 1))).column := by
      rw [Cursor.column_after_of_unbroken (unbroken_spaces _)]
      omega
    rw [List.flatMap_append, escaped_spaces] at hc ⊢
    rw [List.append_assoc] at hc
    rw [readQuoted_spaces hcolumn hc hsolid,
      ih hcolumn' (Cursor.rest_after_of_eq hc) (by simp [spaces] at hfuel; omega)]
    simp [spaces]
  | char x v hspace ih =>
    obtain ⟨fuel, rfl⟩ := Nat.exists_eq_add_one.mpr (Nat.zero_lt_of_lt hfuel)
    have hfuel' : v.length < fuel := by
      simp only [List.length_cons] at hfuel
      omega
    rw [List.flatMap_cons, List.append_assoc] at hc
    have hstep : readQuoted false (fuel + 1) c text =
        readQuoted false fuel (c.after (escaped x)) (x :: text) := by
      by_cases hx : IsDirect x
      · have hblank : isBlank x = false := by
          rw [isBlank_of_isPrintable hx.1]
          simpa using hspace
        rw [escaped_of_isDirect hx] at hc ⊢
        exact readQuoted_char hcolumn hc hblank hx.2.1 hx.2.2
      · exact readQuoted_escape hcolumn hx hc
    have hcolumn' : 0 < (c.after (escaped x)).column := by
      rw [Cursor.column_after_of_unbroken (unbroken_escaped x)]
      omega
    rw [hstep, ih hcolumn' (Cursor.rest_after_of_eq hc) hfuel']
    simp

end Scanner
end BridgeOperator.Yaml
