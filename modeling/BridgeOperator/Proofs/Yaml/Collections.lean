import BridgeOperator.Proofs.Json.RoundTrip
import BridgeOperator.Proofs.Yaml.Keys
import BridgeOperator.Yaml.Printer

/-!
The tokens of a value. The text of a list or a mapping is read as the tokens of what it holds,
between a token that opens it and one that closes it; a list below a key that stands at the column
of that key has neither.
-/

namespace BridgeOperator.Yaml

/-- The tokens of a value, below a key or on its own. -/
def valueTokens (indentless : Bool) : Json → List Token
  | .arr [] => [.flowSequenceStart, .flowSequenceEnd]
  | .arr (j :: rest) =>
    if indentless then itemTokens (j :: rest)
    else .sequenceStart :: itemTokens (j :: rest) ++ [.blockEnd]
  | .obj [] => [.flowMappingStart, .flowMappingEnd]
  | .obj (f :: rest) => .mappingStart :: fieldTokens (f :: rest) ++ [.blockEnd]
  | .str s => [.scalar (styleOf s.toList = .plain) s]
  | .int n => [.scalar true (toString n)]
  | _ => []
where
  itemTokens : List Json → List Token
    | [] => []
    | j :: rest => .entry :: valueTokens false j ++ itemTokens rest
  fieldTokens : List (String × Json) → List Token
    | [] => []
    | (k, j) :: rest =>
      .key :: .scalar (styleOf k.toList = .plain) k :: .value :: valueTokens (isSimpleKey k) j
        ++ fieldTokens rest

namespace Scanner

variable {c : Cursor} {found found' : List Token} {indents indents' : List Int} {allowed : Bool}
  {t : List Char} {m n depth : Nat} {j : Json}

/-! ## What a value starts with -/

theorem startsToken_scalarLine (indent : Nat) (s : List Char) :
    StartsToken (scalarLine indent s ++ t) := by
  have hchar : ∀ {x : Char} {u : List Char}, x ∈ ['\'', '"', '|'] → StartsToken (x :: u) := by
    intro x u hx
    simp only [List.mem_cons, List.not_mem_nil, or_false] at hx
    rcases hx with rfl | rfl | rfl <;> exact ⟨solid_cons rfl rfl, by rintro x ⟨⟩; decide⟩
  unfold scalarLine
  obtain ⟨hstyle, -, hs⟩ | ⟨hstyle, -, -⟩ | hstyle | ⟨hstyle, -, -⟩ := styleOf_cases s <;>
    simp only [hstyle, List.append_assoc]
  · exact startsToken_plain (.of_allowed hs)
  · exact hchar (by simp)
  · exact hchar (by simp)
  · exact hchar (by simp)

theorem plainText_nat (n : Nat) : PlainText (toString (n : Int)).toList := by
  rw [Json.toList_toString]
  exact .of_digits Nat.toDigits_ne_nil Json.digits_isDigit

theorem inlineValue_nat (m n : Nat) :
    inlineValue m (.int n) = (toString (n : Int)).toList ++ ['\n'] := rfl

theorem startsToken_fields (f : String × Json) (rest : List (String × Json)) :
    StartsToken (block.fields m true (f :: rest) ++ t) := by
  obtain ⟨k, j⟩ := f
  rw [block.fields]
  cases hk : isSimpleKey k with
  | true => simpa using (KeyLine.of_isSimpleKey hk).startsToken
  | false => exact ⟨solid_cons rfl rfl, by rintro x ⟨⟩; decide⟩

theorem startsToken_block (hj : Json.Plain depth j) : StartsToken (block m j ++ t) := by
  cases hj with
  | str s => exact startsToken_scalarLine m s.toList
  | nat n _ =>
    change StartsToken (inlineValue m (.int n) ++ t)
    rw [inlineValue_nat, List.append_assoc]
    exact startsToken_plain (plainText_nat n)
  | arr items _ =>
    cases items <;> exact ⟨solid_cons rfl rfl, by rintro x ⟨⟩; decide⟩
  | obj fields _ =>
    cases fields with
    | nil => exact ⟨solid_cons rfl rfl, by rintro x ⟨⟩; decide⟩
    | cons f rest => exact startsToken_fields f rest

/-! ## What a value ends with -/

theorem endsLine_scalarLine (indent : Nat) (s : List Char) : EndsLine (scalarLine indent s) := by
  unfold scalarLine
  cases styleOf s with
  | plain => exact endsLine_newline _
  | single => exact endsLine_newline _
  | double => exact endsLine_newline _
  | literal =>
    have hclosed := indentLines_closed indent s
    simp only [List.append_assoc, List.cons_append, ← hclosed]
    exact .append _ (.cons _ (endsLine_closed indent s))

theorem endsLine_items (items : List Json) (h : ∀ j ∈ items, EndsLine (block (m + 2) j))
    (hne : items ≠ []) (started : Bool) : EndsLine (block.items m started items) := by
  induction items generalizing started with
  | nil => exact absurd rfl hne
  | cons j rest ih =>
    rw [block.items]
    cases rest with
    | nil =>
      rw [block.items, List.append_nil]
      exact .append _ (.cons _ (.cons _ (h j List.mem_cons_self)))
    | cons j' rest =>
      exact .append _ (ih (fun j hj => h j (List.mem_cons_of_mem _ hj)) nofun false)

theorem endsLine_fields (fields : List (String × Json))
    (h : ∀ e ∈ fields, EndsLine (block (m + 2) e.2) ∧ EndsLine (block.afterKey m e.2))
    (hne : fields ≠ []) (started : Bool) : EndsLine (block.fields m started fields) := by
  induction fields generalizing started with
  | nil => exact absurd rfl hne
  | cons e rest ih =>
    obtain ⟨k, j⟩ := e
    rw [block.fields]
    cases rest with
    | nil =>
      rw [block.fields, List.append_nil]
      refine .append _ ?_
      obtain ⟨hblock, hbelow⟩ := h (k, j) List.mem_cons_self
      split
      · exact .append _ (.cons _ hbelow)
      · exact .append _ (.cons _ (.cons _ hblock))
    | cons e' rest =>
      exact .append _ (ih (fun e he => h e (List.mem_cons_of_mem _ he)) nofun false)

theorem endsLine_block (hj : Json.Plain depth j) :
    ∀ m, EndsLine (block m j) ∧ EndsLine (block.afterKey m j) := by
  induction hj with
  | str s => exact fun m => ⟨endsLine_scalarLine m s.toList, .cons _ (endsLine_scalarLine _ _)⟩
  | nat n hn => exact fun m => ⟨endsLine_newline _, .cons _ (endsLine_newline _)⟩
  | arr items _ ih =>
    intro m
    cases items with
    | nil => exact ⟨endsLine_newline ['[', ']'], endsLine_newline [' ', '[', ']']⟩
    | cons j rest =>
      exact ⟨endsLine_items _ (fun j hj => (ih j hj _).1) nofun true,
        .cons _ (endsLine_items _ (fun j hj => (ih j hj _).1) nofun false)⟩
  | obj fields _ ih =>
    intro m
    cases fields with
    | nil => exact ⟨endsLine_newline ['\x7b', '\x7d'], endsLine_newline [' ', '\x7b', '\x7d']⟩
    | cons e rest =>
      exact ⟨endsLine_fields _ (fun e he => ⟨(ih e he _).1, (ih e he _).2⟩) nofun true,
        .cons _ (endsLine_fields _ (fun e he => ⟨(ih e he _).1, (ih e he _).2⟩) nofun false)⟩

/-! ## Reading values -/

/-- Within a collection at column `m`, a text is read as its tokens up to the next token that is
not deeper. -/
def Scans (m : Nat) (allowed : Bool) (c : Cursor) (text : List Char) (tokens : List Token) : Prop :=
  ∀ (found : List Token) (indents : List Int) {t : List Char} {n : Nat},
    n ≤ m → StartsToken t → c.rest = text ++ (spaces n ++ t) →
    Reaches (between c found (m :: indents) allowed)
      (arrived (c.after (text ++ spaces n)) n (tokens.reverse ++ found) (m :: indents))

/-- A value on its own, where an item or the value of a long key stands, is read as its tokens. -/
def ScansBlock (j : Json) : Prop :=
  ∀ {c : Cursor} {m : Nat}, c.column = m + 2 → Scans m true c (block (m + 2) j) (valueTokens false j)

/-- So is a value below a key. -/
def ScansBelow (j : Json) : Prop :=
  ∀ {c : Cursor} {m : Nat}, m < c.column → Scans m false c (block.afterKey m j) (valueTokens true j)

theorem items_again (j : Json) (rest : List Json) :
    block.items m false (j :: rest) = spaces m ++ block.items m true (j :: rest) := by
  simp [block.items]

theorem fields_again (f : String × Json) (rest : List (String × Json)) :
    block.fields m false (f :: rest) = spaces m ++ block.fields m true (f :: rest) := by
  obtain ⟨k, j⟩ := f
  simp [block.fields]

theorem fields_cons (f : String × Json) (rest : List (String × Json)) :
    block.fields m true (f :: rest) = block.fields m true [f] ++ block.fields m false rest := by
  obtain ⟨k, j⟩ := f
  simp [block.fields]

theorem fieldTokens_cons (f : String × Json) (rest : List (String × Json)) :
    valueTokens.fieldTokens (f :: rest) =
      valueTokens.fieldTokens [f] ++ valueTokens.fieldTokens rest := by
  obtain ⟨k, j⟩ := f
  simp [valueTokens.fieldTokens]

/-- A row of a block at some column, which may open a collection there and is read up to a token
that is not deeper. -/
structure Row (m : Nat) (start : Token) (text : List Char) (tokens : List Token) : Prop where
  starts (t : List Char) : StartsToken (text ++ t)
  ends : EndsLine text
  scans {c : Cursor} {found : List Token} (found' : List Token) (indents : List Int)
    {indents' : List Int} {t : List Char} {n : Nat} :
    c.column = m → n ≤ m → StartsToken t → c.rest = text ++ (spaces n ++ t) →
    (between c found indents' true).indent ≤ m →
    opened start m found indents' = (found', (m : Int) :: indents) →
    Reaches (between c found indents' true)
      (arrived (c.after (text ++ spaces n)) n (tokens.reverse ++ found') (m :: indents))

/-- The next row finds the collection open. -/
theorem Row.append {start : Token} {u v : List Char} {us vs : List Token} (hu : Row m start u us)
    (hv : Row m start v vs) : Row m start (u ++ (spaces m ++ v)) (us ++ vs) where
  starts t := by
    rw [List.append_assoc]
    exact hu.starts _
  ends := (hv.ends.append _).append _
  scans {c found} found' indents {indents' t n} hcolumn hn ht hc hindent hopened := by
    have hfirst := hu.scans found' indents hcolumn (Nat.le_refl m) (hv.starts (spaces n ++ t))
      (by rw [hc]; simp) hindent hopened
    rw [arrived_same (Nat.le_refl m)] at hfirst
    have hsecond := hv.scans (us.reverse ++ found') indents
      (Cursor.column_after_endsLine (c := c) hu.ends m) hn ht
      (Cursor.rest_after_of_eq (by rw [hc]; simp)) (Int.le_refl _) (opened_same start)
    simpa using hfirst.trans hsecond

theorem row_item (hj : Json.Plain depth j) (hscans : ScansBlock j) :
    Row m .sequenceStart ('-' :: ' ' :: block (m + 2) j) (.entry :: valueTokens false j) where
  starts t := startsToken_indicator entry_mem
  ends := .cons _ (.cons _ (endsLine_block hj (m + 2)).1)
  scans {c found} found' indents {indents' t n} hcolumn hn ht hc hindent hopened := by
    have hdash := reaches_indicator entry_mem hc (startsToken_block hj) hcolumn hindent hopened
    have hcolumn' : (c.after ['-', ' ']).column = m + 2 := by
      rw [Cursor.column_after_of_unbroken (by decide), hcolumn]
      rfl
    have hblock := hscans hcolumn' (.entry :: found') indents hn ht (Cursor.rest_after_of_eq hc)
    simpa using hdash.trans hblock

theorem row_items (items : List Json) (hplain : ∀ j ∈ items, Json.Plain depth j)
    (hscans : ∀ j ∈ items, ScansBlock j) (hne : items ≠ []) :
    Row m .sequenceStart (block.items m true items) (valueTokens.itemTokens items) := by
  induction items with
  | nil => exact absurd rfl hne
  | cons j rest ih =>
    have hrow := row_item (m := m) (hplain j List.mem_cons_self) (hscans j List.mem_cons_self)
    cases rest with
    | nil => simpa [block.items, valueTokens.itemTokens] using hrow
    | cons j' rest =>
      have hrows := ih (fun j hj => hplain j (List.mem_cons_of_mem _ hj))
        (fun j hj => hscans j (List.mem_cons_of_mem _ hj)) nofun
      simpa [block.items, valueTokens.itemTokens] using hrow.append hrows

theorem isBlankOrEnd_below (hj : Json.Plain depth j) : isBlankOrEnd (block.afterKey m j ++ t) = true := by
  cases hj with
  | str s => rfl
  | nat n _ => rfl
  | arr items _ => cases items <;> rfl
  | obj fields _ => cases fields <;> rfl

theorem row_shortKey {k : String} (hk : isSimpleKey k = true) (hj : Json.Plain depth j)
    (hscans : ScansBelow j) :
    Row m .mappingStart (keyText k.toList ++ ':' :: block.afterKey m j)
      (.key :: .scalar (styleOf k.toList = .plain) k :: .value :: valueTokens true j) where
  starts t := by
    rw [List.append_assoc]
    exact (KeyLine.of_isSimpleKey hk).startsToken
  ends := .append _ (.cons _ (endsLine_block hj m).2)
  scans {c found} found' indents {indents' t n} hcolumn hn ht hc hindent hopened := by
    have hkey := KeyLine.of_isSimpleKey hk
    rw [List.append_assoc, List.cons_append] at hc
    have hcolon : Reaches (between c found indents' true)
        (between (c.after (keyText k.toList ++ [':'])) (.value :: _ :: .key :: _) _ false) :=
      reaches_key hkey hc (isBlankOrEnd_below hj) (by rw [hcolumn]; exact hindent)
    rw [hcolumn, hopened] at hcolon
    have hcolumn' : m < (c.after (keyText k.toList ++ [':'])).column := by
      rw [Cursor.column_after_of_unbroken (hkey.keyText.1.append (by decide)), hcolumn]
      simp
    have hbelow := hscans hcolumn'
      (.value :: .scalar (styleOf k.toList = .plain) (String.ofList k.toList) :: .key :: found')
      indents hn ht (Cursor.rest_after_of_eq (by rw [hc]; simp))
    simpa using hcolon.trans hbelow

theorem row_longKey (k : String) (hj : Json.Plain depth j) (hscans : ScansBlock j) :
    Row m .mappingStart
      ('?' :: ' ' :: (scalarLine (m + 2) k.toList ++ (spaces m ++ ':' :: ' ' :: block (m + 2) j)))
      (.key :: .scalar (styleOf k.toList = .plain) k :: .value :: valueTokens false j) where
  starts t := startsToken_indicator key_mem
  ends := .cons _ (.cons _ (.append _ (.append _ (.cons _ (.cons _ (endsLine_block hj (m + 2)).1)))))
  scans {c found} found' indents {indents' t n} hcolumn hn ht hc hindent hopened := by
    simp only [List.cons_append, List.append_assoc] at hc
    have hmark := reaches_indicator key_mem hc (startsToken_scalarLine _ _) hcolumn hindent hopened
    have hrest := Cursor.rest_after_of_eq (u := ['?', ' ']) hc
    have hcolumn' : m < (c.after ['?', ' ']).column := by
      rw [Cursor.column_after_of_unbroken (by decide), hcolumn]
      exact Nat.lt_add_of_pos_right (by decide)
    have hcolon : StartsToken (':' :: ' ' :: (block (m + 2) j ++ (spaces n ++ t))) :=
      startsToken_indicator value_mem
    let keyFound : List Token :=
      .scalar (styleOf k.toList = .plain) (String.ofList k.toList) :: .key :: found'
    have hkey : Reaches (between (c.after ['?', ' ']) (.key :: found') (m :: indents) true)
        (arrived ((c.after ['?', ' ']).after (scalarLine (m + 2) k.toList ++ spaces m)) m keyFound
          (m :: indents)) :=
      reaches_scalar hcolumn' (Nat.le_refl m) hcolon hrest
    rw [arrived_same (Nat.le_refl m)] at hkey
    have hends := endsLine_scalarLine (m + 2) k.toList
    have hrest' := Cursor.rest_after_of_eq (u := scalarLine (m + 2) k.toList ++ spaces m)
      (t := ':' :: ' ' :: (block (m + 2) j ++ (spaces n ++ t))) (by rw [hrest]; simp)
    have hcolumn'' := Cursor.column_after_endsLine (c := c.after ['?', ' ']) hends m
    generalize hd : (c.after ['?', ' ']).after (scalarLine (m + 2) k.toList ++ spaces m) = d at *
    have hvalue : Reaches (between d keyFound (m :: indents) true)
        (between (d.after [':', ' ']) (.value :: keyFound) (m :: indents) true) :=
      reaches_indicator value_mem hrest' (startsToken_block hj) hcolumn'' (Int.le_refl _)
        (opened_same _)
    have hcolumn''' : (d.after [':', ' ']).column = m + 2 := by
      rw [Cursor.column_after_of_unbroken (by decide), hcolumn'']
      rfl
    have hblock := hscans hcolumn''' (.value :: keyFound) indents hn ht
      (Cursor.rest_after_of_eq hrest')
    have hall := ((hmark.trans hkey).trans hvalue).trans hblock
    rw [← hd] at hall
    simpa [keyFound] using hall

theorem row_fields (fields : List (String × Json)) (hplain : ∀ e ∈ fields, Json.Plain depth e.2)
    (hscans : ∀ e ∈ fields, ScansBlock e.2 ∧ ScansBelow e.2) (hne : fields ≠ []) :
    Row m .mappingStart (block.fields m true fields) (valueTokens.fieldTokens fields) := by
  induction fields with
  | nil => exact absurd rfl hne
  | cons e rest ih =>
    obtain ⟨k, j⟩ := e
    obtain ⟨hblock, hbelow⟩ := hscans (k, j) List.mem_cons_self
    have hj := hplain (k, j) List.mem_cons_self
    have hrow : Row m .mappingStart (block.fields m true [(k, j)])
        (valueTokens.fieldTokens [(k, j)]) := by
      cases hk : isSimpleKey k with
      | true => simpa [block.fields, valueTokens.fieldTokens, hk] using row_shortKey hk hj hbelow
      | false => simpa [block.fields, valueTokens.fieldTokens, hk] using row_longKey k hj hblock
    cases rest with
    | nil => exact hrow
    | cons e' rest =>
      have hrows := ih (fun e he => hplain e (List.mem_cons_of_mem _ he))
        (fun e he => hscans e (List.mem_cons_of_mem _ he)) nofun
      rw [fields_cons, fields_again, fieldTokens_cons]
      exact hrow.append hrows

/-! ## All values -/

/-- A collection below a key or item is opened by its first row and closed after its last one. -/
theorem Row.block {text : List Char} {tokens : List Token} {start : Token} {m' : Nat}
    (h : Row m' start text tokens) (found : List Token) (indents : List Int) (hm : m < m') (hcolumn : c.column = m') (hn : n ≤ m)
    (ht : StartsToken t) (hc : c.rest = text ++ (spaces n ++ t)) :
    Reaches (between c found (m :: indents) true)
      (arrived (c.after (text ++ spaces n)) n (.blockEnd :: (tokens.reverse ++ start :: found))
        (m :: indents)) := by
  have hrow : Reaches (between c found (m :: indents) true)
      (arrived _ n (tokens.reverse ++ start :: found) (m' :: m :: indents)) :=
    h.scans _ _ hcolumn (by omega) ht hc (Int.ofNat_le.mpr (Nat.le_of_lt hm))
      (opened_deeper start hm)
  rwa [arrived_closed (by omega)] at hrow

/-- A value on one line is read in the same way wherever it stands. -/
theorem scans_inline
    (htext : ∀ m, block m j = inlineValue m j ∧ block.afterKey m j = ' ' :: inlineValue (m + 2) j)
    (htokens : valueTokens true j = valueTokens false j)
    (hstarts : ∀ m t, StartsToken (inlineValue m j ++ t))
    (h : ∀ {c : Cursor} {m : Nat} (allowed : Bool), m < c.column →
      Scans m allowed c (inlineValue (m + 2) j) (valueTokens false j)) :
    ScansBlock j ∧ ScansBelow j := by
  constructor
  · intro c m hcolumn
    rw [(htext _).1]
    exact h true (by omega)
  · intro c m hcolumn found indents t n hn ht hc
    rw [(htext _).2] at hc ⊢
    rw [htokens]
    have hgap : Reaches (between c found (m :: indents) false)
        (between (c.after (spaces 1)) found (m :: indents) false) :=
      .gap hc (hstarts _ _) (Int.ofNat_le.mpr (Nat.le_of_lt hcolumn))
    have hcolumn' : m < (c.after (spaces 1)).column := by
      rw [Cursor.column_after_of_unbroken (unbroken_spaces 1)]
      omega
    have hvalue := h false hcolumn' found indents hn ht (Cursor.rest_after_of_eq hc)
    simpa [spaces] using hgap.trans hvalue

/-- The text of a value is read as its tokens. -/
theorem scans_plain (hj : Json.Plain depth j) : ScansBlock j ∧ ScansBelow j := by
  induction hj with
  | str s =>
    refine scans_inline (fun m => ⟨rfl, rfl⟩) rfl (fun m t => startsToken_scalarLine m s.toList) ?_
    intro c m allowed hcolumn found indents t n hn ht hc
    change c.rest = scalarLine (m + 2) s.toList ++ _ at hc
    change Reaches _ (arrived (c.after (scalarLine (m + 2) s.toList ++ spaces n)) n _ _)
    simpa [valueTokens] using reaches_scalar hcolumn hn ht hc
  | nat k _ =>
    have hk := plainText_nat k
    refine scans_inline (fun m => ⟨rfl, rfl⟩) rfl (fun m t => ?_) ?_
    · rw [inlineValue_nat, List.append_assoc]
      exact startsToken_plain hk
    · intro c m allowed hcolumn found indents t n hn ht hc
      rw [inlineValue_nat] at hc ⊢
      simpa [valueTokens] using reaches_plain hcolumn hn ht hk (by simpa using hc)
  | arr items hplain ih =>
    cases items with
    | nil =>
      refine scans_inline (fun m => ⟨rfl, rfl⟩) rfl
        (fun m t => ⟨solid_cons rfl rfl, by rintro x ⟨⟩; decide⟩) ?_
      intro c m allowed hcolumn found indents t n hn ht hc
      exact reaches_empty (x := '[') (y := ']') (by simp [brackets]) hcolumn hc ht
    | cons j rest =>
      have hrows := fun m => row_items (m := m) _ hplain (fun j hj => (ih j hj).1) (List.cons_ne_nil _ _)
      constructor
      · intro c m hcolumn found indents t n hn ht hc
        change c.rest = block.items (m + 2) true _ ++ _ at hc
        change Reaches _ (arrived (c.after (block.items (m + 2) true _ ++ spaces n)) n _ _)
        simpa [valueTokens] using (hrows (m + 2)).block found indents (by omega) hcolumn hn ht hc
      · intro c m hcolumn found indents t n hn ht hc
        have htext : block.afterKey m (.arr (j :: rest)) =
            '\n' :: (spaces m ++ block.items m true (j :: rest)) := by
          rw [← items_again]
          rfl
        rw [htext] at hc ⊢
        have hbelow : c.rest =
            '\n' :: (spaces m ++ (block.items m true (j :: rest) ++ (spaces n ++ t))) := by
          rw [hc]
          simp
        have hline : Reaches (between c found (m :: indents) false)
            (arrived (c.after ('\n' :: spaces m)) m found (m :: indents)) :=
          .line hbelow ((hrows m).starts _) (isStale_none _)
        rw [arrived_same (Nat.le_refl m)] at hline
        have hitems := (hrows m).scans found indents
          (Cursor.column_after_endsLine (c := c) (endsLine_newline []) m) hn ht
          (Cursor.rest_after_of_eq (by rw [hc]; simp)) (Int.le_refl _) (opened_same _)
        simpa [valueTokens] using hline.trans hitems
  | obj fields hplain ih =>
    cases fields with
    | nil =>
      refine scans_inline (fun m => ⟨rfl, rfl⟩) rfl
        (fun m t => ⟨solid_cons rfl rfl, by rintro x ⟨⟩; decide⟩) ?_
      intro c m allowed hcolumn found indents t n hn ht hc
      exact reaches_empty (x := '\x7b') (y := '\x7d') (by simp [brackets]) hcolumn hc ht
    | cons e rest =>
      have hrows := fun m => row_fields (m := m) _ hplain ih (List.cons_ne_nil _ _)
      constructor
      · intro c m hcolumn found indents t n hn ht hc
        change c.rest = block.fields (m + 2) true _ ++ _ at hc
        change Reaches _ (arrived (c.after (block.fields (m + 2) true _ ++ spaces n)) n _ _)
        simpa [valueTokens] using (hrows (m + 2)).block found indents (by omega) hcolumn hn ht hc
      · intro c m hcolumn found indents t n hn ht hc
        have htext : block.afterKey m (.obj (e :: rest)) =
            '\n' :: (spaces (m + 2) ++ block.fields (m + 2) true (e :: rest)) := by
          rw [← fields_again]
          rfl
        rw [htext] at hc ⊢
        have hbelow : c.rest =
            '\n' :: (spaces (m + 2) ++ (block.fields (m + 2) true (e :: rest) ++ (spaces n ++ t))) := by
          rw [hc]
          simp
        have hline : Reaches (between c found (m :: indents) false)
            (arrived (c.after ('\n' :: spaces (m + 2))) (m + 2) found (m :: indents)) :=
          .line hbelow ((hrows (m + 2)).starts _) (isStale_none _)
        rw [arrived_same (by omega)] at hline
        have hfields := (hrows (m + 2)).block found indents (by omega : m < m + 2)
          (Cursor.column_after_endsLine (c := c) (endsLine_newline []) (m + 2)) hn ht
          (Cursor.rest_after_of_eq (by rw [hc]; simp))
        simpa [valueTokens] using hline.trans hfields

/-! ## The whole text -/

/-- A document that is a mapping with fields is read as the tokens of the mapping. -/
theorem run_block (fields : List (String × Json)) (hplain : ∀ e ∈ fields, Json.Plain depth e.2)
    (hne : fields ≠ []) :
    run ((block 0 (.obj fields)).length + 1) (.start (block 0 (.obj fields))) =
      some (valueTokens false (.obj fields)) := by
  obtain ⟨e, rest, rfl⟩ := List.exists_cons_of_ne_nil hne
  have hrow : Reaches (.start (block 0 (.obj (e :: rest))))
      (arrived ((Cursor.start (block 0 (.obj (e :: rest)))).after _) 0 _ [0]) :=
    (row_fields (m := 0) _ hplain (fun e he => scans_plain (hplain e he)) hne).scans
      [.mappingStart] [] (t := []) rfl (Nat.le_refl 0) ⟨solid_nil, nofun⟩
      (List.append_nil _).symm (by simp [within, indent]) rfl
  rw [← Int.natCast_zero, arrived_same (Nat.le_refl 0)] at hrow
  have hrest : ((Cursor.start (block 0 (.obj (e :: rest)))).after
      (block.fields 0 true (e :: rest) ++ spaces 0)).rest = [] :=
    Cursor.rest_after_of_eq (by simp [spaces]; rfl)
  refine hrow.run_eq (settle_between ?_ (by simp [within, indent])) hrest ?_ (Nat.lt_succ_self _)
  · rw [hrest]
    exact ⟨solid_nil, nofun⟩
  · simp [finish, unroll, within, inFlow, dropKey, valueTokens]

end Scanner
end BridgeOperator.Yaml
