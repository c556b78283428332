import BridgeOperator.Proofs.Yaml.Blanks
import BridgeOperator.Proofs.Yaml.Text

/-!
Literal blocks are read back as the text that is laid out in them: the hint gives the indentation
where the first line does not show it, and what the header says of the breaks at the end puts back
as many as there were.
-/

namespace BridgeOperator.Yaml

variable {n indent : Nat} {x : Char} {s u v t : List Char}

theorem takeWhile_spaces (hv : v.head? ≠ some ' ') :
    (spaces n ++ v).takeWhile (· = ' ') = spaces n := by
  rw [List.takeWhile_append_of_pos fun x hx => by simpa using List.eq_of_mem_replicate hx]
  cases v with
  | nil => simp
  | cons x v =>
    have hx : x ≠ ' ' := fun h => hv (by rw [h]; rfl)
    simp [hx]

theorem takeWhile_unbroken {b : Char} (hu : Unbroken u) (hb : isBreak b = true) :
    (u ++ b :: v).takeWhile (fun y => !isBreak y) = u := by
  rw [List.takeWhile_append_of_pos fun x hx => by simp [hu x hx]]
  simp [hb]

/-- Lines of printable characters, each with the breaks that follow it. -/
inductive Rows : List Char → Prop where
  | nil : Rows []
  | row {u b v s} : u ≠ [] → Unbroken u → (∀ x ∈ b :: v, IsLineEnd x) → Rows s →
    Rows (u ++ (b :: v ++ s))

theorem Rows.head (h : Rows s) : ∀ x, s.head? = some x → isBreak x = false := by
  cases h with
  | nil => nofun
  | @row u _ _ _ hne hu _ _ =>
    obtain ⟨y, u, rfl⟩ := List.exists_cons_of_ne_nil hne
    rintro x ⟨⟩
    exact hu y List.mem_cons_self

theorem ends_right (h : (u ++ v).getLast?.any isBreak = true) :
    v = [] ∨ v.getLast?.any isBreak = true := by
  rcases List.eq_nil_or_concat v with rfl | ⟨v, y, rfl⟩
  · exact .inl rfl
  · rw [List.concat_eq_append, ← List.append_assoc, List.getLast?_concat] at h
    rw [List.concat_eq_append, List.getLast?_concat]
    exact .inr h

/-- A text whose last line has an end is a row of lines. -/
theorem Rows.of_last (hprintable : Printable s)
    (hhead : ∀ x, s.head? = some x → isBreak x = false)
    (hlast : s = [] ∨ s.getLast?.any isBreak = true) : Rows s := by
  induction hlen : s.length using Nat.strongRecOn generalizing s with
  | _ len ih =>
    subst hlen
    rcases hlast with rfl | hlast
    · exact .nil
    obtain ⟨u, w, rfl, hu, hw⟩ := exists_run (fun x => !isBreak x) s
    have hunbroken : Unbroken u := fun x hx => by simpa using hu x hx
    have hwne : w ≠ [] := by
      rintro rfl
      rw [List.append_nil] at hlast
      obtain ⟨x, hx, hbreak⟩ := (Option.any_eq_true ..).mp hlast
      rw [hunbroken x (List.mem_of_getLast? hx)] at hbreak
      cases hbreak
    have hune : u ≠ [] := by
      rintro rfl
      obtain ⟨x, w, rfl⟩ := List.exists_cons_of_ne_nil hwne
      exact absurd (hw x rfl) (by simp [hhead x rfl])
    obtain ⟨v, s, rfl, hv, hs⟩ := exists_run isBreak w
    have hvne : v ≠ [] := by
      rintro rfl
      obtain ⟨x, s, rfl⟩ := List.exists_cons_of_ne_nil hwne
      exact absurd (hw x rfl) (by simp [hs x rfl])
    obtain ⟨b, v, rfl⟩ := List.exists_cons_of_ne_nil hvne
    have hslast : s = [] ∨ s.getLast?.any isBreak = true := by
      rw [← List.append_assoc] at hlast
      exact ends_right hlast
    refine .row hune hunbroken (fun x hx => .of_isPrintable (hprintable x ?_) (hv x hx)) ?_
    · exact List.mem_append_right _ (List.mem_append_left _ hx)
    · exact ih s.length (by simp; omega) (fun x hx => hprintable x (by simp [hx])) hs hslast rfl

/-- A text that ends its last line is a run of breaks and then rows. -/
theorem exists_rows (hprintable : Printable s)
    (hlast : s.getLast?.any isBreak = true) :
    ∃ u r, s = u ++ r ∧ (∀ x ∈ u, IsLineEnd x) ∧ Rows r := by
  obtain ⟨u, r, rfl, hu, hr⟩ := exists_run isBreak s
  refine ⟨u, r, rfl, fun x hx => ?_, ?_⟩
  · exact .of_isPrintable (hprintable x (List.mem_append_left _ hx)) (hu x hx)
  · exact .of_last (fun x hx => hprintable x (List.mem_append_right _ hx)) hr (ends_right hlast)

theorem indentLines_row {b : Char} (hne : u ≠ []) (hu : Unbroken u) (hv : ∀ x ∈ b :: v, IsLineEnd x) :
    indentLines indent true (u ++ (b :: v ++ s)) =
      spaces indent ++ (u ++ (b :: v ++ indentLines indent true s)) := by
  have hhead : ∀ x, (u ++ (b :: v ++ s)).head? = some x → isBreak x = false := by
    obtain ⟨y, u, rfl⟩ := List.exists_cons_of_ne_nil hne
    rintro x ⟨⟩
    exact hu y List.mem_cons_self
  rw [indentLines_solid (by simp) hhead, indentLines_unbroken hu,
    indentLines_breaks (fun x hx => (hv x hx).isBreak) (by simp)]

namespace Scanner

variable {c : Cursor} {fuel fuel' : Nat} {text held : List Char} {parent : Int}

/-! ## Empty lines -/

/-- Where the next line with text is indented, or the block is over. -/
def Margin (indent n : Nat) (t : List Char) : Prop :=
  (∀ x, t.head? = some x → isBreak x = false) ∧ (n = indent ∨ n < indent ∧ Solid t)

theorem Margin.blanks (h : Margin indent n t) :
    (((spaces n ++ t).take indent).takeWhile (· = ' ')).length = n := by
  obtain ⟨-, rfl | ⟨hn, hsolid⟩⟩ := h
  · rw [List.take_left' (by simp [spaces])]
    have hrun := takeWhile_spaces (n := n) (v := []) (by simp)
    rw [List.append_nil] at hrun
    rw [hrun, spaces, List.length_replicate]
  · have htake : (spaces n ++ t).take indent = spaces n ++ t.take (indent - n) := by
      rw [List.take_append, List.take_of_length_le (by simp [spaces]; omega)]
      simp [spaces]
    rw [htake, takeWhile_spaces, spaces, List.length_replicate]
    rw [List.head?_take]
    split
    · simp
    · intro hspace
      exact absurd (hsolid _ hspace).1 (by decide)

theorem column_after_breaks (hcolumn : c.column = 0) (hu : ∀ x ∈ u, isBreak x = true) :
    (c.after u).column = 0 := by
  induction u generalizing c with
  | nil => exact hcolumn
  | cons x u ih =>
    exact ih (by simp [Cursor.next, hu x List.mem_cons_self])
      fun y hy => hu y (List.mem_cons_of_mem _ hy)

theorem column_after_breaks_spaces (hcolumn : c.column = 0) (hu : ∀ x ∈ u, isBreak x = true) :
    (c.after (u ++ spaces n)).column = n := by
  rw [Cursor.after_append, Cursor.column_after_of_unbroken (unbroken_spaces n),
    column_after_breaks hcolumn hu]
  simp [spaces]

/-- The breaks before a line are collected, and its indentation is taken. -/
theorem blockBreaks_eq (deepest : Nat) (breaks : List Char) (hcolumn : c.column = 0)
    (hc : c.rest = u ++ (spaces n ++ t)) (hu : ∀ x ∈ u, IsLineEnd x) (ht : Margin indent n t)
    (hfuel : u.length < fuel) :
    ∃ d, blockBreaks (some indent) fuel c deepest breaks =
      some (u.reverse ++ breaks, d, c.after (u ++ spaces n)) := by
  induction u generalizing c fuel deepest breaks with
  | nil =>
    obtain ⟨fuel, rfl⟩ := Nat.exists_eq_add_one.mpr hfuel
    have hblanks := Cursor.advanceBy_eq_after (c := c) (unbroken_spaces n)
    have hrest : (c.after (spaces n)).rest = t := Cursor.rest_after_of_eq hc
    rw [spaces, List.length_replicate] at hblanks
    rw [blockBreaks]
    simp only [hcolumn, Nat.sub_zero, hc, List.nil_append, ht.blanks, hblanks]
    rw [← spaces, hrest]
    cases t with
    | nil => exact ⟨_, rfl⟩
    | cons x t =>
      have htab : ¬(x = '\t' ∧ ((some indent).all fun i => (c.after (spaces n)).column < i) = true) := by
        rintro ⟨rfl, hin⟩
        rw [Cursor.column_after_of_unbroken (unbroken_spaces n), hcolumn] at hin
        simp only [spaces, List.length_replicate, Nat.zero_add, Option.all_some,
          decide_eq_true_eq] at hin
        obtain ⟨-, rfl | ⟨-, hsolid⟩⟩ := ht
        · omega
        · exact absurd (hsolid _ rfl).1 (by decide)
      rw [← spaces] at *
      simp only [htab, ht.1 x rfl, if_false, Bool.false_eq_true]
      exact ⟨_, rfl⟩
  | cons x u ih =>
    obtain ⟨fuel, rfl⟩ := Nat.exists_eq_add_one.mpr (Nat.zero_lt_of_lt hfuel)
    have hx := hu x List.mem_cons_self
    have hspace : x ≠ ' ' := by
      rintro rfl
      exact absurd hx.isBlank (by decide)
    have htab : x ≠ '\t' := by
      rintro rfl
      exact absurd hx.isBlank (by decide)
    have hnone : ((c.rest.take indent).takeWhile (· = ' ')).length = 0 := by
      rw [hc]
      cases indent <;> simp [hspace]
    have hstay : c.advanceBy 0 = c := by simp [Cursor.advanceBy]
    have hbudget : u.length < fuel := Nat.lt_of_succ_lt_succ hfuel
    obtain ⟨d, hd⟩ := ih (c := c.after [x]) (max deepest c.column) (x :: breaks)
      (by simp [Cursor.next, hx.isBreak]) (rest_step hc)
      (fun y hy => hu y (List.mem_cons_of_mem _ hy)) hbudget
    refine ⟨d, ?_⟩
    rw [hcolumn] at hd
    rw [blockBreaks]
    simp only [hcolumn, Nat.sub_zero, hnone, hstay]
    rw [hc, List.cons_append]
    simp only [htab, false_and, if_false, hx.isBreak, if_true]
    rw [Cursor.nextLine_eq_after hc hx, Cursor.breakChar_eq hc hx, hd]
    simp

/-- Without a hint the first line shows the indentation. -/
theorem blockBreaks_first (hcolumn : c.column = 0) (hc : c.rest = spaces indent ++ x :: t)
    (hx : x ≠ ' ' ∧ x ≠ '\t' ∧ isBreak x = false) :
    blockBreaks none (fuel + 1) c 0 [] = some ([], indent, c.after (spaces indent)) := by
  have hblanks := Cursor.advanceBy_eq_after (c := c) (unbroken_spaces indent)
  have hrest : (c.after (spaces indent)).rest = x :: t := Cursor.rest_after_of_eq hc
  have hrun := takeWhile_spaces (n := indent) (v := x :: t) (by simpa using hx.1)
  rw [blockBreaks]
  simp only [List.take_length, hc, hrun, hblanks, hrest, hx, false_and, if_false,
    Bool.false_eq_true]
  rw [Cursor.column_after_of_unbroken (unbroken_spaces indent), hcolumn]
  simp [spaces]

/-! ## Lines -/

/-- The text read so far ends within a line, and only the break after that line is held. -/
def Ended (text held : List Char) : Prop :=
  ∃ x v b, text = x :: v ∧ isBreak x = false ∧ held = [b] ∧ isBreak b = true

theorem blockLines_over {breaks : List Char} {blank : Bool} (hc : c.rest = t)
    (hover : c.column ≠ indent ∨ t = []) :
    blockLines true indent (fuel + 1) c text held breaks blank =
      some (text, held, breaks, c) := by
  subst hc
  rw [blockLines]
  cases hrest : c.rest with
  | nil => rfl
  | cons x v =>
    have hcolumn := hover.resolve_right (by simp [hrest])
    simp [hcolumn]

/-- One line, its break and what precedes the next line. -/
theorem blockLines_row {breaks breaks' : List Char} {blank : Bool} {b : Char} {d : Nat}
    {c' : Cursor}
    (hcolumn : c.column = indent) (hc : c.rest = u ++ b :: v) (hne : u ≠ []) (hu : Unbroken u)
    (hb : IsLineEnd b)
    (hbreaks : blockBreaks (some indent) ((c.after (u ++ [b])).rest.length + 1)
      (c.after (u ++ [b])) 0 [] = some (breaks', d, c')) :
    ∃ blank', blockLines true indent (fuel + 1) c text held breaks blank =
      blockLines true indent fuel c' (u.reverse ++ (breaks ++ held ++ text)) [b] breaks'
        blank' := by
  obtain ⟨x, u, rfl⟩ := List.exists_cons_of_ne_nil hne
  have hline : c.rest.takeWhile (fun y => !isBreak y) = x :: u := by
    rw [hc, takeWhile_unbroken hu hb.isBreak]
  have hadvance := Cursor.advanceBy_eq_after (c := c) hu
  have hrest : (c.after (x :: u)).rest = b :: v := Cursor.rest_after_of_eq hc
  refine ⟨isBlank x, ?_⟩
  rw [blockLines, hline]
  simp only [hadvance, hrest]
  rw [hc, List.cons_append]
  simp only [hcolumn, ne_eq, not_true_eq_false, if_false, Bool.not_true, Bool.false_and,
    Bool.false_eq_true]
  rw [Cursor.nextLine_eq_after hrest hb, Cursor.breakChar_eq hrest hb, ← Cursor.after_append,
    hbreaks]
  rfl

/-- All rows of a text, from the start of a line on. -/
theorem blockLines_rows (text held : List Char) (hs : Rows s) (hn : n < indent) (ht : Solid t)
    (hu : ∀ x ∈ u, IsLineEnd x) (hcolumn : c.column = 0)
    (hc : c.rest = u ++ (indentLines indent true s ++ (spaces n ++ t)))
    (hfuel : u.length < fuel) (hfuel' : s.length < fuel') :
    ∃ d text' held' breaks',
      blockBreaks (some indent) fuel c 0 [] =
        some (u.reverse, d, c.after (u ++ spaces (if s = [] then n else indent))) ∧
      (∀ blank, blockLines true indent fuel' (c.after (u ++ spaces (if s = [] then n else indent)))
        text held u.reverse blank =
          some (text', held', breaks', c.after (u ++ (indentLines indent true s ++ spaces n)))) ∧
      breaks' ++ held' ++ text' = s.reverse ++ u.reverse ++ held ++ text ∧
      (∀ x ∈ breaks', isBreak x = true) ∧
      (s ≠ [] ∨ Ended text held → Ended text' held') := by
  induction hs generalizing c text held u fuel fuel' with
  | nil =>
    obtain ⟨fuel', rfl⟩ := Nat.exists_eq_add_one.mpr hfuel'
    obtain ⟨d, hd⟩ := blockBreaks_eq 0 [] hcolumn
      (by simpa [indentLines] using hc) hu ⟨fun x hx => (ht x hx).2, .inr ⟨hn, ht⟩⟩ hfuel
    have hout : (c.after (u ++ spaces n)).column ≠ indent := by
      rw [column_after_breaks_spaces hcolumn fun x hx => (hu x hx).isBreak]
      omega
    refine ⟨d, text, held, u.reverse, by simpa using hd,
      fun blank => by simpa [indentLines] using blockLines_over rfl (.inl hout), by simp, ?_, ?_⟩
    · exact fun x hx => (hu x (List.mem_reverse.mp hx)).isBreak
    · exact fun h => h.resolve_left fun hne => hne rfl
  | @row w b v s hne hw hv hs ih =>
    obtain ⟨fuel', rfl⟩ := Nat.exists_eq_add_one.mpr (Nat.zero_lt_of_lt hfuel')
    rw [indentLines_row hne hw hv] at hc
    have hmargin : Margin indent indent
        (w ++ (b :: (v ++ (indentLines indent true s ++ (spaces n ++ t))))) := by
      refine ⟨?_, .inl rfl⟩
      obtain ⟨y, w, rfl⟩ := List.exists_cons_of_ne_nil hne
      rintro x ⟨⟩
      exact hw y List.mem_cons_self
    obtain ⟨d, hd⟩ := blockBreaks_eq 0 [] hcolumn
      (by rw [hc]; simp) hu hmargin hfuel
    have hcolumn' : (c.after (u ++ spaces indent)).column = indent :=
      column_after_breaks_spaces hcolumn fun x hx => (hu x hx).isBreak
    have hline : (c.after (u ++ spaces indent)).rest =
        w ++ b :: (v ++ (indentLines indent true s ++ (spaces n ++ t))) :=
      Cursor.rest_after_of_eq (by rw [hc]; simp)
    have hend : c.after (u ++ (indentLines indent true (w ++ (b :: v ++ s)) ++ spaces n)) =
        (((c.after (u ++ spaces indent)).after (w ++ [b])).after
          (v ++ (indentLines indent true s ++ spaces n))) := by
      rw [indentLines_row hne hw hv]
      simp
    rw [if_neg (by simp [hne])]
    generalize c.after (u ++ spaces indent) = first at hd hcolumn' hline hend ⊢
    have hnext : (first.after (w ++ [b])).rest =
        v ++ (indentLines indent true s ++ (spaces n ++ t)) :=
      Cursor.rest_after_of_eq (by rw [hline]; simp)
    have hbudget : v.length < (first.after (w ++ [b])).rest.length + 1 := by
      rw [hnext, List.length_append]
      omega
    have hbudget' : s.length < fuel' := by
      simp only [List.length_append, List.length_cons] at hfuel'
      omega
    obtain ⟨d', text', held', breaks', hbreaks, hlines, hwhole, hends, hended⟩ :=
      ih (w.reverse ++ (u.reverse ++ held ++ text)) [b]
        (fun x hx => hv x (List.mem_cons_of_mem _ hx))
        (by rw [Cursor.after_append]; simp [Cursor.next, (hv b List.mem_cons_self).isBreak]) hnext
        hbudget hbudget'
    refine ⟨d, text', held', breaks', by simpa using hd, fun blank => ?_, ?_, hends,
      fun _ => hended (.inr ?_)⟩
    · obtain ⟨blank', hrow⟩ : ∃ blank', blockLines true indent (fuel' + 1) first text held
            u.reverse blank =
          blockLines true indent fuel' _ (w.reverse ++ (u.reverse ++ held ++ text)) [b] v.reverse
            blank' :=
        blockLines_row hcolumn' hline hne hw (hv b List.mem_cons_self) hbreaks
      rw [hrow, hlines, hend]
    · rw [hwhole]
      simp
    · obtain ⟨w, y, rfl⟩ := (List.eq_nil_or_concat w).resolve_left hne
      exact ⟨y, w.reverse ++ (u.reverse ++ held ++ text), b, by simp, hw y (by simp), rfl,
        (hv b List.mem_cons_self).isBreak⟩

/-! ## Breaks at the end -/

/-- The sign for what becomes of the breaks at the end. -/
def Chomping.sign : Chomping → List Char
  | .strip => ['-']
  | .clip => []
  | .keep => ['+']

/-- The breaks at the end that are part of the text. -/
def Chomping.kept (k : Chomping) (held breaks : List Char) : List Char :=
  match k with
  | .strip => []
  | .clip => held
  | .keep => breaks ++ held

/-- What the header of a literal block says of the breaks at the end. -/
def chompingOf (s : List Char) : Chomping :=
  match s.reverse with
  | [] => .strip
  | last :: before =>
    if !isBreak last then .strip
    else if before.isEmpty || before.head?.any isBreak then .keep
    else .clip

/-- The text with the end of its last line. -/
def closed (s : List Char) : List Char :=
  s ++ (if s.getLast?.any isBreak then [] else ['\n'])

/-- A single break at the end is the one that is held. -/
theorem Ended.single {breaks : List Char} {b : Char} (h : Ended text held)
    (hbreaks : ∀ z ∈ breaks, isBreak z = true) (hwhole : breaks ++ held ++ text = b :: x :: v)
    (hx : isBreak x = false) : held = [b] ∧ breaks = [] ∧ text = x :: v := by
  obtain ⟨y, w, b', rfl, -, rfl, hb'⟩ := h
  match breaks with
  | [] => simpa using hwhole
  | [z] =>
    simp only [List.cons_append, List.nil_append, List.cons.injEq] at hwhole
    rw [hwhole.2.1, hx] at hb'
    cases hb'
  | z :: z' :: breaks =>
    simp only [List.cons_append, List.cons.injEq] at hwhole
    have hz' := hbreaks z' (by simp)
    rw [hwhole.2.1, hx] at hz'
    cases hz'

/-- The header puts back as many breaks as the text ends with. -/
theorem kept_chompingOf {breaks : List Char} (hne : s ≠ [])
    (hbreaks : ∀ z ∈ breaks, isBreak z = true) (hwhole : breaks ++ held ++ text = (closed s).reverse)
    (hended : (∃ z ∈ closed s, isBreak z = false) → Ended text held) :
    (chompingOf s).kept held breaks ++ text = s.reverse := by
  obtain ⟨s, x, rfl⟩ := (List.eq_nil_or_concat s).resolve_left hne
  rw [List.concat_eq_append] at *
  cases hx : isBreak x with
  | false =>
    have hclosed : closed (s ++ [x]) = s ++ [x] ++ ['\n'] := by simp [closed, hx]
    rw [hclosed] at hwhole hended
    obtain ⟨-, -, htext⟩ := (hended ⟨x, by simp, hx⟩).single hbreaks (by simpa using hwhole) hx
    simp [chompingOf, hx, Chomping.kept, htext]
  | true =>
    have hclosed : closed (s ++ [x]) = s ++ [x] := by simp [closed, hx]
    rw [hclosed] at hwhole hended
    rcases List.eq_nil_or_concat s with rfl | ⟨s, y, rfl⟩
    · simpa [chompingOf, hx, Chomping.kept] using hwhole
    rw [List.concat_eq_append] at *
    cases hy : isBreak y with
    | false =>
      obtain ⟨hheld, -, htext⟩ := (hended ⟨y, by simp, hy⟩).single hbreaks (by simpa using hwhole) hy
      simp [chompingOf, hx, hy, Chomping.kept, hheld, htext]
    | true => simpa [chompingOf, hx, hy, Chomping.kept] using hwhole

/-! ## The block -/

/-- Does the header say how deep the block is? -/
def hinted (s : List Char) : Bool := s.head?.any fun x => isSpace x || isBreak x

theorem literalHeader_eq (s : List Char) :
    literalHeader s = '|' :: ((if hinted s then ['2'] else []) ++ (chompingOf s).sign) := by
  have hsign : (chompingOf s).sign = match s.reverse with
      | [] => ['-']
      | last :: before =>
        if !isBreak last then ['-']
        else if before.isEmpty || before.head?.any isBreak then ['+']
        else [] := by
    unfold chompingOf
    split
    · rfl
    · split
      · rfl
      · split <;> rfl
  rw [hsign]
  rfl

theorem blockHeader_eq {hint : Bool} {k : Chomping}
    (hc : c.rest = (if hint then ['2'] else []) ++ k.sign ++ '\n' :: t) :
    blockHeader c = some (k, if hint then some 2 else none,
      c.after ((if hint then ['2'] else []) ++ k.sign)) := by
  have hsigns : Unbroken ((if hint then ['2'] else []) ++ k.sign) := by
    cases hint <;> cases k <;> decide
  rw [← Cursor.advanceBy_eq_after hsigns]
  unfold blockHeader
  cases hint <;> cases k <;> rw [hc] <;> rfl

theorem indentLines_snoc {first : Bool} {b : Char} (hb : isBreak b = true) :
    indentLines indent first (s ++ [b]) = indentLines indent first s ++ [b] := by
  induction s generalizing first with
  | nil => simp [indentLines, hb]
  | cons x s ih =>
    rw [List.cons_append, indentLines, indentLines]
    split <;> simp [ih]

/-- The layout of the text is that of its rows. -/
theorem indentLines_closed (indent : Nat) (s : List Char) :
    indentLines indent true (closed s) =
      indentLines indent true s ++ (if s.getLast?.any isBreak then [] else ['\n']) := by
  unfold closed
  split
  · simp
  · exact indentLines_snoc rfl

theorem indentLines_lead (hu : ∀ x ∈ u, isBreak x = true) :
    indentLines indent true (u ++ v) = u ++ indentLines indent true v := by
  by_cases hne : u = []
  · subst hne
    rfl
  · exact indentLines_breaks hu hne

theorem closed_last (s : List Char) : (closed s).getLast?.any isBreak = true := by
  unfold closed
  split
  · simpa
  · simp [isBreak]

theorem endsLine_closed (indent : Nat) (s : List Char) :
    EndsLine (indentLines indent true (closed s)) := by
  have hlast := closed_last s
  rcases List.eq_nil_or_concat (closed s) with hnil | ⟨w, b, hsnoc⟩
  · rw [hnil] at hlast
    cases hlast
  · rw [List.concat_eq_append] at hsnoc
    rw [hsnoc, List.getLast?_concat] at hlast
    rw [hsnoc, indentLines_snoc hlast]
    exact ⟨_, b, rfl, hlast⟩

theorem printable_closed (hs : needsEscape s = false) : Printable (closed s) := by
  intro x hx
  rcases List.mem_append.mp hx with hx | hx
  · exact printable_of_not_needsEscape hs x hx
  · split at hx
    · cases hx
    · rw [List.mem_singleton.mp hx]
      rfl

/-- The parts of a block put together. -/
theorem readBlock_eq {k : Chomping} {increment : Option Nat} {parent deepest : Nat}
    {lead breaks : List Char} {c' c'' : Cursor}
    (hheader : blockHeader c = some (k, increment, c.after u)) (hc : (c.after u).rest = '\n' :: v)
    (hbreaks : blockBreaks (increment.map (parent + ·)) (v.length + 1) (c.after (u ++ ['\n'])) 0 [] =
      some (lead, deepest, c'))
    (hlines : blockLines true ((increment.map (parent + ·)).getD (max (max deepest (parent + 1)) 1))
      (c'.rest.length + 1) c' [] [] lead false = some (text, held, breaks, c'')) :
    readBlock true parent c = some (String.ofList (k.kept held breaks ++ text).reverse, c'') := by
  have hrest : (c.after (u ++ ['\n'])).rest = v := by
    rw [Cursor.after_append]
    exact Cursor.rest_after_of_eq (u := ['\n']) hc
  have hspaces : skipSpaces (c.after u) = c.after u := by
    rw [skipSpaces, hc]
    rfl
  have hcomment : skipComment (c.after u) = c.after u := by
    rw [skipComment, hc]
    rfl
  have hnext : (c.after u).nextLine = c.after (u ++ ['\n']) := by
    rw [Cursor.nextLine_eq_after hc (.inl rfl), Cursor.after_append]
  have hparent : ((parent : Int) + 1).toNat = parent + 1 := rfl
  rw [readBlock, hheader]
  simp only [bind, Option.bind_some, hspaces, hcomment, hc, hnext, hrest, List.isEmpty_cons,
    List.head?_cons, Option.any_some, Int.natCast_nonneg, if_true, Int.toNat_natCast, hparent,
    show isBreak '\n' = true from rfl, Bool.false_or, Bool.not_true, Bool.false_eq_true, if_false,
    hbreaks, hlines]
  cases k <;> rfl

/-- Without a hint the text starts on the first line, and not with a space. -/
theorem closed_of_not_hinted (hne : s ≠ []) (hprintable : Printable s)
    (h : hinted s = false) :
    ∃ x w, closed s = x :: w ∧ x ≠ ' ' ∧ x ≠ '\t' ∧ isBreak x = false := by
  obtain ⟨x, s, rfl⟩ := List.exists_cons_of_ne_nil hne
  have hx : (isSpace x || isBreak x) = false := h
  obtain ⟨hspace, hbreak⟩ := Bool.or_eq_false_iff.mp hx
  refine ⟨x, _, rfl, by simpa [isSpace] using hspace, ?_, hbreak⟩
  rintro rfl
  exact absurd (hprintable '\t' List.mem_cons_self) (by decide)

/-- The lines below the header give back the text, whether its indentation is given or shown. -/
theorem blockLines_closed {parent : Nat} (hs : needsEscape s = false) (hne : s ≠ [])
    (hn : n ≤ parent) (ht : Solid t) (hcolumn : c.column = 0)
    (hc : c.rest = indentLines (parent + 2) true (closed s) ++ (spaces n ++ t))
    (hfuel : c.rest.length < fuel) :
    ∃ lead d c' text held breaks,
      blockBreaks (if hinted s then some (parent + 2) else none) fuel c 0 [] = some (lead, d, c') ∧
      (if hinted s then some (parent + 2) else none).getD (max (max d (parent + 1)) 1) =
        parent + 2 ∧
      blockLines true (parent + 2) (c'.rest.length + 1) c' [] [] lead false =
        some (text, held, breaks, c.after (indentLines (parent + 2) true (closed s) ++ spaces n)) ∧
      (chompingOf s).kept held breaks ++ text = s.reverse := by
  obtain ⟨u, r, hclosed, hu, hrows⟩ := exists_rows (printable_closed hs) (closed_last s)
  have hlength : (closed s).length ≤ (indentLines (parent + 2) true (closed s)).length :=
    length_le_indentLines
  have hlead : indentLines (parent + 2) true (closed s) = u ++ indentLines (parent + 2) true r := by
    rw [hclosed, indentLines_lead fun x hx => (hu x hx).isBreak]
  have hrest : c.rest = u ++ (indentLines (parent + 2) true r ++ (spaces n ++ t)) := by
    rw [hc, hlead, List.append_assoc]
  have hfuel' : r.length <
      (c.after (u ++ spaces (if r = [] then n else parent + 2))).rest.length + 1 := by
    by_cases hr : r = []
    · rw [hr]
      exact Nat.succ_pos _
    · have hfirst : (c.after (u ++ spaces (parent + 2))).rest =
          indentLines (parent + 2) false r ++ (spaces n ++ t) :=
        Cursor.rest_after_of_eq (by rw [hrest, indentLines_solid hr hrows.head]; simp)
      have hwritten : r.length ≤ (indentLines (parent + 2) false r).length := length_le_indentLines
      rw [if_neg hr, hfirst, List.length_append]
      omega
  have hbudget : u.length < fuel := by
    rw [hrest, List.length_append] at hfuel
    omega
  obtain ⟨d, text, held, breaks, hbreaks, hlines, hwhole, hends, hended⟩ :=
    blockLines_rows [] [] hrows (by omega) ht hu hcolumn hrest hbudget hfuel'
  have hkept : (chompingOf s).kept held breaks ++ text = s.reverse := by
    refine kept_chompingOf hne hends (by simpa [hclosed] using hwhole) ?_
    rintro ⟨z, hz, hbreak⟩
    refine hended (.inl ?_)
    rintro rfl
    rw [hclosed, List.append_nil] at hz
    rw [(hu z hz).isBreak] at hbreak
    cases hbreak
  rw [hlead, List.append_assoc]
  cases hhint : hinted s with
  | true => exact ⟨_, d, _, text, held, breaks, hbreaks, rfl, hlines false, hkept⟩
  | false =>
    obtain ⟨x, w, hx, hspace, htab, hbreak⟩ :=
      closed_of_not_hinted hne (printable_of_not_needsEscape hs) hhint
    obtain rfl : u = [] := by
      rw [hx] at hclosed
      cases u with
      | nil => rfl
      | cons y u =>
        cases hclosed
        rw [(hu x List.mem_cons_self).isBreak] at hbreak
        cases hbreak
    obtain rfl : r = x :: w := by simpa [hx] using hclosed.symm
    obtain ⟨fuel, rfl⟩ := Nat.exists_eq_add_one.mpr (Nat.zero_lt_of_lt hfuel)
    have hshown : c.rest =
        spaces (parent + 2) ++ x :: (indentLines (parent + 2) false w ++ (spaces n ++ t)) := by
      rw [hrest]
      simp [indentLines, hbreak]
    have hfirst : blockBreaks none (fuel + 1) c 0 [] =
        some ([], parent + 2, c.after (spaces (parent + 2))) :=
      blockBreaks_first hcolumn hshown ⟨hspace, htab, hbreak⟩
    refine ⟨[], _, _, text, held, breaks, hfirst, ?_, hlines false, hkept⟩
    simp only [Bool.false_eq_true, if_false, Option.getD_none]
    omega

/-- A literal block is read up to the next token. -/
theorem readBlock_literal {parent : Nat} (hs : literalAllowed s = true) (hne : s ≠ [])
    (hn : n ≤ parent) (ht : Solid t)
    (hc : c.rest = (if hinted s then ['2'] else []) ++ (chompingOf s).sign ++ '\n' ::
      (indentLines (parent + 2) true (closed s) ++ (spaces n ++ t))) :
    readBlock true parent c = some (String.ofList s,
      c.after ((if hinted s then ['2'] else []) ++ (chompingOf s).sign ++ '\n' ::
        (indentLines (parent + 2) true (closed s) ++ spaces n))) := by
  simp only [literalAllowed, Bool.and_eq_true, Bool.not_eq_true'] at hs
  have hrest := Cursor.rest_after_of_eq hc
  have hheader := blockHeader_eq hc
  generalize (if hinted s then ['2'] else []) ++ (chompingOf s).sign = signs at *
  have hcolumn : (c.after (signs ++ ['\n'])).column = 0 := by
    rw [Cursor.after_append, Cursor.column_after_break rfl (u := []) (by decide)]
    rfl
  have hbelow : (c.after (signs ++ ['\n'])).rest =
      indentLines (parent + 2) true (closed s) ++ (spaces n ++ t) := by
    rw [Cursor.after_append, rest_step hrest]
  obtain ⟨lead, d, c', text, held, breaks, hbreaks, hindent, hlines, hkept⟩ :=
    blockLines_closed hs.2 hne hn ht hcolumn hbelow (Nat.lt_succ_self _)
  have hgiven : ((if hinted s then some 2 else none : Option Nat).map (parent + ·)) =
      if hinted s then some (parent + 2) else none := by
    split <;> rfl
  rw [readBlock_eq hheader hrest (by rw [hgiven, ← hbelow]; exact hbreaks)
    (by rw [hgiven, hindent]; exact hlines), hkept, List.reverse_reverse, ← Cursor.after_append]
  simp

end Scanner
end BridgeOperator.Yaml
