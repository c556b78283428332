import BridgeOperator.Proofs.Yaml.Cursor

/-!
What is read between the words of a scalar, and what is skipped between tokens.
-/

namespace BridgeOperator.Yaml.Scanner

variable {c : Cursor} {t : List Char} {n fuel : Nat} {strict : Option Int} {g : Gap}

theorem spaces_succ (n : Nat) : spaces (n + 1) = ' ' :: spaces n := rfl

theorem rest_step {x : Char} {u : List Char} (hc : c.rest = x :: u) : (c.after [x]).rest = u :=
  Cursor.rest_after_of_eq (u := [x]) hc

/-! ## Fuel -/

theorem lt_of_spaces (hc : c.rest = spaces n ++ t) : n < c.rest.length + 1 := by
  rw [hc, List.length_append, spaces, List.length_replicate]
  omega

theorem lt_of_breaks {b : Char} {v : List Char} (hc : c.rest = b :: v ++ (spaces n ++ t)) :
    v.length + n + 1 < c.rest.length + 1 := by
  rw [hc, List.length_append, List.length_append, List.length_cons, spaces, List.length_replicate]
  omega

/-! ## Gaps -/

theorem readGap_solid (hc : c.rest = t) (ht : Solid t) (hfuel : 0 < fuel) :
    readGap strict fuel c g = some (g, c) := by
  obtain ⟨fuel, rfl⟩ := Nat.exists_eq_add_one.mpr hfuel
  subst hc
  cases hrest : c.rest with
  | nil => simp [readGap, hrest]
  | cons x u =>
    obtain ⟨hblank, hbreak⟩ := ht x (by rw [hrest]; rfl)
    simp [readGap, hrest, hblank, hbreak]

/-- On the first line the spaces belong to the gap. -/
theorem readGap_spaces {blanks more : List Char} (hc : c.rest = spaces n ++ t) (ht : Solid t)
    (hfuel : n < fuel) :
    readGap strict fuel c ⟨blanks, none, more⟩ =
      some (⟨blanks ++ spaces n, none, more⟩, c.after (spaces n)) := by
  induction n generalizing c blanks fuel with
  | zero => simpa [spaces] using readGap_solid hc ht hfuel
  | succ n ih =>
    obtain ⟨fuel, rfl⟩ := Nat.exists_eq_add_one.mpr (Nat.zero_lt_of_lt hfuel)
    rw [spaces_succ, List.cons_append] at hc
    have hnext : readGap strict fuel (c.after [' ']) ⟨blanks ++ [' '], none, more⟩ =
        some (⟨blanks ++ [' '] ++ spaces n, none, more⟩, (c.after [' ']).after (spaces n)) :=
      ih (rest_step hc) (by omega)
    rw [readGap, hc]
    simp only [isBlank, beq_self_eq_true, Bool.true_or, if_true, Option.isSome_none,
      Bool.false_eq_true, if_false]
    rw [Cursor.advance_eq_after (x := ' ') rfl, hnext, spaces_succ, ← Cursor.after_append]
    simp

/-- On later lines they do not, and further breaks are kept. -/
theorem readGap_more {bs : List Char} (hc : c.rest = bs ++ (spaces n ++ t))
    (hbs : ∀ x ∈ bs, IsLineEnd x) (ht : Solid t) (hg : g.first.isSome = true)
    (hfuel : bs.length + n < fuel) :
    readGap strict fuel c g =
      some ({ g with more := g.more ++ bs }, c.after (bs ++ spaces n)) := by
  induction bs generalizing c g fuel with
  | nil =>
    induction n generalizing c fuel with
    | zero => simpa [spaces] using readGap_solid (g := g) hc ht (by omega)
    | succ n ih =>
      obtain ⟨fuel, rfl⟩ := Nat.exists_eq_add_one.mpr (Nat.zero_lt_of_lt hfuel)
      rw [List.nil_append, spaces_succ, List.cons_append] at hc
      have hnext : readGap strict fuel (c.after [' ']) g =
          some ({ g with more := g.more ++ [] }, (c.after [' ']).after ([] ++ spaces n)) :=
        ih (rest_step hc) (by simp only [List.length_nil] at hfuel ⊢; omega)
      rw [readGap, hc]
      simp only [isBlank, beq_self_eq_true, Bool.true_or, if_true, hg, Char.reduceEq, false_and,
        if_false]
      rw [Cursor.advance_eq_after (x := ' ') rfl, hnext, List.nil_append, List.nil_append,
        spaces_succ, ← Cursor.after_append]
      rfl
  | cons b bs ih =>
    obtain ⟨fuel, rfl⟩ := Nat.exists_eq_add_one.mpr (Nat.zero_lt_of_lt hfuel)
    have hb := hbs b List.mem_cons_self
    obtain ⟨first, hfirst⟩ := Option.isSome_iff_exists.mp hg
    rw [List.cons_append] at hc
    have hnext : readGap strict fuel (c.after [b]) { g with more := g.more ++ [b] } =
        some ({ g with more := g.more ++ [b] ++ bs }, (c.after [b]).after (bs ++ spaces n)) :=
      ih (rest_step hc) (fun x hx => hbs x (List.mem_cons_of_mem _ hx)) hg
        (by simp only [List.length_cons] at hfuel; omega)
    rw [readGap, hc]
    simp only [hb.isBlank, hb.isBreak, hfirst, Bool.false_eq_true, if_false, if_true]
    rw [Cursor.nextLine_eq_after hc hb, Cursor.breakChar_eq hc hb, ← hfirst, hnext,
      ← Cursor.after_append]
    simp

theorem readGap_breaks {b : Char} {bs : List Char} (hc : c.rest = b :: bs ++ (spaces n ++ t))
    (hb : IsLineEnd b) (hbs : ∀ x ∈ bs, IsLineEnd x) (ht : Solid t)
    (hfuel : bs.length + n + 1 < fuel) :
    readGap strict fuel c Gap.none =
      some (⟨[], some b, bs⟩, c.after (b :: bs ++ spaces n)) := by
  obtain ⟨fuel, rfl⟩ := Nat.exists_eq_add_one.mpr (Nat.zero_lt_of_lt hfuel)
  rw [List.cons_append] at hc
  have hnext : readGap strict fuel (c.after [b]) ⟨[], some b, []⟩ =
      some (⟨[], some b, bs⟩, (c.after [b]).after (bs ++ spaces n)) :=
    readGap_more (rest_step hc) hbs ht rfl (by omega)
  rw [readGap, hc]
  simp only [hb.isBlank, hb.isBreak, Bool.false_eq_true, if_false, if_true, Gap.none]
  rw [Cursor.nextLine_eq_after hc hb, Cursor.breakChar_eq hc hb, hnext, ← Cursor.after_append]
  simp

/-! ## Between tokens -/

variable {s : Scanner}

/-- The text is at its end or starts with what may be a token. -/
def StartsToken (t : List Char) : Prop :=
  Solid t ∧ ∀ x, t.head? = some x → x ≠ '#' ∧ x ≠ '\ufeff'

theorem skipBlanks_token (hs : s.cursor.rest = t) (ht : StartsToken t) :
    skipBlanks fuel s = s := by
  cases fuel with
  | zero => rfl
  | succ fuel =>
    rw [skipBlanks]
    cases hrest : s.cursor.rest with
    | nil => rfl
    | cons x u =>
      have hx : t.head? = some x := by rw [← hs, hrest]; rfl
      obtain ⟨hblank, hbreak⟩ := ht.1 x hx
      obtain ⟨hhash, hmark⟩ := ht.2 x hx
      simp only [isBlank, Bool.or_eq_false_iff, beq_eq_false_iff_ne] at hblank
      simp [hhash, hmark, hbreak, hblank.1, hblank.2]

theorem skipBlanks_spaces (hs : s.cursor.rest = spaces n ++ t) (ht : StartsToken t)
    (hfuel : n ≤ fuel) :
    skipBlanks fuel s = { s with cursor := s.cursor.after (spaces n) } := by
  induction n generalizing s fuel with
  | zero => simpa [spaces] using skipBlanks_token hs ht
  | succ n ih =>
    obtain ⟨fuel, rfl⟩ := Nat.exists_eq_add_of_le' (Nat.le_trans (Nat.succ_le_succ n.zero_le) hfuel)
    rw [spaces_succ, List.cons_append] at hs
    have hnext : skipBlanks fuel { s with cursor := s.cursor.after [' '] } =
        { s with cursor := (s.cursor.after [' ']).after (spaces n) } :=
      ih (rest_step hs) (by omega)
    rw [skipBlanks, hs]
    simp only [Char.reduceEq, false_and, if_false, true_or, if_true]
    rw [Cursor.advance_eq_after (x := ' ') rfl, hnext, spaces_succ, ← Cursor.after_append]
    rfl

/-- After the end of a line a key may start. -/
theorem skipBlanks_line (hs : s.cursor.rest = '\n' :: (spaces n ++ t)) (ht : StartsToken t)
    (hflow : s.inFlow = false) (hfuel : n < fuel) :
    skipBlanks fuel s =
      { s with cursor := s.cursor.after ('\n' :: spaces n), keyAllowed := true } := by
  obtain ⟨fuel, rfl⟩ := Nat.exists_eq_add_one.mpr (Nat.zero_lt_of_lt hfuel)
  have hnext : skipBlanks fuel { s with cursor := s.cursor.after ['\n'], keyAllowed := true } =
      { s with cursor := (s.cursor.after ['\n']).after (spaces n), keyAllowed := true } :=
    skipBlanks_spaces (rest_step hs) ht (by omega)
  rw [skipBlanks, hs]
  simp only [Char.reduceEq, false_and, if_false, false_or, show isBreak '\n' = true from rfl,
    if_true, hflow, Bool.not_false, Bool.or_true]
  rw [Cursor.nextLine_eq_after hs (.inl rfl), hnext, ← Cursor.after_append]
  rfl

end BridgeOperator.Yaml.Scanner
