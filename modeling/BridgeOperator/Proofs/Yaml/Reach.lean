import BridgeOperator.Proofs.Yaml.Blanks

/-!
Which states a scanner comes to. A round of the scanner skips blanks, forgets keys that can no
longer be keys, closes what is deeper than the next token and takes that token; `Reaches` puts
rounds together without counting them.
-/

namespace BridgeOperator.Yaml.Scanner

variable {s s' s'' : Scanner} {fuel n : Nat}

/-- What a round does before it takes a token. -/
def settle (s : Scanner) : Option Scanner :=
  (skipBlanks (s.cursor.rest.length + 1) s).staleKeys.map fun s => s.unroll s.cursor.column

theorem run_succ (fuel : Nat) (s : Scanner) :
    run (fuel + 1) s = s.settle.bind fun s =>
      if s.cursor.rest.isEmpty then s.finish else s.take.bind (run fuel) := by
  rw [run, settle]
  simp only [bind]
  cases (skipBlanks (s.cursor.rest.length + 1) s).staleKeys <;> rfl

/-- After some rounds, none of which is without progress, the run goes on from the other state. -/
def Reaches (s s' : Scanner) : Prop :=
  ∃ rounds, rounds + s'.cursor.rest.length ≤ s.cursor.rest.length ∧
    ∀ fuel, run (fuel + rounds) s = run fuel s'

namespace Reaches

theorem refl (s : Scanner) : Reaches s s := ⟨0, by omega, fun _ => rfl⟩

theorem trans (h : Reaches s s') (h' : Reaches s' s'') : Reaches s s'' := by
  obtain ⟨k, hk, hrun⟩ := h
  obtain ⟨k', hk', hrun'⟩ := h'
  refine ⟨k' + k, by omega, fun fuel => ?_⟩
  rw [← Nat.add_assoc, hrun, hrun']

/-- A state may be put where its next round would put it anyway. -/
theorem of_settle (h : s.settle = some s') (h' : s'.settle = some s')
    (hrest : s'.cursor.rest.length ≤ s.cursor.rest.length) : Reaches s s' := by
  refine ⟨0, by omega, fun fuel => ?_⟩
  cases fuel with
  | zero => rfl
  | succ fuel => rw [Nat.add_zero, run_succ, run_succ, h, h']

/-- One round. -/
theorem of_take (h : s.settle = some s) (htake : s.take = some s')
    (hrest : s'.cursor.rest.length < s.cursor.rest.length) : Reaches s s' := by
  refine ⟨1, by omega, fun fuel => ?_⟩
  have hne : s.cursor.rest.isEmpty = false := by
    rw [List.isEmpty_eq_false_iff]
    intro hnil
    rw [hnil] at hrest
    exact absurd hrest (Nat.not_lt_zero _)
  rw [run_succ, h, Option.bind_some, hne, htake]
  rfl

/-- The tokens that have been found where the text ends. -/
theorem run_eq {ts : List Token} (h : Reaches s s') (hsettle : s'.settle = some s')
    (hend : s'.cursor.rest = []) (hfinish : s'.finish = some ts)
    (hfuel : s.cursor.rest.length < fuel) : run fuel s = some ts := by
  obtain ⟨k, hk, hrun⟩ := h
  obtain ⟨fuel, rfl⟩ : ∃ fuel', fuel = fuel' + 1 + k := ⟨fuel - 1 - k, by omega⟩
  rw [hrun, run_succ, hsettle, Option.bind_some, hend]
  exact hfinish

end Reaches

/-! ## States between tokens -/

variable {c : Cursor} {found : List Token} {indents : List Int} {key : Option SimpleKey}
  {allowed : Bool} {t : List Char}

/-- Outside flow collections, with or without a key that may have started. -/
def within (c : Cursor) (found : List Token) (indents : List Int) (key : Option SimpleKey)
    (allowed : Bool) : Scanner := ⟨c, found, indents, [key], allowed⟩

/-- The same without such a key. -/
abbrev between (c : Cursor) (found : List Token) (indents : List Int) (allowed : Bool) : Scanner :=
  within c found indents none allowed

/-- A key that stands on an earlier line is none, and it need not be one. -/
def IsStale (key : Option SimpleKey) (line : Nat) : Prop :=
  ∀ k, key = some k → k.required = false ∧ k.line < line

theorem isStale_none (line : Nat) : IsStale none line := nofun

theorem staleKeys_within (h : IsStale key c.line) :
    (within c found indents key allowed).staleKeys = some (between c found indents allowed) := by
  cases key with
  | none => rfl
  | some k =>
    obtain ⟨hrequired, hline⟩ := h k rfl
    simp [staleKeys, within, hrequired, hline]

theorem unroll_unroll (n : Int) : ((between c found indents allowed).unroll n).unroll n =
    (between c found indents allowed).unroll n := by
  have hdrop : ∀ l : List Int,
      (l.drop (l.takeWhile fun i => decide (n < i)).length).takeWhile (fun i => decide (n < i)) = [] := by
    intro l
    induction l with
    | nil => rfl
    | cons i l ih =>
      by_cases hi : n < i
      · simpa [hi] using ih
      · simp [hi]
  simp [unroll, within, inFlow, hdrop]

/-- Nothing is closed by a token that is not left of the innermost collection. -/
theorem unroll_of_le (h : (within c found indents key allowed).indent ≤ n) :
    (within c found indents key allowed).unroll n = within c found indents key allowed := by
  cases indents with
  | nil => rfl
  | cons i indents =>
    have hi : ¬(n : Int) < i := Int.not_lt.mpr h
    simp [unroll, within, inFlow, hi]

/-- The collection at a column is closed by a token left of it. -/
theorem unroll_cons {m : Nat} (h : n < m) :
    (between c found (m :: indents) allowed).unroll n =
      (between c (.blockEnd :: found) indents allowed).unroll n := by
  have hm : (n : Int) < (m : Int) := Int.ofNat_lt.mpr h
  simp [unroll, within, inFlow, hm, List.replicate_succ']

/-- At a token there is nothing to skip. -/
theorem settle_token (hrest : StartsToken c.rest) (hkey : IsStale key c.line) :
    (within c found indents key allowed).settle =
      some ((between c found indents allowed).unroll c.column) := by
  have hskip : ∀ fuel, skipBlanks fuel (within c found indents key allowed) =
      within c found indents key allowed := fun _ => skipBlanks_token rfl hrest
  rw [settle, hskip, staleKeys_within hkey]
  rfl

theorem settle_unroll (hrest : StartsToken c.rest) :
    ((between c found indents allowed).unroll c.column).settle =
      some ((between c found indents allowed).unroll c.column) := by
  have h : ((between c found indents allowed).unroll c.column).settle =
      some (((between c found indents allowed).unroll c.column).unroll c.column) :=
    settle_token hrest (isStale_none _)
  exact h.trans (congrArg some (unroll_unroll _))

theorem settle_spaces (hc : c.rest = spaces n ++ t) (ht : StartsToken t) :
    (between c found indents allowed).settle =
      some ((between (c.after (spaces n)) found indents allowed).unroll
        (c.after (spaces n)).column) := by
  have hskip : skipBlanks (c.rest.length + 1) (between c found indents allowed) =
      between (c.after (spaces n)) found indents allowed :=
    skipBlanks_spaces hc ht (Nat.le_of_lt (lt_of_spaces hc))
  have hkeys : (between (c.after (spaces n)) found indents allowed).staleKeys =
      some (between (c.after (spaces n)) found indents allowed) :=
    staleKeys_within (isStale_none _)
  rw [settle]
  change (skipBlanks (c.rest.length + 1) _).staleKeys.map _ = _
  rw [hskip]
  exact congrArg (Option.map _) hkeys

theorem settle_line (hc : c.rest = '\n' :: (spaces n ++ t)) (ht : StartsToken t)
    (hkey : IsStale key (c.line + 1)) :
    (within c found indents key allowed).settle =
      some ((between (c.after ('\n' :: spaces n)) found indents true).unroll n) := by
  have hfuel := lt_of_breaks (v := []) hc
  have hskip : skipBlanks (c.rest.length + 1) (within c found indents key allowed) =
      within (c.after ('\n' :: spaces n)) found indents key true :=
    skipBlanks_line hc ht rfl (by omega)
  have hline : (c.after ('\n' :: spaces n)).line = c.line + 1 := by
    rw [Cursor.after_cons, Cursor.line_after_of_unbroken (unbroken_spaces n)]
    rfl
  have hcolumn : (c.after ('\n' :: spaces n)).column = n := by
    rw [Cursor.column_after_break rfl (unbroken_spaces n)]
    simp [spaces]
  have hkeys : (within (c.after ('\n' :: spaces n)) found indents key true).staleKeys =
      some (between (c.after ('\n' :: spaces n)) found indents true) :=
    staleKeys_within (by rw [hline]; exact hkey)
  rw [settle]
  change (skipBlanks (c.rest.length + 1) _).staleKeys.map _ = _
  rw [hskip]
  refine (congrArg (Option.map _) hkeys).trans ?_
  simp only [Option.map_some]
  change some (unroll _ ((c.after ('\n' :: spaces n)).column : Int)) = _
  rw [hcolumn]

end BridgeOperator.Yaml.Scanner
