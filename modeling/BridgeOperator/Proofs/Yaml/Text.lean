import BridgeOperator.Proofs.Yaml.Cursor

/-!
How a text is looked at before it is written, and how its lines are laid out: which characters
stand next to each other, which runs it falls into, and where indentation goes.
-/

namespace BridgeOperator.Yaml

variable {p q : Char → Bool} {s u v t : List Char} {a b x : Char} {n indent : Nat}

/-- A text starts with the longest run of characters of a kind. -/
theorem exists_run (p : Char → Bool) (s : List Char) :
    ∃ u v, s = u ++ v ∧ (∀ x ∈ u, p x = true) ∧ ∀ x, v.head? = some x → p x = false := by
  refine ⟨s.takeWhile p, s.dropWhile p, List.takeWhile_append_dropWhile.symm, ?_, ?_⟩
  · exact fun x hx => (List.all_eq_true.mp List.all_takeWhile) x hx
  · intro x hx
    have hnot := List.head?_dropWhile_not p s
    rw [hx] at hnot
    exact hnot

theorem exists_spaces (s : List Char) :
    ∃ n v, s = spaces n ++ v ∧ v.head? ≠ some ' ' := by
  obtain ⟨u, v, rfl, hu, hv⟩ := exists_run isSpace s
  refine ⟨u.length, v, ?_, fun hspace => ?_⟩
  · congr 1
    exact List.eq_replicate_of_mem fun x hx => by simpa [isSpace] using hu x hx
  · exact absurd (hv _ hspace) (by decide)

theorem length_lt_after (x : Char) (u v : List Char) : v.length < (x :: (u ++ v)).length := by
  rw [List.length_cons, List.length_append]
  omega

/-- A text falls into runs of spaces and other characters. -/
theorem words_induction {P : List Char → Prop} (nil : P [])
    (run : ∀ n v, v.head? ≠ some ' ' → P v → P (spaces (n + 1) ++ v))
    (char : ∀ x v, x ≠ ' ' → P v → P (x :: v)) (s : List Char) : P s := by
  induction hlen : s.length using Nat.strongRecOn generalizing s with
  | _ len ih =>
    subst hlen
    cases s with
    | nil => exact nil
    | cons x s =>
      by_cases hx : x = ' '
      · subst hx
        obtain ⟨n, v, rfl, hv⟩ := exists_spaces s
        exact run n v hv (ih v.length (length_lt_after ' ' (spaces n) v) v rfl)
      · exact char x s hx (ih s.length (by simp) s rfl)

/-- A text falls into runs of spaces, runs of breaks and other characters. -/
theorem lines_induction {P : List Char → Prop} (nil : P [])
    (run : ∀ n v, v.head? ≠ some ' ' → P v → P (spaces (n + 1) ++ v))
    (breaks : ∀ b u v, (∀ x ∈ b :: u, isBreak x = true) →
      (∀ x, v.head? = some x → isBreak x = false) → P v → P (b :: u ++ v))
    (char : ∀ x v, x ≠ ' ' → isBreak x = false → P v → P (x :: v)) (s : List Char) : P s := by
  induction hlen : s.length using Nat.strongRecOn generalizing s with
  | _ len ih =>
    subst hlen
    cases s with
    | nil => exact nil
    | cons x s =>
      by_cases hx : x = ' '
      · subst hx
        obtain ⟨n, v, rfl, hv⟩ := exists_spaces s
        exact run n v hv (ih v.length (length_lt_after ' ' (spaces n) v) v rfl)
      · cases hbreak : isBreak x with
        | false => exact char x s hx hbreak (ih s.length (by simp) s rfl)
        | true =>
          obtain ⟨u, v, rfl, hu, hv⟩ := exists_run isBreak s
          exact breaks x u v (List.forall_mem_cons.mpr ⟨hbreak, hu⟩) hv
            (ih v.length (length_lt_after x u v) v rfl)

theorem not_pair (h : hasPair p q s = false) (hs : s = u ++ a :: b :: v) (ha : p a = true) :
    q b = false := by
  subst hs
  induction u with
  | nil =>
    rw [List.nil_append, hasPair, Bool.or_eq_false_iff, ha, Bool.true_and] at h
    exact h.1
  | cons x u ih =>
    refine ih ?_
    cases u with
    | nil => exact (Bool.or_eq_false_iff.mp h).2
    | cons y u => exact (Bool.or_eq_false_iff.mp h).2

theorem hasPair_right (h : hasPair p q (u ++ v) = false) : hasPair p q v = false := by
  induction u with
  | nil => exact h
  | cons x u ih =>
    refine ih ?_
    cases huv : u ++ v with
    | nil => rfl
    | cons y w =>
      rw [List.cons_append, huv] at h
      exact (Bool.or_eq_false_iff.mp h).2

/-- After a run of one kind no character of the other kind follows. -/
theorem not_pair_run (h : hasPair p q (u ++ v) = false) (hu : ∀ x ∈ u, p x = true) (hne : u ≠ [])
    (hx : v.head? = some x) : q x = false := by
  obtain ⟨v', rfl⟩ : ∃ v', v = x :: v' := by
    cases v with
    | nil => cases hx
    | cons y v' =>
      cases hx
      exact ⟨v', rfl⟩
  rcases List.eq_nil_or_concat u with rfl | ⟨w, a, rfl⟩
  · exact absurd rfl hne
  · rw [List.concat_eq_append] at h hu
    exact not_pair h (List.append_assoc w [a] (x :: v'))
      (hu a (List.mem_append_right _ List.mem_cons_self))

/-! ## Lines -/

theorem indentLines_unbroken (hu : Unbroken u) :
    indentLines indent false (u ++ v) = u ++ indentLines indent false v := by
  induction u with
  | nil => rfl
  | cons x u ih =>
    have hx : isBreak x = false := hu x List.mem_cons_self
    simp [indentLines, hx, ih fun y hy => hu y (List.mem_cons_of_mem _ hy)]

/-- Breaks are written as they are, and the next line starts indented. -/
theorem indentLines_breaks {first : Bool} (hu : ∀ x ∈ u, isBreak x = true) (hne : u ≠ []) :
    indentLines indent first (u ++ v) = u ++ indentLines indent true v := by
  induction u generalizing first with
  | nil => exact absurd rfl hne
  | cons x u ih =>
    have hx : isBreak x = true := hu x List.mem_cons_self
    rw [List.cons_append, indentLines, hx]
    by_cases hu' : u = []
    · subst hu'
      rfl
    · rw [ih (fun z hz => hu z (List.mem_cons_of_mem _ hz)) hu']
      rfl

theorem indentLines_solid (hne : v ≠ []) (hv : ∀ x, v.head? = some x → isBreak x = false) :
    indentLines indent true v = spaces indent ++ indentLines indent false v := by
  cases v with
  | nil => exact absurd rfl hne
  | cons x v => simp [indentLines, hv x rfl]

theorem mem_indentLines {first : Bool} (h : x ∈ indentLines indent first s) : x ∈ s ∨ x = ' ' := by
  induction s generalizing first with
  | nil => cases h
  | cons y s ih =>
    rw [indentLines] at h
    split at h
    · rcases List.mem_cons.mp h with rfl | h
      · exact .inl List.mem_cons_self
      · exact (ih h).imp_left (List.mem_cons_of_mem _)
    · rcases List.mem_append.mp h with h | h
      · split at h
        · exact .inr (List.eq_of_mem_replicate h)
        · cases h
      · rcases List.mem_cons.mp h with rfl | h
        · exact .inl List.mem_cons_self
        · exact (ih h).imp_left (List.mem_cons_of_mem _)

theorem length_le_indentLines {first : Bool} : s.length ≤ (indentLines indent first s).length := by
  induction s generalizing first with
  | nil => exact Nat.zero_le _
  | cons x s ih =>
    rw [indentLines]
    split
    · simp [ih]
    · have hs : s.length ≤ (indentLines indent false s).length := ih
      simp only [List.length_append, List.length_cons]
      omega

end BridgeOperator.Yaml
