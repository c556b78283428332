/-!
Cutting a text at a character.
-/

namespace BridgeOperator.Text

/-- The characters before and after the first `c`, if there is one. -/
def cut (c : Char) : List Char → Option (List Char × List Char)
  | [] => none
  | d :: rest => if d = c then some ([], rest) else (cut c rest).map fun p => (d :: p.1, p.2)

theorem cut_append {c : Char} {before : List Char} (h : c ∉ before) (after : List Char) :
    cut c (before ++ c :: after) = some (before, after) := by
  induction before with
  | nil => simp [cut]
  | cons d before ih =>
    obtain ⟨hne, hbefore⟩ := not_or.mp fun hmem => h (List.mem_cons.mpr hmem)
    rw [List.cons_append, cut, if_neg fun heq => hne heq.symm, ih hbefore]
    rfl

theorem cut_eq_none_iff {c : Char} {s : List Char} : cut c s = none ↔ c ∉ s := by
  induction s with
  | nil => simp [cut]
  | cons d rest ih =>
    unfold cut
    split
    · next heq => simp [heq]
    · next hne => simp [ih, Ne.symm hne]

/-- A text with the character is cut at the first one. -/
theorem cut_eq_some_iff {c : Char} {s before after : List Char} :
    cut c s = some (before, after) ↔ s = before ++ c :: after ∧ c ∉ before := by
  constructor
  · intro h
    induction s generalizing before with
    | nil => cases h
    | cons d rest ih =>
      unfold cut at h
      split at h
      · next heq =>
        cases h
        exact ⟨heq ▸ rfl, List.not_mem_nil⟩
      · next hne =>
        obtain ⟨p, hp, hpair⟩ := Option.map_eq_some_iff.mp h
        cases hpair
        obtain ⟨rfl, hbefore⟩ := ih hp
        exact ⟨rfl, fun hmem => (List.mem_cons.mp hmem).elim (fun heq => hne heq.symm) hbefore⟩
  · rintro ⟨rfl, hbefore⟩
    exact cut_append hbefore after

end BridgeOperator.Text
