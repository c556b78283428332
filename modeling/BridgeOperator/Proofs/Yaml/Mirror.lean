import BridgeOperator.Proofs.Readable
import BridgeOperator.Proofs.Yaml.Tree

/-!
The tree of a document mirrors the value it was written from: no string is taken for a number or
for nothing, and a number is read as itself.
-/

namespace BridgeOperator.Yaml

open Readable

/-! ## Numbers -/

theorem digit_eq {x : Char} (h : x.isDigit = true) : digit? 10 x = some (x.toNat - '0'.toNat) := by
  simp only [Char.isDigit, Bool.and_eq_true, decide_eq_true_eq] at h
  have hlow : 48 ≤ x.toNat := h.1
  have hhigh : x.toNat ≤ 57 := h.2
  have hrange : '0' ≤ x ∧ x ≤ '9' := h
  simp only [digit?, if_pos hrange, Option.filter_some]
  rw [if_pos]
  simp only [Char.reduceToNat, decide_eq_true_eq]
  omega

theorem foldlM_digits (ds : List Char) (h : ∀ x ∈ ds, x.isDigit = true) (n : Nat) :
    ds.foldlM (fun n c => (digit? 10 c).map (10 * n + ·)) n = some (Nat.ofDigitChars 10 ds n) := by
  induction ds generalizing n with
  | nil => rfl
  | cons x ds ih =>
    rw [List.foldlM_cons, digit_eq (h x List.mem_cons_self), Nat.ofDigitChars_cons]
    exact ih (fun y hy => h y (List.mem_cons_of_mem _ hy)) _

/-- Digits are read as the number they write. -/
theorem natural_digits (n : Nat) : Yaml.natural? (Nat.toDigits 10 n) = some n := by
  have hdigits := Json.digits_isDigit (n := n)
  have hzero := Json.leadingZero_digits n
  have hvalue : inRadix? 10 (Nat.toDigits 10 n) = some n := by
    rw [inRadix?, foldlM_digits _ hdigits, Nat.ofDigitChars_ten_toDigits]
    simp [Nat.toDigits_ne_nil]
  have hnot : ∀ {x : Char}, x.isDigit = false → x ∉ Nat.toDigits 10 n := by
    intro x hx hmem
    rw [hdigits x hmem] at hx
    cases hx
  have hplus := hnot (x := '+') rfl
  have hminus := hnot (x := '-') rfl
  generalize Nat.toDigits 10 n = ds at *
  have hleading : hasLeadingZero ds = false := by
    unfold hasLeadingZero
    split
    · exact absurd List.mem_cons_self hminus
    · exact absurd List.mem_cons_self hplus
    · dsimp only
      split
      · simp at hzero
      · rfl
  unfold natural?
  split
  · exact absurd List.mem_cons_self hplus
  · dsimp only
    rw [hleading]
    split
    · exact absurd (by simp) (hnot (x := 'x') rfl)
    · exact absurd (by simp) (hnot (x := 'o') rfl)
    · exact absurd (by simp) (hnot (x := 'b') rfl)
    · exact hvalue

/-! ## Values -/

theorem text_toString (n : Nat) : Yaml.natural? (toString (n : Int)).toList = some n := by
  rw [Json.toList_toString, natural_digits]

/-- What is written plain stands for a string. -/
theorem not_absent_plain {s : String} (h : isAmbiguous s.toList = false) :
    (s.isEmpty || isNull s.toList) = false := by
  simp only [isAmbiguous, Bool.or_eq_false_iff] at h
  obtain ⟨⟨⟨⟨⟨hempty, hnull⟩, -⟩, -⟩, -⟩, -⟩ := h
  rw [hnull, Bool.or_false, ← Bool.not_eq_true, String.isEmpty_iff]
  rintro rfl
  cases hempty

/-- A number stands for something. -/
theorem not_absent_natural {s : String} {n : Nat} (h : Yaml.natural? s.toList = some n) :
    (s.isEmpty || isNull s.toList) = false := by
  rw [← Bool.not_eq_true, Bool.or_eq_true, String.isEmpty_iff]
  rintro (rfl | hnull)
  · cases h
  · simp only [isNull, Bool.or_eq_true, beq_iff_eq] at hnull
    rcases hnull with ((hnull | hnull) | hnull) | hnull <;> rw [hnull] at h <;> cases h

theorem ofItems_eq (l : List Json) : Node.ofJson.ofItems l = l.map Node.ofJson := by
  induction l with
  | nil => rfl
  | cons j l ih => rw [Node.ofJson.ofItems, ih]; rfl

/-- Keys are found again by their text. -/
theorem textKeys_ofFields (l : List (String × Json)) :
    Node.textKeys? (Node.ofJson.ofFields l) = some (l.map fun e => (e.1, Node.ofJson e.2)) := by
  induction l with
  | nil => rfl
  | cons e l ih =>
    unfold Node.textKeys? at ih ⊢
    rw [Node.ofJson.ofFields, List.mapM_cons, ih]
    rfl

/-- The tree of a YAML document mirrors the value it was written from. -/
theorem mirrors_node : Mirrors Node.ofJson where
  text _ := rfl
  natural n hn := by
    change ((Yaml.natural? (toString (n : Int)).toList).filter (· < UInt64.size)) = some n
    rw [text_toString]
    simp [hn]
  absent {j depth} h := by
    cases h with
    | str s =>
      by_cases hstyle : styleOf s.toList = .plain
      · obtain ⟨-, hclear, -⟩ | ⟨h, -, -⟩ | h | ⟨h, -, -⟩ := Scanner.styleOf_cases s.toList
        · have hsome := not_absent_plain hclear
          simp [Node.ofJson, absent?, hstyle, hsome]
        all_goals
          rw [hstyle] at h
          cases h
      · simp [Node.ofJson, absent?, hstyle]
    | nat n _ =>
      change some ((toString (n : Int)).isEmpty || isNull (toString (n : Int)).toList) = some false
      rw [not_absent_natural (text_toString n)]
    | arr items _ => rfl
    | obj fields _ => rfl
  items l := congrArg some (ofItems_eq l)
  entries l := textKeys_ofFields l
  record names l := by
    change (Node.textKeys? (Node.ofJson.ofFields l)).bind (pick names) = _
    rw [textKeys_ofFields]
    rfl
  variant _ := rfl

end BridgeOperator.Yaml
