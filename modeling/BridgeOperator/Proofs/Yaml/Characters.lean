import BridgeOperator.Proofs.Yaml.Collections

/-!
What is written holds nothing that may not stand in a document: characters that need an escape are
only written as one.
-/

namespace BridgeOperator.Yaml

open Scanner

variable {s t u v : List Char} {indent depth : Nat} {j : Json} {x : Char}

theorem isAllowed_of_isPrintable (h : isPrintable x = true) : isAllowed x = true := by
  simp only [isPrintable, isAllowed, Bool.or_eq_true, Bool.and_eq_true, decide_eq_true_eq] at h ⊢
  omega

theorem Printable.indentLines {first : Bool} (hs : Printable s) :
    Printable (indentLines indent first s) := by
  intro x hx
  rcases mem_indentLines hx with hx | rfl
  · exact hs x hx
  · rfl

theorem Printable.doubleQuotes (hs : Printable s) : Printable (doubleQuotes s) := by
  intro x hx
  obtain ⟨y, hy, hx⟩ := List.mem_flatMap.mp hx
  split at hx
  · simp only [List.mem_cons, List.not_mem_nil, or_false, or_self] at hx
    rw [hx]
    rfl
  · rw [List.mem_singleton.mp hx]
    exact hs y hy

theorem printable_singleText (indent : Nat) (hs : Printable s) : Printable (singleText indent s) := by
  refine .append (.append (.cons rfl hs.doubleQuotes.indentLines) ?_) (by decide)
  split
  · exact printable_spaces indent
  · exact nofun

theorem printable_doubleText (s : List Char) : Printable (doubleText s) := by
  refine .append (.cons rfl fun x hx => ?_) (by decide)
  obtain ⟨y, -, hx⟩ := List.mem_flatMap.mp hx
  exact printable_escaped y x hx

theorem printable_literalHeader (s : List Char) : Printable (literalHeader s) := by
  rw [literalHeader_eq]
  refine .cons rfl (.append ?_ ?_)
  · split <;> decide
  · cases chompingOf s <;> decide

theorem printable_scalarLine (indent : Nat) (s : List Char) : Printable (scalarLine indent s) := by
  unfold scalarLine
  obtain ⟨hstyle, -, hs⟩ | ⟨hstyle, hs, hnewline⟩ | hstyle | ⟨hstyle, hs, -⟩ := styleOf_cases s <;>
    rw [hstyle]
  · exact .append (PlainText.of_allowed hs).printable (by decide)
  · exact .append (printable_singleText indent (SingleQuotable.of_allowed hs hnewline).printable)
      (by decide)
  · exact .append (printable_doubleText s) (by decide)
  · simp only [literalAllowed, Bool.and_eq_true, Bool.not_eq_true'] at hs
    have hprintable : Printable s := printable_of_not_needsEscape hs.2
    refine .append (.append (printable_literalHeader s) (.cons rfl hprintable.indentLines)) ?_
    split <;> decide

theorem printable_keyText (hs : KeyLine s) : Printable (keyText s) := by
  unfold keyText
  obtain ⟨hstyle, -, hs'⟩ | ⟨hstyle, hs', hnewline⟩ | hstyle | ⟨hstyle, -, hnewline⟩ :=
    styleOf_cases s <;> rw [hstyle]
  · exact (PlainText.of_allowed hs').printable
  · exact printable_singleText 0 (SingleQuotable.of_allowed hs' hnewline).printable
  · exact printable_doubleText s
  · exact absurd (hs.unbroken '\n' hnewline) (by decide)

theorem printable_items {m : Nat} (items : List Json)
    (h : ∀ j ∈ items, Printable (block (m + 2) j)) (started : Bool) :
    Printable (block.items m started items) := by
  induction items generalizing started with
  | nil => exact nofun
  | cons j rest ih =>
    refine .append (.append ?_ (.cons rfl (.cons rfl (h j List.mem_cons_self))))
      (ih (fun j hj => h j (List.mem_cons_of_mem _ hj)) false)
    split
    · exact nofun
    · exact printable_spaces m

theorem printable_fields {m : Nat} (fields : List (String × Json))
    (h : ∀ e ∈ fields, Printable (block (m + 2) e.2) ∧ Printable (block.afterKey m e.2))
    (started : Bool) : Printable (block.fields m started fields) := by
  induction fields generalizing started with
  | nil => exact nofun
  | cons e rest ih =>
    obtain ⟨k, j⟩ := e
    obtain ⟨hblock, hbelow⟩ := h (k, j) List.mem_cons_self
    refine .append (.append ?_ ?_) (ih (fun e he => h e (List.mem_cons_of_mem _ he)) false)
    · split
      · exact nofun
      · exact printable_spaces m
    · split
      · next hk =>
        exact .append (printable_keyText (.of_isSimpleKey hk)) (.cons rfl hbelow)
      · exact .append (.append (.cons rfl (.cons rfl (printable_scalarLine _ _))) (printable_spaces m))
          (.cons rfl (.cons rfl hblock))

theorem printable_block (hj : Json.Plain depth j) :
    ∀ m, Printable (block m j) ∧ Printable (block.afterKey m j) := by
  induction hj with
  | str s =>
    exact fun m => ⟨printable_scalarLine m s.toList, .cons rfl (printable_scalarLine _ s.toList)⟩
  | nat n hn =>
    have hline : Printable ((toString (n : Int)).toList ++ ['\n']) :=
      .append (plainText_nat n).printable (by decide)
    exact fun m => ⟨hline, .cons rfl hline⟩
  | arr items _ ih =>
    intro m
    cases items with
    | nil =>
      exact ⟨show Printable ['[', ']', '\n'] by decide, show Printable [' ', '[', ']', '\n'] by decide⟩
    | cons j rest =>
      exact ⟨printable_items _ (fun j hj => (ih j hj _).1) true,
        .cons rfl (printable_items _ (fun j hj => (ih j hj _).1) false)⟩
  | obj fields _ ih =>
    intro m
    cases fields with
    | nil =>
      exact ⟨show Printable ['\x7b', '\x7d', '\n'] by decide,
        show Printable [' ', '\x7b', '\x7d', '\n'] by decide⟩
    | cons e rest =>
      exact ⟨printable_fields _ (fun e he => ⟨(ih e he _).1, (ih e he _).2⟩) true,
        .cons rfl (printable_fields _ (fun e he => ⟨(ih e he _).1, (ih e he _).2⟩) false)⟩

/-- A document that is a mapping with fields is read as the tokens of that mapping. -/
theorem tokens_block (fields : List (String × Json)) (hplain : ∀ e ∈ fields, Json.Plain depth e.2)
    (hne : fields ≠ []) :
    tokens? (block 0 (.obj fields)) = some (valueTokens false (.obj fields)) := by
  have hallowed : (block 0 (.obj fields)).all isAllowed = true := by
    rw [List.all_eq_true]
    exact fun x hx => isAllowed_of_isPrintable ((printable_block (.obj fields hplain) 0).1 x hx)
  rw [tokens?, if_pos hallowed, run_block fields hplain hne]

end BridgeOperator.Yaml
