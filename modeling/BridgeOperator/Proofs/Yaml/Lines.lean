import BridgeOperator.Proofs.Yaml.Collections
import Mathlib.Data.List.Chain

/-!
The lines a document is laid out in. What a text holds is indented or quoted wherever it is written,
so a line starts with a letter only where a key of the outermost mapping does (`unmarked_render`);
and the document ends with a line feed unless its last text has several lines (`ends_block`).
-/

namespace BridgeOperator.Yaml

open Json (Plain)
open Scanner

variable {mark x : Char} {s u v : List Char} {indent depth m n : Nat} {j : Json}

/-! ## Lines that do not start with a letter -/

/-- No line but the first starts with the mark. -/
def Unmarked (mark : Char) : List Char → Prop := List.IsChain fun a b => a = '\n' → b ≠ mark

/-- What may start a line may follow any text. -/
theorem Unmarked.append (hu : Unmarked mark u) (hv : Unmarked mark ('\n' :: v)) :
    Unmarked mark (u ++ v) := by
  obtain ⟨hhead, hv⟩ := List.isChain_cons.mp hv
  exact List.IsChain.append hu hv fun _ _ y hy _ => hhead y hy rfl

theorem Unmarked.cons (hx : x ≠ '\n') (hv : Unmarked mark v) : Unmarked mark (x :: v) :=
  List.IsChain.cons hv fun _ _ h => absurd h hx

/-- Whatever follows on the same line does not start one. -/
theorem Unmarked.line (hu : '\n' ∉ u) (hv : Unmarked mark v) : Unmarked mark (u ++ v) := by
  induction u with
  | nil => exact hv
  | cons x u ih =>
    simp only [List.mem_cons, not_or] at hu
    exact (ih hu.2).cons fun h => hu.1 h.symm

theorem Unmarked.start (hhead : v.head? ≠ some mark) (hv : Unmarked mark v) :
    Unmarked mark ('\n' :: v) :=
  List.IsChain.cons hv fun y hy _ h => hhead (by rw [Option.mem_def.mp hy, h])

theorem head?_ne (hx : x ≠ mark) : (x :: v).head? ≠ some mark := fun h => hx (Option.some.inj h)

theorem not_mem_spaces (n : Nat) : '\n' ∉ spaces n := by
  intro h
  exact absurd (List.eq_of_mem_replicate h) (by decide)

theorem not_mem_of_unbroken (hu : Unbroken u) : '\n' ∉ u := fun h => absurd (hu _ h) (by decide)

section Letter

variable (hmark : mark.isAlpha = true)

include hmark

theorem ne_of_isAlpha (hx : x.isAlpha = false) : x ≠ mark := by
  rintro rfl
  rw [hmark] at hx
  cases hx

theorem ne_of_isBreak (hx : isBreak x = true) : x ≠ mark := by
  simp only [isBreak, Bool.or_eq_true, beq_iff_eq] at hx
  rcases hx with (((rfl | rfl) | rfl) | rfl) | rfl <;> exact ne_of_isAlpha hmark (by decide)

/-- An indented line does not start with a letter, whatever stands on it. -/
theorem Unmarked.indented (h : 0 < n ∨ v.head? ≠ some mark) (hv : Unmarked mark v) :
    Unmarked mark ('\n' :: (spaces n ++ v)) := by
  cases n with
  | zero => exact hv.start (h.resolve_left (Nat.lt_irrefl 0))
  | succ n =>
    have hspace : ' ' ≠ mark := ne_of_isAlpha hmark rfl
    exact (Unmarked.line (not_mem_spaces (n + 1)) hv).start (head?_ne hspace)

/-! ## Scalars -/

/-- The lines of a text that is written indented do not start with a letter. -/
theorem unmarked_indentLines (s : List Char) :
    Unmarked mark ('\n' :: indentLines (n + 1) true s) ∧
      Unmarked mark (indentLines (n + 1) false s) := by
  induction s with
  | nil => exact ⟨.singleton _, .nil⟩
  | cons c s ih =>
    cases hc : isBreak c with
    | true =>
      have hnext : Unmarked mark (c :: indentLines (n + 1) true s) := by
        by_cases hfeed : c = '\n'
        · rw [hfeed]
          exact ih.1
        · exact .cons hfeed (List.IsChain.tail ih.1)
      have hne : c ≠ mark := ne_of_isBreak hmark hc
      simp only [indentLines, hc, if_true]
      exact ⟨hnext.start (head?_ne hne), hnext⟩
    | false =>
      have hfeed : c ≠ '\n' := by
        rintro rfl
        cases hc
      simp only [indentLines, hc, Bool.false_eq_true, if_false, if_true, List.nil_append]
      exact ⟨.indented hmark (.inl n.succ_pos) (.cons hfeed ih.2), .cons hfeed ih.2⟩

omit hmark in
theorem not_mem_singleText (hs : '\n' ∉ s) : '\n' ∉ singleText indent s := by
  have hquotes : '\n' ∉ doubleQuotes s := by
    intro h
    obtain ⟨x, hx, h⟩ := List.mem_flatMap.mp h
    split at h
    · simp at h
    · rw [List.mem_singleton.mp h] at hs
      exact hs hx
  intro h
  simp only [singleText, List.mem_append, List.mem_cons, List.not_mem_nil, or_false] at h
  rcases h with (h | h) | h
  · rcases h with h | h
    · cases h
    · exact (mem_indentLines h).elim hquotes (by decide)
  · split at h
    · exact not_mem_spaces _ h
    · cases h
  · cases h

omit hmark in
theorem not_mem_doubleText (s : List Char) : '\n' ∉ doubleText s := by
  intro h
  simp only [doubleText, List.mem_append, List.mem_cons, List.not_mem_nil, or_false] at h
  rcases h with (h | h) | h
  · cases h
  · obtain ⟨x, -, h⟩ := List.mem_flatMap.mp h
    exact not_mem_of_unbroken (unbroken_escaped x) h
  · cases h

omit hmark in
/-- A text without line feeds is written on one line. -/
theorem exists_scalarLine (indent : Nat) (hs : '\n' ∉ s) :
    ∃ line, scalarLine indent s = line ++ ['\n'] ∧ '\n' ∉ line := by
  unfold scalarLine
  obtain ⟨hstyle, -⟩ | ⟨hstyle, -⟩ | hstyle | ⟨-, -, hnewline⟩ := styleOf_cases s
  · rw [hstyle]
    exact ⟨s, rfl, hs⟩
  · rw [hstyle]
    exact ⟨_, rfl, not_mem_singleText hs⟩
  · rw [hstyle]
    exact ⟨_, rfl, not_mem_doubleText s⟩
  · exact absurd hnewline hs

theorem unmarked_scalarLine (s : List Char) : Unmarked mark (scalarLine (m + 1) s) := by
  by_cases hs : '\n' ∈ s
  · unfold scalarLine
    obtain ⟨-, -, hplain⟩ | ⟨-, -, hnewline⟩ | hstyle | ⟨hstyle, -, -⟩ := styleOf_cases s
    · exact absurd hs (not_mem_of_unbroken (PlainText.of_allowed hplain).unbroken)
    · exact absurd hs hnewline
    · rw [hstyle]
      exact .line (not_mem_doubleText s) (.singleton _)
    · have hheader : '\n' ∉ literalHeader s := by
        rw [literalHeader_eq]
        cases hinted s <;> cases chompingOf s <;> decide
      have htext : Unmarked mark (literalHeader s ++ '\n' :: indentLines (m + 1) true s) :=
        .line hheader (unmarked_indentLines hmark s).1
      have hfeed : Unmarked mark ['\n', '\n'] :=
        .start (head?_ne (ne_of_isAlpha hmark rfl)) (.singleton _)
      rw [hstyle]
      refine .append htext ?_
      split
      · exact .singleton _
      · exact hfeed
  · obtain ⟨line, hline, hfeed⟩ := exists_scalarLine (m + 1) hs
    rw [hline]
    exact .line hfeed (.singleton _)

/-- Quotes aside, a key starts like its text. -/
theorem head?_keyText (hs : KeyLine s) (hhead : s.head? ≠ some mark) :
    (keyText s).head? ≠ some mark := by
  obtain ⟨-, -, heq⟩ | ⟨-, single, body, -, heq, -, -⟩ := hs.cases
  · rwa [heq]
  · have hquote : Scanner.quote single ≠ mark := ne_of_isAlpha hmark (by cases single <;> rfl)
    rw [heq]
    exact head?_ne hquote

/-! ## Collections -/

theorem unmarked_items (items : List Json) (h : ∀ j ∈ items, Unmarked mark (block (m + 2) j)) :
    Unmarked mark ('\n' :: block.items m false items) := by
  induction items with
  | nil => exact .singleton _
  | cons j rest ih =>
    have hdash : '-' ≠ mark := ne_of_isAlpha hmark rfl
    have hblock : Unmarked mark ('-' :: ' ' :: block (m + 2) j) :=
      .cons (by decide) (.cons (by decide) (h j List.mem_cons_self))
    exact (Unmarked.indented hmark (.inr (head?_ne hdash)) hblock).append
      (ih fun j hj => h j (List.mem_cons_of_mem _ hj))

/-- A key and its value. Only a key that is not indented could start its line with a letter. -/
theorem unmarked_field {k : String} (hkey : 0 < m ∨ k.toList.head? ≠ some mark)
    (hblock : Unmarked mark (block (m + 2) j)) (hbelow : Unmarked mark (block.afterKey m j)) :
    Unmarked mark ('\n' :: block.fields m false [(k, j)]) := by
  have hfield : block.fields m false [(k, j)] = spaces m ++
      (if isSimpleKey k then keyText k.toList ++ ':' :: block.afterKey m j
        else '?' :: ' ' :: scalarLine (m + 2) k.toList
          ++ spaces m ++ ':' :: ' ' :: block (m + 2) j) := by
    simp [block.fields]
  rw [hfield]
  split
  · next hk =>
    have hline : KeyLine k.toList := .of_isSimpleKey hk
    have hnonempty : keyText k.toList ≠ [] := hline.keyText.2.1
    have hfirst : 0 < m ∨ (keyText k.toList ++ ':' :: block.afterKey m j).head? ≠ some mark := by
      refine hkey.imp_right fun hkey => ?_
      rw [List.head?_append_of_ne_nil _ hnonempty]
      exact head?_keyText hmark hline hkey
    exact .indented hmark hfirst
      (.line (not_mem_of_unbroken hline.keyText.1) (.cons (by decide) hbelow))
  · have hquestion : '?' ≠ mark := ne_of_isAlpha hmark rfl
    have hcolon : ':' ≠ mark := ne_of_isAlpha hmark rfl
    have hvalue : Unmarked mark ('\n' :: (spaces m ++ ':' :: ' ' :: block (m + 2) j)) :=
      .indented hmark (.inr (head?_ne hcolon))
        (.cons (by decide) (.cons (by decide) hblock))
    have hscalar : Unmarked mark ('?' :: ' ' :: scalarLine (m + 2) k.toList) :=
      .cons (by decide) (.cons (by decide) (unmarked_scalarLine hmark _))
    rw [List.append_assoc]
    exact .indented hmark (.inr (head?_ne hquestion)) (hscalar.append hvalue)

theorem unmarked_fields (fields : List (String × Json))
    (hkeys : 0 < m ∨ ∀ e ∈ fields, e.1.toList.head? ≠ some mark)
    (h : ∀ e ∈ fields,
      Unmarked mark (block (m + 2) e.2) ∧ Unmarked mark (block.afterKey m e.2)) :
    Unmarked mark ('\n' :: block.fields m false fields) := by
  induction fields with
  | nil => exact .singleton _
  | cons e rest ih =>
    obtain ⟨k, j⟩ := e
    obtain ⟨hblock, hbelow⟩ := h (k, j) List.mem_cons_self
    have hsplit : block.fields m false ((k, j) :: rest) =
        block.fields m false [(k, j)] ++ block.fields m false rest := by
      simp [block.fields]
    rw [hsplit, ← List.cons_append]
    exact (unmarked_field hmark (hkeys.imp_right fun hk => hk _ List.mem_cons_self) hblock
      hbelow).append (ih (hkeys.imp_right fun hk e he => hk e (List.mem_cons_of_mem _ he))
        fun e he => h e (List.mem_cons_of_mem _ he))

/-- No line of an indented value starts with a letter. -/
theorem unmarked_block (hj : Plain depth j) :
    ∀ m, Unmarked mark (block (m + 1) j) ∧ Unmarked mark (block.afterKey m j) := by
  induction hj with
  | str s =>
    exact fun m => ⟨unmarked_scalarLine hmark _, .cons (by decide) (unmarked_scalarLine hmark _)⟩
  | nat n _ =>
    have hline : Unmarked mark ((toString (n : Int)).toList ++ ['\n']) :=
      .line (not_mem_of_unbroken (plainText_nat n).unbroken) (.singleton _)
    exact fun m => ⟨hline, .cons (by decide) hline⟩
  | arr items _ ih =>
    intro m
    cases items with
    | nil =>
      exact ⟨.line (u := ['[', ']']) (by decide) (.singleton _),
        .line (u := [' ', '[', ']']) (by decide) (.singleton _)⟩
    | cons j rest =>
      have hitems : ∀ m, Unmarked mark ('\n' :: block.items m false (j :: rest)) :=
        fun m => unmarked_items hmark _ fun j hj => (ih j hj (m + 1)).1
      have hhere : Unmarked mark (block.items (m + 1) false (j :: rest)) := (hitems (m + 1)).tail
      rw [items_again] at hhere
      exact ⟨List.IsChain.right_of_append hhere, hitems m⟩
  | obj fields _ ih =>
    intro m
    cases fields with
    | nil =>
      exact ⟨.line (u := ['\x7b', '\x7d']) (by decide) (.singleton _),
        .line (u := [' ', '\x7b', '\x7d']) (by decide) (.singleton _)⟩
    | cons e rest =>
      have hfields : ∀ m, Unmarked mark ('\n' :: block.fields (m + 1) false (e :: rest)) :=
        fun m => unmarked_fields hmark _ (.inl m.succ_pos) fun e he =>
          ⟨(ih e he (m + 2)).1, (ih e he (m + 1)).2⟩
      have hhere : Unmarked mark (block.fields (m + 1) false (e :: rest)) := (hfields m).tail
      rw [fields_again] at hhere
      exact ⟨List.IsChain.right_of_append hhere, hfields (m + 1)⟩

/-- No line of a document, the first one included, starts with a letter that no key of its outermost
mapping starts with. -/
theorem unmarked_render {fields : List (String × Json)} (hj : Plain depth (.obj fields))
    (hkeys : ∀ e ∈ fields, e.1.toList.head? ≠ some mark) (hne : fields ≠ []) :
    Unmarked mark ('\n' :: (render (.obj fields)).toList) := by
  obtain ⟨_, hplain⟩ : ∃ depth, ∀ e ∈ fields, Plain depth e.2 := by
    cases hj with
    | obj _ hplain => exact ⟨_, hplain⟩
  have hfields : Unmarked mark ('\n' :: block.fields 0 false fields) :=
    unmarked_fields hmark fields (.inr hkeys) fun e he =>
      ⟨(unmarked_block hmark (hplain e he) 1).1, (unmarked_block hmark (hplain e he) 0).2⟩
  obtain ⟨e, fields, rfl⟩ := List.exists_cons_of_ne_nil hne
  rw [render, String.toList_ofList, block]
  rwa [fields_again] at hfields

end Letter

/-! ## The last line -/

/-- The last text of a value is on one line. -/
inductive Terse : Json → Prop
  | str (s : String) : '\n' ∉ s.toList → Terse (.str s)
  | int (n : Int) : Terse (.int n)
  | arr (items : List Json) : (∀ j, items.getLast? = some j → Terse j) → Terse (.arr items)
  | obj (fields : List (String × Json)) : (∀ e, fields.getLast? = some e → Terse e.2) →
    Terse (.obj fields)

theorem terse_arr {items : List Json} (h : ∀ j ∈ items, Terse j) : Terse (.arr items) :=
  .arr items fun j hj => h j (List.mem_of_getLast? hj)

theorem terse_obj {fields : List (String × Json)} (h : ∀ e ∈ fields, Terse e.2) :
    Terse (.obj fields) :=
  .obj fields fun e he => h e (List.mem_of_getLast? he)

/-- Only the last field matters, and it is there. -/
theorem terse_objOf {fields : List (String × Option Json)} {k : String}
    (hlast : fields.getLast? = some (k, some j)) (hj : Terse j) : Terse (Json.objOf fields) := by
  obtain ⟨before, rfl⟩ := List.getLast?_eq_some_iff.mp hlast
  refine .obj _ fun e he => ?_
  simp only [List.filterMap_append, List.filterMap_cons, List.filterMap_nil, Option.map_some,
    List.getLast?_append, List.getLast?_singleton, Option.some_or, Option.some.injEq] at he
  rwa [← he]

theorem ends_items (items : List Json) (hne : items ≠ [])
    (h : ∀ j, items.getLast? = some j → ['\n'] <:+ block (m + 2) j) (started : Bool) :
    ['\n'] <:+ block.items m started items := by
  induction items generalizing started with
  | nil => exact absurd rfl hne
  | cons j rest ih =>
    rw [block.items]
    cases rest with
    | nil =>
      rw [block.items, List.append_nil]
      exact (((h j rfl).trans (List.suffix_cons _ _)).trans (List.suffix_cons _ _)).trans
        (List.suffix_append _ _)
    | cons j' rest =>
      have hlast : ∀ j, (j' :: rest).getLast? = some j → ['\n'] <:+ block (m + 2) j :=
        fun j hj => h j (by rwa [List.getLast?_cons_cons])
      exact (ih (List.cons_ne_nil _ _) hlast false).trans (List.suffix_append _ _)

theorem ends_fields (fields : List (String × Json)) (hne : fields ≠ [])
    (h : ∀ e, fields.getLast? = some e →
      ['\n'] <:+ block (m + 2) e.2 ∧ ['\n'] <:+ block.afterKey m e.2) (started : Bool) :
    ['\n'] <:+ block.fields m started fields := by
  induction fields generalizing started with
  | nil => exact absurd rfl hne
  | cons e rest ih =>
    obtain ⟨k, j⟩ := e
    rw [block.fields]
    cases rest with
    | nil =>
      obtain ⟨hblock, hbelow⟩ := h (k, j) rfl
      rw [block.fields, List.append_nil]
      refine .trans ?_ (List.suffix_append _ _)
      split
      · exact (hbelow.trans (List.suffix_cons _ _)).trans (List.suffix_append _ _)
      · exact ((hblock.trans (List.suffix_cons _ _)).trans (List.suffix_cons _ _)).trans
          (List.suffix_append _ _)
    | cons e' rest =>
      have hlast : ∀ e, (e' :: rest).getLast? = some e →
          ['\n'] <:+ block (m + 2) e.2 ∧ ['\n'] <:+ block.afterKey m e.2 :=
        fun e he => h e (by rwa [List.getLast?_cons_cons])
      exact (ih (List.cons_ne_nil _ _) hlast false).trans (List.suffix_append _ _)

/-- A value ends with a line feed unless its last text has more than one line. -/
theorem ends_block (hj : Terse j) :
    ∀ m, ['\n'] <:+ block m j ∧ ['\n'] <:+ block.afterKey m j := by
  induction hj with
  | str s hs =>
    have hline : ∀ m, ['\n'] <:+ scalarLine m s.toList := by
      intro m
      obtain ⟨line, hline, -⟩ := exists_scalarLine m hs
      rw [hline]
      exact List.suffix_append _ _
    exact fun m => ⟨hline m, (hline (m + 2)).trans (List.suffix_cons _ _)⟩
  | int n =>
    have hline : ['\n'] <:+ (toString n).toList ++ ['\n'] := List.suffix_append _ _
    exact fun m => ⟨hline, hline.trans (List.suffix_cons _ _)⟩
  | arr items _ ih =>
    intro m
    cases items with
    | nil => exact ⟨⟨['[', ']'], rfl⟩, ⟨[' ', '[', ']'], rfl⟩⟩
    | cons j rest =>
      have hitems : ∀ m started, ['\n'] <:+ block.items m started (j :: rest) :=
        fun m => ends_items _ (List.cons_ne_nil _ _) fun j hj => (ih j hj (m + 2)).1
      exact ⟨hitems m true, (hitems m false).trans (List.suffix_cons _ _)⟩
  | obj fields _ ih =>
    intro m
    cases fields with
    | nil => exact ⟨⟨['\x7b', '\x7d'], rfl⟩, ⟨[' ', '\x7b', '\x7d'], rfl⟩⟩
    | cons e rest =>
      have hfields : ∀ m started, ['\n'] <:+ block.fields m started (e :: rest) :=
        fun m => ends_fields _ (List.cons_ne_nil _ _) fun e he =>
          ⟨(ih e he (m + 2)).1, (ih e he m).2⟩
      exact ⟨hfields m true, (hfields (m + 2) false).trans (List.suffix_cons _ _)⟩

end BridgeOperator.Yaml
