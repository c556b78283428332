import BridgeOperator.Yaml.Printer
import BridgeOperator.Yaml.Token

/-!
Where a cursor stands after a stretch of text. The readers of scalars move it in several ways; all
of them come down to going over the characters one by one (`Cursor.after`).
-/

namespace BridgeOperator.Yaml

variable {x : Char} {u v t : List Char} {n : Nat}

/-- A text on one line. -/
def Unbroken (u : List Char) : Prop := ∀ x ∈ u, isBreak x = false

instance : Decidable (Unbroken u) := List.decidableBAll _ u

theorem Unbroken.append (hu : Unbroken u) (hv : Unbroken v) : Unbroken (u ++ v) := by
  intro x hx
  rcases List.mem_append.mp hx with hx | hx
  · exact hu x hx
  · exact hv x hx

theorem Unbroken.right (h : Unbroken (u ++ v)) : Unbroken v :=
  fun x hx => h x (List.mem_append_right _ hx)

theorem unbroken_spaces (n : Nat) : Unbroken (spaces n) := by
  intro x hx
  rw [List.eq_of_mem_replicate hx]
  rfl

/-! ## Printable characters -/

/-- All characters may stand in a document without an escape. -/
def Printable (u : List Char) : Prop := ∀ x ∈ u, isPrintable x = true

instance : Decidable (Printable u) := List.decidableBAll _ u

theorem Printable.append (hu : Printable u) (hv : Printable v) : Printable (u ++ v) := by
  intro x hx
  rcases List.mem_append.mp hx with hx | hx
  · exact hu x hx
  · exact hv x hx

theorem Printable.cons (hx : isPrintable x = true) (hu : Printable u) : Printable (x :: u) :=
  List.forall_mem_cons.mpr ⟨hx, hu⟩

theorem printable_spaces (n : Nat) : Printable (spaces n) := by
  intro x hx
  rw [List.eq_of_mem_replicate hx]
  rfl

theorem printable_of_not_needsEscape {s : List Char} (h : needsEscape s = false) :
    Printable s := by
  simpa [needsEscape, Printable] using h

/-- The only blank that needs no escape is the space. -/
theorem isBlank_of_isPrintable (h : isPrintable x = true) : isBlank x = (x == ' ') := by
  have htab : x ≠ '\t' := by
    rintro rfl
    exact absurd h (by decide)
  simp [isBlank, htab]

/-- The breaks that need no escape. -/
def IsLineEnd (x : Char) : Prop := x = '\n' ∨ x = '\u2028' ∨ x = '\u2029'

theorem IsLineEnd.of_isPrintable (h : isPrintable x = true) (hx : isBreak x = true) :
    IsLineEnd x := by
  simp only [isBreak, Bool.or_eq_true, beq_iff_eq] at hx
  rcases hx with (((rfl | rfl) | rfl) | rfl) | rfl
  · exact .inl rfl
  · exact absurd h (by decide)
  · exact absurd h (by decide)
  · exact .inr (.inl rfl)
  · exact .inr (.inr rfl)

theorem IsLineEnd.isBreak (h : IsLineEnd x) : isBreak x = true := by
  rcases h with rfl | rfl | rfl <;> rfl

theorem IsLineEnd.isBlank (h : IsLineEnd x) : isBlank x = false := by
  rcases h with rfl | rfl | rfl <;> rfl

/-- The text starts with neither a blank nor a break. -/
def Solid (t : List Char) : Prop := ∀ x, t.head? = some x → isBlank x = false ∧ isBreak x = false

theorem solid_nil : Solid [] := nofun

theorem solid_cons (hblank : isBlank x = false) (hbreak : isBreak x = false) : Solid (x :: t) := by
  rintro y ⟨⟩
  exact ⟨hblank, hbreak⟩

/-- The last character is a break. -/
def EndsLine (u : List Char) : Prop := ∃ w b, u = w ++ [b] ∧ isBreak b = true

theorem EndsLine.append (u : List Char) (h : EndsLine v) : EndsLine (u ++ v) := by
  obtain ⟨w, b, rfl, hb⟩ := h
  exact ⟨u ++ w, b, (List.append_assoc ..).symm, hb⟩

theorem EndsLine.cons (x : Char) (h : EndsLine u) : EndsLine (x :: u) := h.append [x]

theorem endsLine_newline (u : List Char) : EndsLine (u ++ ['\n']) := ⟨u, '\n', rfl, rfl⟩

namespace Cursor

variable {c : Cursor}

/-- Past one character, which is no CR. -/
def next (c : Cursor) (x : Char) : Cursor :=
  if isBreak x then ⟨c.rest.drop 1, c.line + 1, 0, c.index + 1⟩ else c.advance

/-- Past a text without CR. -/
def after (c : Cursor) (u : List Char) : Cursor := u.foldl next c

@[simp] theorem after_nil : c.after [] = c := rfl

@[simp] theorem after_cons : c.after (x :: u) = (c.next x).after u := rfl

@[simp] theorem after_append : c.after (u ++ v) = (c.after u).after v := List.foldl_append

@[simp] theorem rest_next : (c.next x).rest = c.rest.drop 1 := by
  unfold next
  split <;> rfl

@[simp] theorem index_next : (c.next x).index = c.index + 1 := by
  unfold next
  split <;> rfl

theorem rest_after : (c.after u).rest = c.rest.drop u.length := by
  induction u generalizing c with
  | nil => rfl
  | cons x u ih => rw [after_cons, ih, rest_next, List.drop_drop, List.length_cons, Nat.add_comm]

/-- What follows the text that has been gone over. -/
theorem rest_after_of_eq (h : c.rest = u ++ t) : (c.after u).rest = t := by
  rw [rest_after, h, List.drop_left]

theorem index_after : (c.after u).index = c.index + u.length := by
  induction u generalizing c with
  | nil => rfl
  | cons x u ih => rw [after_cons, ih, index_next, List.length_cons]; omega

theorem line_after : (c.after u).line = c.line + u.countP isBreak := by
  induction u generalizing c with
  | nil => rfl
  | cons x u ih =>
    rw [after_cons, ih]
    by_cases hx : isBreak x = true
    · simp [next, hx]
      omega
    · simp [next, hx, advance]

theorem line_after_of_unbroken (hu : Unbroken u) : (c.after u).line = c.line := by
  rw [line_after, List.countP_eq_zero.mpr fun x hx => by simp [hu x hx]]
  rfl

theorem advance_eq_after (hx : isBreak x = false) : c.advance = c.after [x] := by
  simp [after, next, hx]

theorem advanceBy_eq_after (hu : Unbroken u) : c.advanceBy u.length = c.after u := by
  induction u generalizing c with
  | nil => rfl
  | cons x u ih =>
    have hx : isBreak x = false := hu x List.mem_cons_self
    rw [after_cons, ← ih fun y hy => hu y (List.mem_cons_of_mem _ hy)]
    simp [next, hx, advance, advanceBy, Nat.add_comm, Nat.add_left_comm]

theorem column_after_of_unbroken (hu : Unbroken u) :
    (c.after u).column = c.column + u.length := by
  rw [← advanceBy_eq_after hu]
  rfl

/-- A new line starts at the left. -/
theorem column_after_break (hx : isBreak x = true) (hu : Unbroken u) :
    (c.after (x :: u)).column = u.length := by
  rw [after_cons, column_after_of_unbroken hu]
  simp [next, hx]

/-- The next token is as far to the right as it is indented. -/
theorem column_after_endsLine (h : EndsLine u) (n : Nat) : (c.after (u ++ spaces n)).column = n := by
  obtain ⟨w, b, rfl, hb⟩ := h
  rw [List.append_assoc, after_append, List.singleton_append,
    column_after_break hb (unbroken_spaces n)]
  simp [spaces]

theorem nextLine_eq_after (h : c.rest = x :: t) (hx : IsLineEnd x) :
    c.nextLine = c.after [x] := by
  have hbreak := hx.isBreak
  unfold nextLine
  rw [h]
  split
  · next heq =>
    cases heq
    rcases hx with hx | hx | hx <;> cases hx
  · next heq =>
    cases heq
    simp [after, next, hbreak, h]
  · next heq => cases heq

/-- A break that needs no escape contributes itself. -/
theorem breakChar_eq (h : c.rest = x :: t) (hx : IsLineEnd x) : c.breakChar = x := by
  unfold breakChar
  rw [h]
  rcases hx with rfl | rfl | rfl <;> rfl

/-- Only at the left margin is there a mark. -/
theorem atDocumentMark_of_column (h : 0 < c.column) : c.atDocumentMark = false := by
  simp [atDocumentMark, atMark, Nat.ne_of_gt h]

theorem atDocumentMark_of_head (h : c.rest = x :: t) (hx : x ≠ '-' ∧ x ≠ '.') :
    c.atDocumentMark = false := by
  rcases t with _ | ⟨y, _ | ⟨z, t⟩⟩ <;> simp [atDocumentMark, atMark, h, hx]

end Cursor

end BridgeOperator.Yaml
