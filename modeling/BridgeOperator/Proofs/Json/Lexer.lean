import BridgeOperator.Json.Lexer
import BridgeOperator.Json.Printer
import Mathlib.Data.List.TakeWhile

/-!
Reading back single tokens: a string between its quotes and the digits of an integer. What follows
a token is left to be read from a blank state.
-/

namespace BridgeOperator.Json

/-! ## Integers -/

theorem le_ofDigitChars (ds : List Char) (n : Nat) : n ≤ Nat.ofDigitChars 10 ds n := by
  induction ds generalizing n with
  | nil => simp
  | cons c ds ih =>
    rw [Nat.ofDigitChars_cons]
    have hle := ih (10 * n + (c.toNat - '0'.toNat))
    omega

/-- No digit is left over as long as the value fits 64 bits. -/
theorem capDigits_eq (ds : List Char) (n : Nat) (h : Nat.ofDigitChars 10 ds n < UInt64.size) :
    capDigits n ds = (Nat.ofDigitChars 10 ds n, 0) := by
  induction ds generalizing n with
  | nil => simp [capDigits]
  | cons c ds ih =>
    rw [Nat.ofDigitChars_cons] at h ⊢
    have hnext := le_ofDigitChars ds (10 * n + (c.toNat - '0'.toNat))
    unfold capDigits
    rw [if_pos (by omega)]
    exact ih _ h

/-- Only zero is written with a leading zero. -/
theorem head_toDigits_ne_zero {n : Nat} (h : 0 < n) : (Nat.toDigits 10 n).head? ≠ some '0' := by
  induction n using Nat.strongRecOn with
  | ind n ih =>
    rw [Nat.toDigits_eq_if (by decide)]
    split
    · next hlt =>
      intro hc
      have hval := Nat.toNat_digitChar_sub_48_of_lt_ten hlt
      rw [List.head?_cons, Option.some.injEq] at hc
      rw [hc] at hval
      change 0 = n at hval
      omega
    · next hge =>
      have hhead := ih (n / 10) (by omega) (by omega)
      cases hd : Nat.toDigits 10 (n / 10) with
      | nil => exact absurd hd Nat.toDigits_ne_nil
      | cons c ds =>
        rw [hd] at hhead
        exact hhead

theorem digits_isDigit {n : Nat} : ∀ c ∈ Nat.toDigits 10 n, c.isDigit = true :=
  fun _ hc => Nat.isDigit_of_mem_toDigits (by decide) (by decide) hc

theorem toList_toString (n : Nat) : (toString (n : Int)).toList = Nat.toDigits 10 n := by
  rw [Int.toString_eq_repr, Int.repr_eq_if, if_pos (Int.natCast_nonneg n), Int.toNat_natCast,
    Nat.toList_repr]

theorem takeWhile_digits (n : Nat) :
    (Nat.toDigits 10 n).takeWhile Char.isDigit = Nat.toDigits 10 n :=
  List.takeWhile_eq_self_iff.mpr digits_isDigit

theorem dropWhile_digits (n : Nat) : (Nat.toDigits 10 n).dropWhile Char.isDigit = [] :=
  List.dropWhile_eq_nil_iff.mpr digits_isDigit

theorem leadingZero_digits (n : Nat) :
    (decide ((Nat.toDigits 10 n).length > 1) && (Nat.toDigits 10 n).head? == some '0') = false := by
  rcases Nat.eq_zero_or_pos n with rfl | hn
  · simp
  · simp [head_toDigits_ne_zero hn]

theorem capDigits_digits {n : Nat} (h : n < UInt64.size) :
    capDigits 0 (Nat.toDigits 10 n) = (n, 0) := by
  have hval : Nat.ofDigitChars 10 (Nat.toDigits 10 n) 0 = n := Nat.ofDigitChars_ten_toDigits
  rw [capDigits_eq _ _ (by rw [hval]; exact h), hval]

/-- Digits that stand alone are the number they write. -/
theorem number_ofNat {n : Nat} (h : n < UInt64.size) :
    number? (Nat.toDigits 10 n) = some (.int n) := by
  have hempty : (Nat.toDigits 10 n).isEmpty = false := by simp [Nat.toDigits_ne_nil]
  have htake := takeWhile_digits n
  have hdrop := dropWhile_digits n
  have hzero := leadingZero_digits n
  have hcap := capDigits_digits h
  have hdigit := digits_isDigit (n := n)
  cases hd : Nat.toDigits 10 n with
  | nil => exact absurd hd Nat.toDigits_ne_nil
  | cons c ds =>
    rw [hd] at hempty htake hdrop hzero hcap hdigit
    have hc : c ≠ '-' := by
      rintro rfl
      cases hdigit '-' List.mem_cons_self
    unfold number?
    simp only [List.cons.injEq, hc, false_and, imp_false, not_false_eq_true, implies_true, htake,
      hdrop, hzero, hcap, hempty]
    rfl

/-! ## Tokens before a text that is still to be read -/

variable {out : List Token} {rest : List Char}

theorem lexAll_cons (state : Lexing) (out : List Token) (c : Char) (rest : List Char) :
    lexAll state out (c :: rest) =
      (lexStep state out c).bind fun next => lexAll next.1 next.2 rest := by
  cases state <;> rfl

theorem hexValue_hexDigit : ∀ n < 16, hexValue? (hexDigit n) = some n := by decide

theorem finishHex_of_lt {n : Nat} (h : n < 0xD800) (letters : List Char) :
    finishHex letters n none = some (.text (Char.ofNat n :: letters)) := by
  unfold finishHex
  rw [if_neg (by omega), if_neg (by omega)]

/-- An escaped character is read back inside a string. -/
theorem lexAll_escape (letters : List Char) (c : Char) :
    lexAll (.text letters) out (escape c ++ rest) = lexAll (.text (c :: letters)) out rest := by
  unfold escape
  split
  · next h => subst h; rfl
  split
  · next h => subst h; rfl
  split
  · next h => subst h; rfl
  split
  · next h => subst h; rfl
  split
  · next h => subst h; rfl
  split
  · next h => subst h; rfl
  split
  · next h => subst h; rfl
  split
  · next h =>
    have hhigh := hexValue_hexDigit (c.toNat / 16) (by omega)
    have hlow := hexValue_hexDigit (c.toNat % 16) (by omega)
    have hcode : 16 * (c.toNat / 16) + c.toNat % 16 = c.toNat := by omega
    have hfinish := finishHex_of_lt (n := c.toNat) (by omega) letters
    rw [Char.ofNat_toNat] at hfinish
    have hzero : hexValue? '0' = some 0 := rfl
    simp [lexAll_cons, lexStep, hhigh, hlow, hzero, hcode, hfinish]
  · next hquote hslash _ _ _ _ _ hcontrol =>
    simp [lexAll_cons, lexStep, hquote, hslash, hcontrol]

theorem lexAll_string (letters cs : List Char) :
    lexAll (.text letters) out (cs.flatMap escape ++ '"' :: rest) =
      lexAll .blank (.scalar (.str (String.ofList (letters.reverse ++ cs))) :: out) rest := by
  induction cs generalizing letters with
  | nil =>
    rw [List.append_nil, List.flatMap_nil, List.nil_append, lexAll_cons]
    rfl
  | cons c cs ih =>
    rw [List.flatMap_cons, List.append_assoc, lexAll_escape, ih, List.reverse_cons,
      List.append_assoc]
    rfl

theorem lexAll_quoteChars (s : String) :
    lexAll .blank out (quoteChars s ++ rest) = lexAll .blank (.scalar (.str s) :: out) rest := by
  have htext : lexAll .blank out (quoteChars s ++ rest) =
      lexAll (.text []) out (s.toList.flatMap escape ++ '"' :: rest) := by
    simp only [quoteChars, List.cons_append, List.append_assoc, List.nil_append, lexAll_cons]
    rfl
  rw [htext, lexAll_string, List.reverse_nil, List.nil_append, String.ofList_toList]

/-- The digits of a number are gathered, newest first. -/
theorem lexAll_digits (letters ds : List Char) (h : ∀ c ∈ ds, c.isDigit = true) :
    lexAll (.number letters) out (ds ++ rest) =
      lexAll (.number (ds.reverse ++ letters)) out rest := by
  induction ds generalizing letters with
  | nil => rfl
  | cons c ds ih =>
    have hc : inNumber c = true := by simp [inNumber, h c List.mem_cons_self]
    rw [List.cons_append, lexAll_cons, lexStep, if_pos hc, Option.bind_some,
      ih _ fun d hd => h d (List.mem_cons_of_mem _ hd), List.reverse_cons, List.append_assoc]
    rfl

/-- What ends a token: the text does, or a character that is no part of a number. -/
def Delimited (rest : List Char) : Prop := ∀ c, rest.head? = some c → inNumber c = false

theorem lexAll_endNumber {letters : List Char} {j : Json} (hj : number? letters.reverse = some j)
    (hrest : Delimited rest) :
    lexAll (.number letters) out rest = lexAll .blank (.scalar j :: out) rest := by
  cases rest with
  | nil => simp [lexAll, hj]
  | cons c rest =>
    have hc := hrest c rfl
    simp [lexAll_cons, lexStep, hc, hj]

theorem startToken_digit {c : Char} (h : c.isDigit = true) :
    startToken c out = some (.number [c], out) := by
  have hne : ∀ d : Char, d.isDigit = false → c ≠ d := by
    rintro d hd rfl
    rw [h] at hd
    cases hd
  simp [startToken, hne ' ' rfl, hne '\t' rfl, hne '\n' rfl, hne '\r' rfl, hne '\x7b' rfl,
    hne '\x7d' rfl, hne '[' rfl, hne ']' rfl, hne ',' rfl, hne ':' rfl, hne '"' rfl, h]

theorem lexAll_nat {n : Nat} (hn : n < UInt64.size) (hrest : Delimited rest) :
    lexAll .blank out ((toString (n : Int)).toList ++ rest) =
      lexAll .blank (.scalar (.int n) :: out) rest := by
  rw [toList_toString]
  cases hd : Nat.toDigits 10 n with
  | nil => exact absurd hd Nat.toDigits_ne_nil
  | cons c ds =>
    have hdigit := digits_isDigit (n := n)
    rw [hd] at hdigit
    have hstart : lexAll .blank out (c :: ds ++ rest) = lexAll (.number [c]) out (ds ++ rest) := by
      rw [List.cons_append, lexAll_cons, lexStep, startToken_digit (hdigit c List.mem_cons_self)]
      rfl
    rw [hstart, lexAll_digits _ _ fun d hd => hdigit d (List.mem_cons_of_mem _ hd)]
    refine lexAll_endNumber ?_ hrest
    rw [List.reverse_append, List.reverse_reverse, List.reverse_singleton]
    change number? (c :: ds) = _
    rw [← hd]
    exact number_ofNat hn

end BridgeOperator.Json
