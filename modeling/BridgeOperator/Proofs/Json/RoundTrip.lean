import BridgeOperator.Json.Parser
import BridgeOperator.Proofs.Json.Lexer

/-!
The compact text of a JSON value reads back as that value. This is stated for the values that the
texts of specs are made of, strings and natural numbers in lists and objects, as far as the parser
lets them be nested.
-/

namespace BridgeOperator.Json

/-- A value without nulls, truth values and fractions, nested at most so deep. -/
inductive Plain : Nat → Json → Prop
  | str {depth : Nat} (s : String) : Plain depth (.str s)
  | nat {depth : Nat} (n : Nat) : n < UInt64.size → Plain depth (.int n)
  | arr {depth : Nat} (items : List Json) : (∀ j ∈ items, Plain depth j) →
    Plain (depth + 1) (.arr items)
  | obj {depth : Nat} (fields : List (String × Json)) : (∀ e ∈ fields, Plain depth e.2) →
    Plain (depth + 1) (.obj fields)

theorem plain_strings (l : List String) (depth : Nat) : Plain (depth + 1) (ofStrings l) := by
  refine .arr _ fun j hj => ?_
  obtain ⟨s, -, rfl⟩ := List.mem_map.mp hj
  exact .str s

/-- The tokens of the text of a value. -/
def tokens : Json → List Token
  | .arr items => .openArr :: itemTokens items ++ [.closeArr]
  | .obj fields => .openObj :: fieldTokens fields ++ [.closeObj]
  | j => [.scalar j]
where
  itemTokens : List Json → List Token
    | [] => []
    | [j] => tokens j
    | j :: rest => tokens j ++ .comma :: itemTokens rest
  fieldTokens : List (String × Json) → List Token
    | [] => []
    | [(k, j)] => .scalar (.str k) :: .colon :: tokens j
    | (k, j) :: rest => .scalar (.str k) :: .colon :: tokens j ++ .comma :: fieldTokens rest

/-! ## From the text to the tokens -/

theorem delimited_nil : Delimited [] := by
  intro c hc
  cases hc

theorem delimited_cons {c : Char} {rest : List Char} (h : inNumber c = false) :
    Delimited (c :: rest) := by
  intro d hd
  cases hd
  exact h

/-- The text of a value is read as its tokens, whatever comes before and after it. -/
def Lexes (j : Json) : Prop :=
  ∀ (out : List Token) (rest : List Char), Delimited rest →
    lexAll .blank out (renderChars j ++ rest) = lexAll .blank ((tokens j).reverse ++ out) rest

theorem lexes_items (items : List Json) (h : ∀ j ∈ items, Lexes j) (out : List Token)
    (rest : List Char) :
    lexAll .blank out (renderChars.itemChars items ++ ']' :: rest) =
      lexAll .blank (.closeArr :: (tokens.itemTokens items).reverse ++ out) rest := by
  induction items generalizing out with
  | nil =>
    rw [renderChars.itemChars, List.nil_append, lexAll_cons]
    rfl
  | cons j items ih =>
    have hj := h j List.mem_cons_self
    cases items with
    | nil =>
      rw [renderChars.itemChars, hj _ _ (delimited_cons rfl), lexAll_cons]
      rfl
    | cons j' items =>
      have hmore := ih fun j hj => h j (List.mem_cons_of_mem _ hj)
      have htext : renderChars.itemChars (j :: j' :: items) =
          renderChars j ++ ',' :: renderChars.itemChars (j' :: items) := rfl
      have htokens : tokens.itemTokens (j :: j' :: items) =
          tokens j ++ .comma :: tokens.itemTokens (j' :: items) := rfl
      have hcomma : ∀ out text, lexAll .blank out (',' :: text) =
          lexAll .blank (.comma :: out) text := fun _ _ => rfl
      rw [htext, List.append_assoc, List.cons_append, hj _ _ (delimited_cons rfl), hcomma, hmore,
        htokens]
      simp

theorem lexes_fields (fields : List (String × Json)) (h : ∀ e ∈ fields, Lexes e.2)
    (out : List Token) (rest : List Char) :
    lexAll .blank out (renderChars.fieldChars fields ++ '\x7d' :: rest) =
      lexAll .blank (.closeObj :: (tokens.fieldTokens fields).reverse ++ out) rest := by
  have hcolon : ∀ out text, lexAll .blank out (':' :: text) =
      lexAll .blank (.colon :: out) text := fun _ _ => rfl
  have hclose : ∀ out text, lexAll .blank out ('\x7d' :: text) =
      lexAll .blank (.closeObj :: out) text := fun _ _ => rfl
  induction fields generalizing out with
  | nil =>
    rw [renderChars.fieldChars, List.nil_append, hclose]
    rfl
  | cons e fields ih =>
    obtain ⟨k, j⟩ := e
    have hj := h (k, j) List.mem_cons_self
    cases fields with
    | nil =>
      rw [renderChars.fieldChars, List.append_assoc, lexAll_quoteChars, List.cons_append, hcolon,
        hj _ _ (delimited_cons rfl), hclose, tokens.fieldTokens]
      simp
    | cons e' fields =>
      have hmore := ih fun e he => h e (List.mem_cons_of_mem _ he)
      have htext : renderChars.fieldChars ((k, j) :: e' :: fields) =
          quoteChars k ++ ':' :: renderChars j ++ ',' :: renderChars.fieldChars (e' :: fields) := rfl
      have htokens : tokens.fieldTokens ((k, j) :: e' :: fields) =
          .scalar (.str k) :: .colon :: tokens j ++ .comma :: tokens.fieldTokens (e' :: fields) :=
        rfl
      have hcomma : ∀ out text, lexAll .blank out (',' :: text) =
          lexAll .blank (.comma :: out) text := fun _ _ => rfl
      simp only [htext, List.append_assoc, List.cons_append]
      rw [lexAll_quoteChars, hcolon, hj _ _ (delimited_cons rfl), hcomma, hmore, htokens]
      simp

theorem Plain.lexes {depth : Nat} {j : Json} (h : Plain depth j) : Lexes j := by
  induction h with
  | str s =>
    intro out rest _
    exact lexAll_quoteChars s
  | nat n hn =>
    intro out rest hrest
    exact lexAll_nat hn hrest
  | arr items _ ih =>
    intro out rest _
    have hopen : lexAll .blank out (renderChars (.arr items) ++ rest) =
        lexAll .blank (.openArr :: out) (renderChars.itemChars items ++ ']' :: rest) := by
      simp only [renderChars, List.cons_append, List.append_assoc, List.nil_append]
      rfl
    rw [hopen, lexes_items items ih, tokens]
    simp
  | obj fields _ ih =>
    intro out rest _
    have hopen : lexAll .blank out (renderChars (.obj fields) ++ rest) =
        lexAll .blank (.openObj :: out) (renderChars.fieldChars fields ++ '\x7d' :: rest) := by
      simp only [renderChars, List.cons_append, List.append_assoc, List.nil_append]
      rfl
    rw [hopen, lexes_fields fields ih, tokens]
    simp

theorem Plain.tokens_render {depth : Nat} {j : Json} (h : Plain depth j) :
    tokens? j.render.toList = some (tokens j) := by
  have hlex := h.lexes [] [] delimited_nil
  rw [List.append_nil, List.append_nil] at hlex
  rw [tokens?, render, String.toList_ofList, hlex, lexAll, List.reverse_reverse]

/-! ## From the tokens to the value -/

/-- The tokens of a value complete it, whatever comes after them. -/
def Parses (room : Nat) (j : Json) : Prop :=
  ∀ (stack : List Frame) (rest : List Token), stack.length + room ≤ maxDepth →
    parseAll .value stack (tokens j ++ rest) =
      parseAll (complete j stack).1 (complete j stack).2 rest

theorem parseAll_cons (expect : Expect) (stack : List Frame) (t : Token) (rest : List Token) :
    parseAll expect stack (t :: rest) =
      (parseStep expect stack t).bind fun next => parseAll next.1 next.2 rest := by
  cases expect <;> rfl

/-- A list may be closed where its first item might have stood. -/
theorem parseAll_valueOrClose (j : Json) (items : List Json) (stack : List Frame)
    (rest : List Token) :
    parseAll .valueOrClose stack (tokens.itemTokens (j :: items) ++ rest) =
      parseAll .value stack (tokens.itemTokens (j :: items) ++ rest) := by
  cases items <;> cases j <;> rfl

theorem parses_items {room : Nat} {j : Json} {items : List Json}
    (h : ∀ i ∈ j :: items, Parses room i) (read : List Json) (stack : List Frame)
    (rest : List Token) (hroom : stack.length + 1 + room ≤ maxDepth) :
    parseAll .value (.arr read :: stack) (tokens.itemTokens (j :: items) ++ .closeArr :: rest) =
      parseAll (complete (.arr (read.reverse ++ j :: items)) stack).1
        (complete (.arr (read.reverse ++ j :: items)) stack).2 rest := by
  induction items generalizing j read with
  | nil =>
    rw [tokens.itemTokens, h j List.mem_cons_self _ _ (by simpa using hroom), parseAll_cons]
    simp [complete, parseStep, closeArr]
  | cons j' items ih =>
    have hmore := ih (fun i hi => h i (List.mem_cons_of_mem _ hi)) (j :: read)
    have htokens : tokens.itemTokens (j :: j' :: items) =
        tokens j ++ .comma :: tokens.itemTokens (j' :: items) := rfl
    rw [htokens, List.append_assoc, List.cons_append,
      h j List.mem_cons_self _ _ (by simpa using hroom), complete, parseAll_cons, parseStep,
      Option.bind_some, hmore, List.reverse_cons, List.append_assoc]
    rfl

theorem parses_fields {room : Nat} {e : String × Json} {fields : List (String × Json)}
    (h : ∀ f ∈ e :: fields, Parses room f.2) (read : List (String × Json)) (key : String)
    (stack : List Frame) (rest : List Token) (hroom : stack.length + 1 + room ≤ maxDepth) :
    parseAll .key (.obj read key :: stack)
        (tokens.fieldTokens (e :: fields) ++ .closeObj :: rest) =
      parseAll (complete (.obj (read.reverse ++ e :: fields)) stack).1
        (complete (.obj (read.reverse ++ e :: fields)) stack).2 rest := by
  have hfield : ∀ (k : String) (j : Json) (read : List (String × Json)) (key : String)
      (rest : List Token), Parses room j →
      parseAll .key (.obj read key :: stack) (.scalar (.str k) :: .colon :: tokens j ++ rest) =
        parseAll .separator (.obj ((k, j) :: read) k :: stack) rest := by
    intro k j read key rest hj
    rw [List.cons_append, List.cons_append, parseAll_cons, parseStep, Option.bind_some,
      parseAll_cons, parseStep, Option.bind_some, hj _ _ (by simpa using hroom), complete]
  induction fields generalizing e read key with
  | nil =>
    obtain ⟨k, j⟩ := e
    rw [tokens.fieldTokens, hfield _ _ _ _ _ (h (k, j) List.mem_cons_self), parseAll_cons]
    simp [parseStep, closeObj]
  | cons e' fields ih =>
    obtain ⟨k, j⟩ := e
    have hmore := ih (fun f hf => h f (List.mem_cons_of_mem _ hf)) ((k, j) :: read) k
    have htokens : tokens.fieldTokens ((k, j) :: e' :: fields) ++ .closeObj :: rest =
        .scalar (.str k) :: .colon :: tokens j ++
          .comma :: (tokens.fieldTokens (e' :: fields) ++ .closeObj :: rest) := by
      simp [tokens.fieldTokens]
    rw [htokens, hfield _ _ _ _ _ (h (k, j) List.mem_cons_self), parseAll_cons, parseStep,
      Option.bind_some, hmore, List.reverse_cons, List.append_assoc]
    rfl

/-- An object may be closed where its first key might have stood. -/
theorem parseAll_keyOrClose (e : String × Json) (fields : List (String × Json))
    (stack : List Frame) (rest : List Token) :
    parseAll .keyOrClose stack (tokens.fieldTokens (e :: fields) ++ rest) =
      parseAll .key stack (tokens.fieldTokens (e :: fields) ++ rest) := by
  obtain ⟨k, j⟩ := e
  cases fields <;> rfl

theorem Plain.parses {depth : Nat} {j : Json} (h : Plain depth j) : Parses depth j := by
  induction h with
  | str s =>
    intro stack rest _
    rfl
  | nat n hn =>
    intro stack rest _
    rfl
  | @arr depth items _ ih =>
    intro stack rest hroom
    have hopen : stack.length < maxDepth := by omega
    rw [tokens, List.cons_append, List.cons_append, parseAll_cons, parseStep, beginValue,
      if_pos hopen, Option.bind_some, List.append_assoc, List.singleton_append]
    cases items with
    | nil => rfl
    | cons j items =>
      rw [parseAll_valueOrClose, parses_items ih [] stack rest (by omega)]
      rfl
  | @obj depth fields _ ih =>
    intro stack rest hroom
    have hopen : stack.length < maxDepth := by omega
    rw [tokens, List.cons_append, List.cons_append, parseAll_cons, parseStep, beginValue,
      if_pos hopen, Option.bind_some, List.append_assoc, List.singleton_append]
    cases fields with
    | nil => rfl
    | cons e fields =>
      rw [parseAll_keyOrClose, parses_fields ih [] "" stack rest (by omega)]
      rfl

/-- A plain value reads back from its text. -/
theorem Plain.parse_render {j : Json} (h : Plain maxDepth j) : parse? j.render = some j := by
  have hparse := h.parses [] [] (by simp)
  rw [List.append_nil] at hparse
  rw [parse?, h.tokens_render, Option.bind_some, hparse]
  rfl

end BridgeOperator.Json
