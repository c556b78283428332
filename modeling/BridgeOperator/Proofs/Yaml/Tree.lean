import BridgeOperator.Proofs.Yaml.Characters
import BridgeOperator.Yaml.Node

/-!
The tokens of a value are read as the tree of that value, so a document that was written from a
value is parsed as its tree.
-/

namespace BridgeOperator.Yaml

/-- The tree of a value: keys and strings are scalars in the style they are written in. -/
def Node.ofJson : Json → Node
  | .str s => .scalar none (styleOf s.toList = .plain) s
  | .int n => .scalar none true (toString n)
  | .arr items => .seq (ofItems items)
  | .obj fields => .map (ofFields fields)
  | _ => .missing
where
  ofItems : List Json → List Node
    | [] => []
    | j :: rest => ofJson j :: ofItems rest
  ofFields : List (String × Json) → List (Node × Node)
    | [] => []
    | (k, j) :: rest => (.scalar none (styleOf k.toList = .plain) k, ofJson j) :: ofFields rest

variable {depth fuel : Nat} {j : Json} {p : Position} {ts rest : List Token}
  {named : List (String × Node)} {handles : List (String × String)} {indentless : Bool}

/-- What a node without anchor and tag starts with. -/
def startsNode : Token → Bool
  | .scalar .. | .flowSequenceStart | .flowMappingStart | .sequenceStart | .mappingStart
  | .entry => true
  | _ => false

/-- Without properties a node is its content. -/
theorem readNode_eq {t : Token} (ht : startsNode t = true) :
    readNode p (fuel + 1) ⟨t :: ts, named, handles⟩ =
      readContent p fuel none false ⟨t :: ts, named, handles⟩ := by
  have hname : ∀ r : Option (Node × Source),
      (r.bind fun x => some (x.1, x.2.name none x.1)) = r := by
    intro r
    cases r <;> rfl
  cases t <;> first | exact hname _ | cases ht

theorem readUnless_eq {t : Token} {stops : List Token} (ht : t ∉ stops) :
    readUnless stops p (fuel + 1) ⟨t :: ts, named, handles⟩ =
      readNode p fuel ⟨t :: ts, named, handles⟩ := by
  simp [readUnless, Source.next?, ht]

/-- The first token of a value. -/
theorem exists_first (indentless : Bool) (hj : Json.Plain depth j) :
    ∃ t ts, valueTokens indentless j = t :: ts ∧ startsNode t = true ∧
      (indentless = false → t ≠ .entry) := by
  cases hj with
  | str s => exact ⟨_, _, rfl, rfl, nofun⟩
  | nat n _ => exact ⟨_, _, rfl, rfl, nofun⟩
  | arr items _ =>
    cases items with
    | nil => exact ⟨_, _, rfl, rfl, nofun⟩
    | cons j rest =>
      cases indentless with
      | true => exact ⟨_, _, rfl, rfl, nofun⟩
      | false => exact ⟨_, _, rfl, rfl, nofun⟩
  | obj fields _ =>
    cases fields with
    | nil => exact ⟨_, _, rfl, rfl, nofun⟩
    | cons e rest => exact ⟨_, _, rfl, rfl, nofun⟩

/-- The tokens of a value are read as its tree, with four units of fuel for each of them. -/
def ReadsNode (indentless : Bool) (j : Json) : Prop :=
  ∀ {p : Position} {fuel : Nat} {rest : List Token} {named : List (String × Node)}
    {handles : List (String × String)}, p.isBlock = true →
    (indentless = true → p = .inMapping ∧ rest.head? ≠ some .entry) →
    4 * (valueTokens indentless j).length ≤ fuel →
    readNode p fuel ⟨valueTokens indentless j ++ rest, named, handles⟩ =
      some (.ofJson j, ⟨rest, named, handles⟩)

theorem reads_unless {stops : List Token} (hj : Json.Plain depth j)
    (hreads : ReadsNode indentless j) (hp : p.isBlock = true)
    (hstops : ∀ t ∈ stops, startsNode t = false ∨ t = .entry ∧ indentless = false)
    (hindentless : indentless = true → p = .inMapping ∧ rest.head? ≠ some .entry)
    (hfuel : 4 * (valueTokens indentless j).length < fuel) :
    readUnless stops p fuel ⟨valueTokens indentless j ++ rest, named, handles⟩ =
      some (.ofJson j, ⟨rest, named, handles⟩) := by
  obtain ⟨fuel, rfl⟩ := Nat.exists_eq_add_one.mpr (Nat.zero_lt_of_lt hfuel)
  obtain ⟨t, ts, hts, hstarts, hentry⟩ := exists_first indentless hj
  have hnot : t ∉ stops := by
    intro hmem
    rcases hstops t hmem with h | ⟨h, hfalse⟩
    · rw [hstarts] at h
      cases h
    · exact hentry hfalse h
  have hread : readNode p fuel ⟨valueTokens indentless j ++ rest, named, handles⟩ =
      some (.ofJson j, ⟨rest, named, handles⟩) :=
    hreads hp hindentless (by omega)
  rw [hts] at hread ⊢
  rw [List.cons_append, readUnless_eq hnot]
  exact hread

theorem reads_items (items : List Json) (hplain : ∀ j ∈ items, Json.Plain depth j)
    (hreads : ∀ j ∈ items, ReadsNode false j)
    (hfuel : 4 * (valueTokens.itemTokens items).length < fuel) :
    readItems fuel ⟨valueTokens.itemTokens items ++ .blockEnd :: rest, named, handles⟩ =
      some (Node.ofJson.ofItems items, ⟨rest, named, handles⟩) := by
  induction items generalizing fuel with
  | nil =>
    obtain ⟨fuel, rfl⟩ := Nat.exists_eq_add_one.mpr (Nat.zero_lt_of_lt hfuel)
    rfl
  | cons j more ih =>
    obtain ⟨fuel, rfl⟩ := Nat.exists_eq_add_one.mpr (Nat.zero_lt_of_lt hfuel)
    simp only [valueTokens.itemTokens, List.length_append, List.length_cons] at hfuel
    rw [valueTokens.itemTokens, List.cons_append, List.cons_append, List.append_assoc, readItems]
    generalize valueTokens.itemTokens more ++ .blockEnd :: rest = below at ih ⊢
    have hitem : readUnless [.entry, .blockEnd] .item fuel
        ⟨valueTokens false j ++ below, named, handles⟩ =
          some (.ofJson j, ⟨below, named, handles⟩) :=
      reads_unless (hplain j List.mem_cons_self) (hreads j List.mem_cons_self) rfl
        (by simp [startsNode]) (fun h => absurd h Bool.false_ne_true) (by omega)
    have hmore : readItems fuel ⟨below, named, handles⟩ =
        some (Node.ofJson.ofItems more, ⟨rest, named, handles⟩) :=
      ih (fun j hj => hplain j (List.mem_cons_of_mem _ hj))
        (fun j hj => hreads j (List.mem_cons_of_mem _ hj)) (by omega)
    simp only [Source.drop, List.drop_one, List.tail_cons, hitem, hmore, bind, Option.bind_some]
    rfl

theorem reads_indentless (items : List Json) (hplain : ∀ j ∈ items, Json.Plain depth j)
    (hreads : ∀ j ∈ items, ReadsNode false j) (hrest : rest.head? ≠ some .entry) (hpos : 0 < fuel)
    (hfuel : 4 * (valueTokens.itemTokens items).length ≤ fuel + 2) :
    readIndentless fuel ⟨valueTokens.itemTokens items ++ rest, named, handles⟩ =
      some (Node.ofJson.ofItems items, ⟨rest, named, handles⟩) := by
  obtain ⟨fuel, rfl⟩ := Nat.exists_eq_add_one.mpr hpos
  induction items generalizing fuel with
  | nil =>
    rw [valueTokens.itemTokens, List.nil_append, readIndentless]
    cases rest with
    | nil => rfl
    | cons t ts => cases t <;> first | rfl | exact absurd rfl hrest
  | cons j more ih =>
    obtain ⟨t, ts, hts, -, -⟩ := exists_first false (hplain j List.mem_cons_self)
    have hlength : 0 < (valueTokens false j).length := by simp [hts]
    simp only [valueTokens.itemTokens, List.length_append, List.length_cons] at hfuel
    have hitem : readUnless [.entry, .key, .value, .blockEnd] .item fuel
        ⟨valueTokens false j ++ (valueTokens.itemTokens more ++ rest), named, handles⟩ =
          some (.ofJson j, ⟨valueTokens.itemTokens more ++ rest, named, handles⟩) :=
      reads_unless (hplain j List.mem_cons_self) (hreads j List.mem_cons_self) rfl
        (by simp [startsNode]) (fun h => absurd h Bool.false_ne_true) (by omega)
    obtain ⟨fuel, rfl⟩ : ∃ fuel', fuel = fuel' + 1 := ⟨fuel - 1, by omega⟩
    have hmore := ih (fun j hj => hplain j (List.mem_cons_of_mem _ hj))
      (fun j hj => hreads j (List.mem_cons_of_mem _ hj)) fuel (by omega) (by omega)
    rw [valueTokens.itemTokens, List.cons_append, List.cons_append, List.append_assoc,
      readIndentless]
    simp only [Source.drop, List.drop_one, List.tail_cons, hitem, bind, Option.bind_some]
    rw [hmore]
    rfl

theorem reads_fields (fields : List (String × Json)) (hplain : ∀ e ∈ fields, Json.Plain depth e.2)
    (hreads : ∀ e ∈ fields, ∀ indentless, ReadsNode indentless e.2)
    (hfuel : 4 * (valueTokens.fieldTokens fields).length < fuel) :
    readEntries fuel ⟨valueTokens.fieldTokens fields ++ .blockEnd :: rest, named, handles⟩ =
      some (Node.ofJson.ofFields fields, ⟨rest, named, handles⟩) := by
  induction fields generalizing fuel with
  | nil =>
    obtain ⟨fuel, rfl⟩ := Nat.exists_eq_add_one.mpr (Nat.zero_lt_of_lt hfuel)
    rfl
  | cons e more ih =>
    obtain ⟨k, j⟩ := e
    simp only [valueTokens.fieldTokens, List.length_append, List.length_cons] at hfuel
    obtain ⟨fuel, rfl⟩ : ∃ fuel', fuel = fuel' + 4 := ⟨fuel - 4, by omega⟩
    have hnext : (valueTokens.fieldTokens more ++ .blockEnd :: rest).head? ≠ some .entry := by
      cases more <;> simp [valueTokens.fieldTokens]
    rw [valueTokens.fieldTokens]
    simp only [List.cons_append, List.append_assoc]
    rw [readEntries]
    generalize valueTokens.fieldTokens more ++ .blockEnd :: rest = below at ih hnext ⊢
    have hkey : ∀ (plain : Bool) (ts : List Token),
        readUnless [.key, .value, .blockEnd] .inMapping (fuel + 3)
          ⟨.scalar plain k :: ts, named, handles⟩ =
            some (.scalar none plain k, ⟨ts, named, handles⟩) := fun _ _ => rfl
    have hvalue : readUnless [.key, .value, .blockEnd] .inMapping (fuel + 2)
        ⟨valueTokens (isSimpleKey k) j ++ below, named, handles⟩ =
          some (.ofJson j, ⟨below, named, handles⟩) :=
      reads_unless (hplain (k, j) List.mem_cons_self)
        (hreads (k, j) List.mem_cons_self (isSimpleKey k)) rfl (by simp [startsNode])
        (fun _ => ⟨rfl, hnext⟩) (by omega)
    have hbelow : ∀ ts : List Token, readBlockValue (fuel + 3) ⟨.value :: ts, named, handles⟩ =
        readUnless [.key, .value, .blockEnd] .inMapping (fuel + 2) ⟨ts, named, handles⟩ :=
      fun _ => rfl
    have hmore : readEntries (fuel + 3) ⟨below, named, handles⟩ =
        some (Node.ofJson.ofFields more, ⟨rest, named, handles⟩) :=
      ih (fun e he => hplain e (List.mem_cons_of_mem _ he))
        (fun e he => hreads e (List.mem_cons_of_mem _ he)) (by omega)
    simp only [Source.drop, List.drop_one, List.tail_cons, hkey, hbelow, hvalue, hmore, bind,
      Option.bind_some]
    rfl

theorem reads_scalar {plain : Bool} {text : String} (hfuel : 2 ≤ fuel) :
    readNode p fuel ⟨.scalar plain text :: rest, named, handles⟩ =
      some (.scalar none plain text, ⟨rest, named, handles⟩) := by
  obtain ⟨fuel, rfl⟩ := Nat.exists_eq_add_of_le' hfuel
  rw [readNode_eq rfl]
  rfl

/-- The tokens of a value are read as its tree. -/
theorem reads_plain (hj : Json.Plain depth j) : ∀ indentless, ReadsNode indentless j := by
  induction hj with
  | str s =>
    intro indentless p fuel rest named handles _ _ hfuel
    exact reads_scalar (Nat.le_trans (by simp [valueTokens]) hfuel)
  | nat n _ =>
    intro indentless p fuel rest named handles _ _ hfuel
    exact reads_scalar (Nat.le_trans (by simp [valueTokens]) hfuel)
  | arr items hplain ih =>
    intro indentless p fuel rest named handles hp hindentless hfuel
    cases items with
    | nil =>
      obtain ⟨fuel, rfl⟩ : ∃ fuel', fuel = fuel' + 3 := ⟨fuel - 3, by simp [valueTokens] at hfuel; omega⟩
      exact readNode_eq rfl
    | cons j items =>
      cases indentless with
      | true =>
        obtain ⟨rfl, hrest⟩ := hindentless rfl
        have hpos : 0 < (valueTokens.itemTokens (j :: items)).length := by
          simp [valueTokens.itemTokens]
        change 4 * (valueTokens.itemTokens (j :: items)).length ≤ fuel at hfuel
        obtain ⟨fuel, rfl⟩ : ∃ fuel', fuel = fuel' + 2 := ⟨fuel - 2, by omega⟩
        have hitems : readIndentless fuel
            ⟨valueTokens.itemTokens (j :: items) ++ rest, named, handles⟩ =
              some (Node.ofJson.ofItems (j :: items), ⟨rest, named, handles⟩) :=
          reads_indentless _ hplain (fun j hj => ih j hj false) hrest (by omega) hfuel
        have hcontent : readNode .inMapping (fuel + 2)
            ⟨valueTokens.itemTokens (j :: items) ++ rest, named, handles⟩ =
              (readIndentless fuel ⟨valueTokens.itemTokens (j :: items) ++ rest, named, handles⟩).bind
                fun x => some (.seq x.1, x.2) := readNode_eq rfl
        change readNode .inMapping (fuel + 2)
          ⟨valueTokens.itemTokens (j :: items) ++ rest, named, handles⟩ = _
        rw [hcontent, hitems]
        rfl
      | false =>
        have htokens : valueTokens false (.arr (j :: items)) ++ rest =
            .sequenceStart :: (valueTokens.itemTokens (j :: items) ++ .blockEnd :: rest) := by
          simp [valueTokens]
        simp only [valueTokens, Bool.false_eq_true, if_false, List.length_cons,
          List.length_append] at hfuel
        obtain ⟨fuel, rfl⟩ : ∃ fuel', fuel = fuel' + 2 := ⟨fuel - 2, by omega⟩
        have hitems : readItems fuel
            ⟨valueTokens.itemTokens (j :: items) ++ .blockEnd :: rest, named, handles⟩ =
              some (Node.ofJson.ofItems (j :: items), ⟨rest, named, handles⟩) :=
          reads_items _ hplain (fun j hj => ih j hj false) (by omega)
        rw [htokens, readNode_eq rfl, readContent]
        simp only [hp, if_true, Source.drop, List.drop_one, List.tail_cons, hitems, bind,
          Option.bind_some]
        rfl
  | obj fields hplain ih =>
    intro indentless p fuel rest named handles hp _ hfuel
    cases fields with
    | nil =>
      obtain ⟨fuel, rfl⟩ : ∃ fuel', fuel = fuel' + 3 := ⟨fuel - 3, by simp [valueTokens] at hfuel; omega⟩
      exact readNode_eq rfl
    | cons e fields =>
      have htokens : valueTokens indentless (.obj (e :: fields)) ++ rest =
          .mappingStart :: (valueTokens.fieldTokens (e :: fields) ++ .blockEnd :: rest) := by
        simp [valueTokens]
      simp only [valueTokens, List.length_cons, List.length_append] at hfuel
      obtain ⟨fuel, rfl⟩ : ∃ fuel', fuel = fuel' + 2 := ⟨fuel - 2, by omega⟩
      have hfields : readEntries fuel
          ⟨valueTokens.fieldTokens (e :: fields) ++ .blockEnd :: rest, named, handles⟩ =
            some (Node.ofJson.ofFields (e :: fields), ⟨rest, named, handles⟩) :=
        reads_fields _ hplain ih (by omega)
      rw [htokens, readNode_eq rfl, readContent]
      simp only [hp, if_true, Source.drop, List.drop_one, List.tail_cons, hfields, bind,
        Option.bind_some]
      rfl

/-- A document written from a mapping is parsed as the tree of that mapping. -/
theorem parse_render {fields : List (String × Json)} (hj : Json.Plain depth (.obj fields))
    (hne : fields ≠ []) : Node.parse? (render (.obj fields)) = some (.ofJson (.obj fields)) := by
  obtain ⟨_, hplain⟩ : ∃ depth, ∀ e ∈ fields, Json.Plain depth e.2 := by
    cases hj with
    | obj _ hplain => exact ⟨_, hplain⟩
  have hroot : readNode .item (4 * (valueTokens false (.obj fields)).length + 4)
      ⟨valueTokens false (.obj fields) ++ [], [], Node.standardHandles⟩ =
        some (.ofJson (.obj fields), ⟨[], [], Node.standardHandles⟩) :=
    reads_plain hj false rfl nofun (by omega)
  rw [Node.parse?, render, String.toList_ofList, tokens_block fields hplain hne, Option.bind_some]
  obtain ⟨e, fields, rfl⟩ := List.exists_cons_of_ne_nil hne
  rw [List.append_nil] at hroot
  have hfirst : valueTokens false (.obj (e :: fields)) =
      .mappingStart :: (valueTokens.fieldTokens (e :: fields) ++ [.blockEnd]) := rfl
  rw [hfirst] at hroot ⊢
  change (readNode .item _ _).bind (fun x => if x.2.tokens.all _ then some x.1 else none) = _
  rw [List.nil_append, hroot]
  rfl

end BridgeOperator.Yaml
