import BridgeOperator.Proofs.Json.RoundTrip
import BridgeOperator.Proofs.SortedMap
import BridgeOperator.Readable

/-!
Reading back what has been written. A tree mirrors JSON when readers find in it the strings,
numbers, lists and records of the JSON value it was made from; then what is read back does not
depend on the kind of tree.
-/

namespace BridgeOperator.Readable

open Json (Plain)

variable {ν : Type} [Readable ν] {enc : Json → ν} {α β : Type}

/-- The tree of a JSON value reads like that value. -/
structure Mirrors (enc : Json → ν) : Prop where
  text (s : String) : text? (enc (.str s)) = some s
  natural (n : Nat) : n < UInt64.size → natural? (enc (.int n)) = some n
  absent {j : Json} {depth : Nat} : Plain depth j → absent? (enc j) = some false
  items (l : List Json) : items? (enc (.arr l)) = some (l.map enc)
  entries (l : List (String × Json)) :
    entries? (enc (.obj l)) = some (l.map fun e => (e.1, enc e.2))
  record (names : List String) (l : List (String × Json)) :
    record? names (enc (.obj l)) = pick names (l.map fun e => (e.1, enc e.2))
  variant (s : String) : variant? (enc (.str s)) = some s

theorem mirrors_json : Mirrors (id : Json → Json) where
  text _ := rfl
  natural n _ := by simp [natural?, Json.int?]
  absent h := by cases h <;> rfl
  items l := by simp [items?, Json.arr?]
  entries l := by simp [entries?, Json.obj?]
  record names l := by simp [record?]
  variant _ := rfl

theorem mapM_eq_map {f : α → Option β} {g : α → β} {l : List α} (h : ∀ a ∈ l, f a = some (g a)) :
    l.mapM f = some (l.map g) := by
  induction l with
  | nil => rfl
  | cons a l ih =>
    rw [List.mapM_cons, h a List.mem_cons_self, ih fun b hb => h b (List.mem_cons_of_mem _ hb)]
    rfl

/-! ## Records -/

section

omit [Readable ν]

/-- Known fields, each given once, are all picked. -/
theorem pick_eq {names : List String} {l : List (String × ν)} (hknown : ∀ e ∈ l, e.1 ∈ names)
    (hnodup : (l.map (·.1)).Nodup) : pick names l = some l := by
  induction l with
  | nil => rfl
  | cons e rest ih =>
    obtain ⟨k, v⟩ := e
    obtain ⟨hk, hrest⟩ := List.nodup_cons.mp hnodup
    have hnew : rest.any (fun e => e.1 = k) = false := by
      rw [List.any_eq_false]
      intro e he heq
      exact hk (List.mem_map.mpr ⟨e, he, of_decide_eq_true heq⟩)
    have hknown' : names.contains k = true := by
      rw [List.contains_iff_mem]
      exact hknown (k, v) List.mem_cons_self
    simp only [pick, ih (fun e he => hknown e (List.mem_cons_of_mem _ he)) hrest, bind,
      Option.bind_some, hknown', Bool.not_true, Bool.false_eq_true, if_false, hnew]

theorem lookup_none {l : List (String × ν)} {k : String} (h : k ∉ l.map (·.1)) :
    lookup l k = none := by
  unfold lookup
  rw [List.find?_eq_none.mpr fun e he => ?_]
  · rfl
  · simp only [decide_eq_true_eq]
    exact fun heq => h (List.mem_map.mpr ⟨e, he, heq⟩)

/-- The trees of the fields that are there. -/
def present (enc : Json → ν) (fields : List (String × Option Json)) : List (String × ν) :=
  (fields.filterMap fun e => e.2.map (e.1, ·)).map fun e => (e.1, enc e.2)

theorem present_some (k : String) (j : Json) (fields : List (String × Option Json)) :
    present enc ((k, some j) :: fields) = (k, enc j) :: present enc fields := rfl

theorem present_sublist (fields : List (String × Option Json)) :
    ((present enc fields).map (·.1)).Sublist (fields.map (·.1)) := by
  induction fields with
  | nil => exact .slnil
  | cons e rest ih =>
    obtain ⟨k, v⟩ := e
    cases v with
    | none => exact ih.cons _
    | some j => exact ih.cons_cons _

/-- A field that is there is found, and one that is not is not. -/
theorem lookup_present {fields : List (String × Option Json)} (hnodup : (fields.map (·.1)).Nodup) :
    ∀ e ∈ fields, lookup (present enc fields) e.1 = e.2.map enc := by
  induction fields with
  | nil => exact nofun
  | cons e rest ih =>
    obtain ⟨k, v⟩ := e
    obtain ⟨hk, hrest⟩ := List.nodup_cons.mp hnodup
    intro e he
    rcases List.mem_cons.mp he with rfl | hmem
    · cases v with
      | none => exact lookup_none fun hmem => hk ((present_sublist rest).mem hmem)
      | some j => simp [present_some, lookup]
    · have hne : k ≠ e.1 := by
        rintro rfl
        exact hk (List.mem_map.mpr ⟨e, hmem, rfl⟩)
      have hnext := ih hrest e hmem
      cases v with
      | none => exact hnext
      | some j =>
        rw [present_some]
        unfold lookup at hnext ⊢
        rw [List.find?_cons_of_neg (by simpa using hne), hnext]

end

/-- A record is read from what its fields were written as. -/
theorem Mirrors.record_objOf (h : Mirrors enc) {names : List String}
    {fields : List (String × Option Json)} {read : List (String × ν) → Option β} {b : β}
    (hknown : ∀ e ∈ fields, e.1 ∈ names) (hnodup : (fields.map (·.1)).Nodup)
    (hread : ∀ f, (∀ e ∈ fields, lookup f e.1 = e.2.map enc) → read f = some b) :
    (record? names (enc (Json.objOf fields))).bind read = some b := by
  have hpick : pick names (present enc fields) = some (present enc fields) := by
    refine pick_eq (fun e he => ?_) ((present_sublist fields).nodup hnodup)
    have hkey := (present_sublist fields).mem (List.mem_map.mpr ⟨e, he, rfl⟩)
    obtain ⟨e', he', heq⟩ := List.mem_map.mp hkey
    rw [← heq]
    exact hknown e' he'
  rw [Json.objOf, h.record]
  change (pick names (present enc fields)).bind read = some b
  rw [hpick]
  exact hread _ (lookup_present hnodup)

/-! ## Fields -/

variable {f : List (String × ν)} {k : String} {read : ν → Option α} {write : α → Json}

omit [Readable ν] in
theorem required_eq {j : Json} {a : α} (hf : lookup f k = some (enc j)) (h : read (enc j) = some a) :
    required f k read = some a := by
  rw [required, hf, Option.bind_some, h]

omit [Readable ν] in
theorem withDefault_eq {j : Json} {a default : α} (hf : lookup f k = some (enc j))
    (h : read (enc j) = some a) : withDefault f k default read = some a := by
  rw [withDefault, hf]
  exact h

/-- An optional field is written when there is something to write. -/
theorem Mirrors.optional_eq (hm : Mirrors enc) {o : Option α}
    (hf : lookup f k = (o.map write).map enc) (h : ∀ a, read (enc (write a)) = some a)
    {depth : Nat} (hplain : ∀ a, o = some a → Plain depth (write a)) :
    Readable.optional f k read = some o := by
  rw [Readable.optional, hf]
  cases o with
  | none => rfl
  | some a => simp [hm.absent (hplain a rfl), h]

theorem Mirrors.uint16_eq (hm : Mirrors enc) (n : UInt16) : uint16? (enc (.int n.toNat)) = some n := by
  have hsize : n.toNat < UInt64.size := Nat.lt_trans n.toNat_lt (by decide)
  simp [uint16?, hm.natural _ hsize, n.toNat_lt]

theorem Mirrors.uint32_eq (hm : Mirrors enc) (n : UInt32) : uint32? (enc (.int n.toNat)) = some n := by
  have hsize : n.toNat < UInt64.size := Nat.lt_trans n.toNat_lt (by decide)
  simp [uint32?, hm.natural _ hsize, n.toNat_lt]

theorem Mirrors.list_eq (hm : Mirrors enc) (h : ∀ a, read (enc (write a)) = some a) (l : List α) :
    list? read (enc (.arr (l.map write))) = some l := by
  rw [list?, hm.items, Option.bind_some, List.map_map]
  induction l with
  | nil => rfl
  | cons a l ih => simp [h, ih]

theorem Mirrors.map_eq_of_mem (hm : Mirrors enc) {m : SortedMap α}
    (h : ∀ e ∈ m.toList, read (enc (write e.2)) = some e.2) :
    map? read (enc (.obj (m.mapValues write).toList)) = some m := by
  have hentries : (m.toList.map fun e => (e.1, enc (write e.2))).mapM
      (fun e => (read e.2).map (e.1, ·)) = some m.toList := by
    rw [List.mapM_map, mapM_eq_map (g := id), List.map_id]
    intro e he
    simp [h e he]
  have hall : entries? (enc (.obj (m.mapValues write).toList)) =
      some (m.toList.map fun e => (e.1, enc (write e.2))) := by
    rw [hm.entries, SortedMap.mapValues, List.map_map]
    rfl
  unfold map?
  rw [hall, Option.bind_eq_bind, Option.bind_some, hentries]
  exact congrArg some m.ofList_toList

theorem Mirrors.map_eq (hm : Mirrors enc) (h : ∀ a, read (enc (write a)) = some a)
    (m : SortedMap α) : map? read (enc (.obj (m.mapValues write).toList)) = some m :=
  hm.map_eq_of_mem fun e _ => h e.2

end BridgeOperator.Readable
