import BridgeOperator.Json.MergePatch
import BridgeOperator.Proofs.Readable

/-!
What a merge patch does to an object, field by field: a field the patch does not name stays as it
was, and any other one is what the patch makes of it.
-/

namespace BridgeOperator.Json

open Readable (lookup pick record?)

variable {fields changes : List (String × Json)} {k k' : String} {v : Json}

/-- No field stands twice. -/
def Distinct (fields : List (String × Json)) : Prop := (fields.map (·.1)).Nodup

theorem lookup_cons (e : String × Json) (fields : List (String × Json)) (k : String) :
    lookup (e :: fields) k = if e.1 = k then some e.2 else lookup fields k := by
  unfold lookup
  by_cases h : e.1 = k
  · rw [List.find?_cons_of_pos (by simpa using h), if_pos h]
    rfl
  · rw [List.find?_cons_of_neg (by simpa using h), if_neg h]

theorem Distinct.lookup_eq (h : Distinct fields) : ∀ e ∈ fields, lookup fields e.1 = some e.2 := by
  induction fields with
  | nil => exact nofun
  | cons a rest ih =>
    obtain ⟨ha, hrest⟩ := List.nodup_cons.mp h
    intro e he
    rw [lookup_cons]
    rcases List.mem_cons.mp he with rfl | he
    · exact if_pos rfl
    · rw [if_neg fun heq => ha (List.mem_map.mpr ⟨e, he, heq.symm⟩)]
      exact ih hrest e he

theorem mem_of_lookup (h : lookup fields k = some v) : (k, v) ∈ fields := by
  obtain ⟨e, he, rfl⟩ := Option.map_eq_some_iff.mp h
  have hk : e.1 = k := by simpa using List.find?_some he
  subst hk
  exact List.mem_of_find?_eq_some he

/-! ## Changing one field -/

theorem lookup_setField (v : Json) (fields : List (String × Json)) :
    lookup (setField k v fields) k' = if k = k' then some v else lookup fields k' := by
  induction fields with
  | nil => exact lookup_cons _ _ _
  | cons e rest ih =>
    obtain ⟨j, w⟩ := e
    unfold setField
    split
    · next heq =>
      subst heq
      rw [lookup_cons, lookup_cons]
      split <;> rfl
    · next hne =>
      rw [lookup_cons, lookup_cons, ih]
      dsimp only
      by_cases hj : j = k'
      · rw [if_pos hj, if_pos hj, if_neg fun h => hne (h.trans hj.symm)]
      · rw [if_neg hj, if_neg hj]

theorem lookup_dropField (hne : k ≠ k') : lookup (dropField k fields) k' = lookup fields k' := by
  induction fields with
  | nil => rfl
  | cons e rest ih =>
    unfold dropField at ih ⊢
    by_cases he : e.1 = k
    · rw [List.filter_cons_of_neg (by simpa using he), ih, lookup_cons,
        if_neg fun h => hne (he.symm.trans h)]
    · rw [List.filter_cons_of_pos (by simpa using he), lookup_cons, lookup_cons, ih]

theorem keys_setField (v : Json) (fields : List (String × Json)) :
    ∀ j ∈ (setField k v fields).map (·.1), j = k ∨ j ∈ fields.map (·.1) := by
  induction fields with
  | nil =>
    intro j hj
    exact .inl (by simpa [setField] using hj)
  | cons e rest ih =>
    intro j hj
    unfold setField at hj
    split at hj
    · next heq =>
      rcases List.mem_cons.mp hj with rfl | hj
      · exact .inl rfl
      · exact .inr (List.mem_cons_of_mem _ hj)
    · rcases List.mem_cons.mp hj with rfl | hj
      · exact .inr List.mem_cons_self
      · exact (ih j hj).imp_right (List.mem_cons_of_mem _)

theorem Distinct.setField (v : Json) (h : Distinct fields) : Distinct (setField k v fields) := by
  induction fields with
  | nil => exact List.nodup_cons.mpr ⟨List.not_mem_nil, List.nodup_nil⟩
  | cons e rest ih =>
    obtain ⟨he, hrest⟩ := List.nodup_cons.mp h
    unfold Json.setField
    split
    · next heq =>
      subst heq
      exact List.nodup_cons.mpr ⟨he, hrest⟩
    · next hne =>
      refine List.nodup_cons.mpr ⟨fun hmem => ?_, ih hrest⟩
      rcases keys_setField v rest _ hmem with heq | hmem
      · exact hne heq.symm
      · exact he hmem

theorem Distinct.dropField (h : Distinct fields) : Distinct (dropField k fields) :=
  (List.filter_sublist.map _).nodup h

/-! ## Merging -/

theorem obj_ne_null (fields : List (String × Json)) : Json.obj fields ≠ .null := nofun

/-- What becomes of a field that the patch changes. -/
def changed (change : Json) (former : Option Json) : Option Json :=
  match change with
  | .null => none
  | change => some (mergePatch change (former.getD .null))

theorem changed_of_ne_null {change : Json} (h : change ≠ .null) (former : Option Json) :
    changed change former = some (mergePatch change (former.getD .null)) := by
  cases change <;> first | rfl | exact absurd rfl h

/-- A merge goes change by change. -/
theorem mergeFields_cons (change : Json) (changes fields : List (String × Json)) :
    mergePatch.mergeFields ((k, change) :: changes) fields =
      mergePatch.mergeFields changes (match changed change (lookup fields k) with
        | none => dropField k fields
        | some v => setField k v fields) := by
  cases change <;> rfl

/-- A field that the patch does not name stays. -/
theorem lookup_mergeFields_of_notMem (h : k ∉ changes.map (·.1)) :
    lookup (mergePatch.mergeFields changes fields) k = lookup fields k := by
  induction changes generalizing fields with
  | nil => rfl
  | cons e rest ih =>
    obtain ⟨j, change⟩ := e
    obtain ⟨hne, hrest⟩ := not_or.mp fun hmem => h (List.mem_cons.mpr hmem)
    have hjk : j ≠ k := fun heq => hne heq.symm
    rw [mergeFields_cons, ih hrest]
    split
    · exact lookup_dropField hjk
    · rw [lookup_setField, if_neg hjk]

theorem lookup_mergeFields_of_lookup_eq_none (h : lookup changes k = none) :
    lookup (mergePatch.mergeFields changes fields) k = lookup fields k := by
  refine lookup_mergeFields_of_notMem fun hmem => ?_
  obtain ⟨e, he, rfl⟩ := List.mem_map.mp hmem
  unfold lookup at h
  have hnone := List.find?_eq_none.mp (Option.map_eq_none_iff.mp h) e he
  simp at hnone

/-- A field that the patch gives a value has it. -/
theorem lookup_mergeFields {change : Json} (hdistinct : Distinct changes)
    (hmem : lookup changes k = some change) (hnull : change ≠ .null) :
    lookup (mergePatch.mergeFields changes fields) k =
      some (mergePatch change ((lookup fields k).getD .null)) := by
  induction changes generalizing fields with
  | nil => cases hmem
  | cons e rest ih =>
    obtain ⟨j, c⟩ := e
    obtain ⟨hj, hrest⟩ := List.nodup_cons.mp hdistinct
    rw [lookup_cons] at hmem
    rw [mergeFields_cons]
    by_cases hjk : j = k
    · subst hjk
      cases (if_pos rfl).symm.trans hmem
      rw [lookup_mergeFields_of_notMem hj, changed_of_ne_null hnull, lookup_setField, if_pos rfl]
    · rw [if_neg hjk] at hmem
      rw [ih hrest hmem]
      split
      · rw [lookup_dropField hjk]
      · rw [lookup_setField, if_neg hjk]

theorem Distinct.mergeFields (h : Distinct fields) :
    Distinct (mergePatch.mergeFields changes fields) := by
  induction changes generalizing fields with
  | nil => exact h
  | cons e rest ih =>
    obtain ⟨j, change⟩ := e
    rw [mergeFields_cons]
    split
    · exact ih h.dropField
    · exact ih (h.setField _)

/-! ## Reading records -/

/-- An object without repeated fields is read as the record of the fields that are asked for. -/
theorem Distinct.record?_eq (h : Distinct fields) (names : List String) :
    ∃ f, record? names (.obj fields) = some f ∧ ∀ k ∈ names, lookup f k = lookup fields k := by
  show ∃ f, pick names fields = some f ∧ _
  have hsub : ∃ f, pick names fields = some f ∧ (f.map (·.1)).Sublist (fields.map (·.1)) ∧
      ∀ k ∈ names, lookup f k = lookup fields k := by
    induction fields with
    | nil => exact ⟨[], rfl, .slnil, fun _ _ => rfl⟩
    | cons e rest ih =>
      obtain ⟨j, v⟩ := e
      obtain ⟨hj, hrest⟩ := List.nodup_cons.mp h
      obtain ⟨f, hf, hsub, hlookup⟩ := ih hrest
      by_cases hknown : names.contains j = true
      · have hnew : f.any (fun e => e.1 = j) = false := by
          rw [List.any_eq_false]
          intro e he heq
          exact hj (hsub.mem (List.mem_map.mpr ⟨e, he, of_decide_eq_true heq⟩))
        refine ⟨(j, v) :: f, ?_, hsub.cons_cons _, fun k hk => ?_⟩
        · simp only [pick, hf, bind, Option.bind_some, hknown, hnew, Bool.not_true,
            Bool.false_eq_true, if_false]
        · rw [lookup_cons, lookup_cons, hlookup k hk]
      · refine ⟨f, ?_, hsub.cons _, fun k hk => ?_⟩
        · simp only [pick, hf, bind, Option.bind_some, hknown, Bool.not_false, if_true]
        · have hne : j ≠ k := by
            rintro rfl
            exact hknown (List.contains_iff_mem.mpr hk)
          rw [lookup_cons, if_neg hne, hlookup k hk]
  obtain ⟨f, hf, -, hlookup⟩ := hsub
  exact ⟨f, hf, hlookup⟩

end BridgeOperator.Json
