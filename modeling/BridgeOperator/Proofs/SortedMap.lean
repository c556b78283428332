import BridgeOperator.SortedMap

/-!
Looking up what has been put into a sorted map.
-/

namespace BridgeOperator.SortedMap

variable {α : Type}

theorem isEmpty_iff {m : SortedMap α} : m.isEmpty = true ↔ m = ∅ := by
  constructor
  · exact fun h => ext_toList (List.isEmpty_iff.mp h)
  · rintro rfl
    rfl

theorem isEmpty_eq_false_iff {m : SortedMap α} : m.isEmpty = false ↔ m ≠ ∅ := by
  rw [← Bool.not_eq_true, Ne, isEmpty_iff]

theorem any_insertEntry (k k' : String) (v : α) (l : List (String × α)) :
    (insertEntry k v l).any (fun e => e.1 = k') = (decide (k = k') || l.any (fun e => e.1 = k')) := by
  induction l with
  | nil => simp [insertEntry]
  | cons e rest ih =>
    unfold insertEntry
    split
    · simp
    · split
      · next heq =>
        subst heq
        simp
      · simp only [List.any_cons, ih, Bool.or_left_comm]

@[simp] theorem contains_insert (m : SortedMap α) (k k' : String) (v : α) :
    (m.insert k v).contains k' = (decide (k = k') || m.contains k') :=
  any_insertEntry k k' v m.toList

@[simp] theorem contains_empty (k : String) : (∅ : SortedMap α).contains k = false := rfl

/-- What a map built from entries holds was one of them. -/
theorem mem_ofList {l : List (String × α)} {e : String × α} (h : e ∈ (ofList l).toList) :
    e ∈ l := by
  have hfold : ∀ (l : List (String × α)) (m : SortedMap α),
      e ∈ (l.foldl (fun m e => m.insert e.1 e.2) m).toList → e ∈ l ∨ e ∈ m.toList := by
    intro l
    induction l with
    | nil => exact fun m he => .inr he
    | cons a rest ih =>
      intro m he
      rcases ih (m.insert a.1 a.2) he with he | he
      · exact .inl (List.mem_cons_of_mem _ he)
      · rcases mem_insertEntry he with rfl | he
        · exact .inl List.mem_cons_self
        · exact .inr he
  rcases hfold l empty h with h | h
  · exact h
  · cases h

theorem mem_insertEntry_self (k : String) (v : α) (l : List (String × α)) :
    (k, v) ∈ insertEntry k v l := by
  induction l with
  | nil => exact List.mem_cons_self
  | cons e rest ih =>
    unfold insertEntry
    split
    · exact List.mem_cons_self
    · split
      · exact List.mem_cons_self
      · exact List.mem_cons_of_mem _ ih

theorem mem_insertEntry_of_ne {k : String} {v : α} {e : String × α} {l : List (String × α)}
    (h : e ∈ l) (hne : e.1 ≠ k) : e ∈ insertEntry k v l := by
  induction l with
  | nil => cases h
  | cons a rest ih =>
    unfold insertEntry
    split
    · exact List.mem_cons_of_mem _ h
    · rcases List.mem_cons.mp h with rfl | h
      · split
        · next heq => exact absurd heq.symm hne
        · exact List.mem_cons_self
      · split
        · exact List.mem_cons_of_mem _ h
        · exact List.mem_cons_of_mem _ (ih h)

/-- Of entries with distinct keys each one is in the map built from them. -/
theorem mem_toList_ofList {l : List (String × α)} (h : (l.map (·.1)).Nodup) :
    ∀ e ∈ l, e ∈ (ofList l).toList := by
  have hfold : ∀ (l : List (String × α)) (m : SortedMap α), (l.map (·.1)).Nodup →
      ∀ e, e ∈ l ∨ e ∈ m.toList ∧ e.1 ∉ l.map (·.1) →
        e ∈ (l.foldl (fun m e => m.insert e.1 e.2) m).toList := by
    intro l
    induction l with
    | nil => exact fun m _ e he => (he.resolve_left List.not_mem_nil).1
    | cons a rest ih =>
      intro m hnodup e he
      obtain ⟨ha, hrest⟩ := List.nodup_cons.mp hnodup
      refine ih _ hrest e ?_
      rcases he with he | ⟨he, hkey⟩
      · rcases List.mem_cons.mp he with rfl | he
        · exact .inr ⟨mem_insertEntry_self _ _ _, ha⟩
        · exact .inl he
      · obtain ⟨hne, hkey⟩ := not_or.mp fun hmem => hkey (List.mem_cons.mpr hmem)
        exact .inr ⟨mem_insertEntry_of_ne he hne, hkey⟩
  exact fun e he => hfold l empty h e (.inl he)

theorem nodup_keys (m : SortedMap α) : (m.toList.map (·.1)).Nodup := by
  rw [List.Nodup, List.pairwise_map]
  refine m.ascending.imp ?_
  intro a b hlt heq
  rw [heq] at hlt
  exact String.lt_irrefl _ hlt

/-- Maps with the same entries are the same. -/
theorem ext_mem {m n : SortedMap α} (h : ∀ e, e ∈ m.toList ↔ e ∈ n.toList) : m = n := by
  have hnodup : ∀ m : SortedMap α, m.toList.Nodup := by
    intro m
    refine m.ascending.imp ?_
    rintro a _ hlt rfl
    exact String.lt_irrefl _ hlt
  have hperm := (List.perm_ext_iff_of_nodup (hnodup m) (hnodup n)).mpr h
  refine ext_toList (hperm.eq_of_pairwise (fun a b _ _ hab hba => ?_) m.ascending n.ascending)
  exact absurd (String.lt_trans hab hba) (String.lt_irrefl _)

theorem ofList_eq {l : List (String × α)} {m : SortedMap α} (hnodup : (l.map (·.1)).Nodup)
    (h : ∀ e, e ∈ l ↔ e ∈ m.toList) : ofList l = m :=
  ext_mem fun e => ⟨fun he => (h e).mp (mem_ofList he),
    fun he => mem_toList_ofList hnodup e ((h e).mpr he)⟩

theorem contains_of_mem {m : SortedMap α} {e : String × α} (h : e ∈ m.toList) :
    m.contains e.1 = true := by
  unfold contains
  rw [List.any_eq_true]
  exact ⟨e, h, by simp⟩

theorem exists_mem_of_contains {m : SortedMap α} {k : String} (h : m.contains k = true) :
    ∃ v, (k, v) ∈ m.toList := by
  unfold contains at h
  obtain ⟨⟨k', v⟩, he, heq⟩ := List.any_eq_true.mp h
  obtain rfl : k' = k := of_decide_eq_true heq
  exact ⟨v, he⟩

theorem mem_of_get? {m : SortedMap α} {k : String} {v : α} (h : m.get? k = some v) :
    (k, v) ∈ m.toList := by
  unfold get? at h
  obtain ⟨e, he, rfl⟩ := Option.map_eq_some_iff.mp h
  have hk := List.find?_some he
  simp only [decide_eq_true_eq] at hk
  rw [← hk]
  exact List.mem_of_find?_eq_some he

theorem get?_of_mem {m : SortedMap α} {k : String} {v : α} (h : (k, v) ∈ m.toList) :
    m.get? k = some v := by
  have hfind : ∀ l : List (String × α), (l.map (·.1)).Nodup → (k, v) ∈ l →
      l.find? (fun e => e.1 = k) = some (k, v) := by
    intro l hnodup hmem
    induction l with
    | nil => cases hmem
    | cons e rest ih =>
      obtain ⟨he, hrest⟩ := List.nodup_cons.mp hnodup
      rcases List.mem_cons.mp hmem with rfl | hmem
      · simp
      · have hne : e.1 ≠ k := by
          rintro rfl
          exact he (List.mem_map.mpr ⟨_, hmem, rfl⟩)
        rw [List.find?_cons_of_neg (by simpa using hne)]
        exact ih hrest hmem
  unfold get?
  rw [hfind m.toList m.nodup_keys h]
  rfl

theorem get?_eq_some_iff {m : SortedMap α} {k : String} {v : α} :
    m.get? k = some v ↔ (k, v) ∈ m.toList :=
  ⟨mem_of_get?, get?_of_mem⟩

theorem contains_iff_get? {m : SortedMap α} {k : String} :
    m.contains k = true ↔ ∃ v, m.get? k = some v := by
  constructor
  · intro h
    obtain ⟨v, hv⟩ := exists_mem_of_contains h
    exact ⟨v, get?_of_mem hv⟩
  · rintro ⟨v, hv⟩
    exact contains_of_mem (mem_of_get? hv)

@[simp] theorem get?_insert_self (m : SortedMap α) (k : String) (v : α) :
    (m.insert k v).get? k = some v :=
  get?_of_mem (mem_insertEntry_self k v m.toList)

theorem get?_insert_of_ne (m : SortedMap α) {k k' : String} (v : α) (hne : k' ≠ k) :
    (m.insert k v).get? k' = m.get? k' := by
  refine Option.ext fun a => ?_
  rw [get?_eq_some_iff, get?_eq_some_iff]
  constructor
  · intro h
    rcases mem_insertEntry h with heq | h
    · exact absurd (congrArg Prod.fst heq) hne
    · exact h
  · exact fun h => mem_insertEntry_of_ne h hne

theorem ext_get? {m n : SortedMap α} (h : ∀ k, m.get? k = n.get? k) : m = n := by
  refine ext_mem fun ⟨k, v⟩ => ?_
  rw [← get?_eq_some_iff, ← get?_eq_some_iff, h]

theorem get?_insert (m : SortedMap α) (k k' : String) (v : α) :
    (m.insert k v).get? k' = if k' = k then some v else m.get? k' := by
  split
  · next hk => rw [hk, get?_insert_self]
  · next hk => exact get?_insert_of_ne m v hk

theorem get?_filter (m : SortedMap α) (p : String → α → Bool) (k : String) :
    (m.filter p).get? k = (m.get? k).filter (p k) := by
  refine Option.ext fun v => ?_
  rw [get?_eq_some_iff, Option.filter_eq_some_iff, get?_eq_some_iff]
  exact List.mem_filter

theorem get?_erase (m : SortedMap α) (k k' : String) :
    (m.erase k).get? k' = if k' = k then none else m.get? k' := by
  unfold erase
  rw [get?_filter]
  split
  · next hk => simp [hk]
  · next hk => cases m.get? k' <;> simp [hk]

theorem contains_erase (m : SortedMap α) (k k' : String) :
    (m.erase k).contains k' = (decide (k' ≠ k) && m.contains k') := by
  rw [Bool.eq_iff_iff, Bool.and_eq_true, contains_iff_get?, contains_iff_get?, get?_erase]
  by_cases hk : k' = k
  · simp [hk]
  · simp [hk]

theorem erase_of_get?_eq_none {m : SortedMap α} {k : String} (h : m.get? k = none) :
    m.erase k = m := by
  refine ext_get? fun k' => ?_
  rw [get?_erase]
  split
  · next hk => rw [hk, h]
  · rfl

theorem insert_insert (m : SortedMap α) (k : String) (v v' : α) :
    (m.insert k v).insert k v' = m.insert k v' := by
  refine ext_get? fun k' => ?_
  simp only [get?_insert]
  split <;> rfl

theorem erase_insert (m : SortedMap α) (k : String) (v : α) :
    (m.insert k v).erase k = m.erase k := by
  refine ext_get? fun k' => ?_
  simp only [get?_erase, get?_insert]
  split <;> rfl

@[simp] theorem get?_mapValues {β : Type} (m : SortedMap α) (f : α → β) (k : String) :
    (m.mapValues f).get? k = (m.get? k).map f := by
  unfold get? mapValues
  dsimp only
  generalize m.toList = l
  induction l with
  | nil => rfl
  | cons e rest ih =>
    rw [List.map_cons]
    by_cases hk : e.1 = k
    · rw [List.find?_cons_of_pos (by simpa using hk), List.find?_cons_of_pos (by simpa using hk)]
      rfl
    · rw [List.find?_cons_of_neg (by simpa using hk), List.find?_cons_of_neg (by simpa using hk)]
      exact ih

/-- An entry after all others is added at the end. -/
theorem insertEntry_last {l : List (String × α)} {k : String} {v : α} (h : ∀ e ∈ l, e.1 < k) :
    insertEntry k v l = l ++ [(k, v)] := by
  induction l with
  | nil => rfl
  | cons e rest ih =>
    have hlt : e.1 < k := h e List.mem_cons_self
    have hnot : ¬k < e.1 := fun h => String.lt_irrefl _ (String.lt_trans hlt h)
    have hne : k ≠ e.1 := by
      rintro rfl
      exact String.lt_irrefl _ hlt
    rw [insertEntry, if_neg hnot, if_neg hne, ih fun e he => h e (List.mem_cons_of_mem _ he)]
    rfl

/-- The entries of a map make up that map. -/
theorem ofList_toList (m : SortedMap α) : ofList m.toList = m := by
  have hfold : ∀ (l : List (String × α)) (m : SortedMap α),
      (m.toList ++ l).Pairwise (fun a b => a.1 < b.1) →
      (l.foldl (fun m e => m.insert e.1 e.2) m).toList = m.toList ++ l := by
    intro l
    induction l with
    | nil => exact fun m _ => (List.append_nil _).symm
    | cons e rest ih =>
      intro m h
      have hlast : (m.insert e.1 e.2).toList = m.toList ++ [e] :=
        insertEntry_last fun a ha => (List.pairwise_append.mp h).2.2 a ha e List.mem_cons_self
      rw [List.foldl_cons, ih _ (by rw [hlast]; simpa using h), hlast]
      simp
  exact ext_toList (hfold m.toList empty m.ascending)

end BridgeOperator.SortedMap
