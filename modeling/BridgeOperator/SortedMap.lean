/-!
Maps from strings, kept as association lists with strictly ascending keys. Two maps with the same
entries are equal, so a map that is written out and read back can be compared with `=`.
-/

namespace BridgeOperator

/-- Strings are compared by code point, which is also the order of their UTF-8 bytes. -/
structure SortedMap (α : Type) where
  toList : List (String × α)
  ascending : toList.Pairwise (fun a b => a.1 < b.1)

namespace SortedMap

variable {α β : Type}

def empty : SortedMap α := ⟨[], .nil⟩

instance : Inhabited (SortedMap α) := ⟨empty⟩
instance : EmptyCollection (SortedMap α) := ⟨empty⟩

theorem ext_toList {m n : SortedMap α} (h : m.toList = n.toList) : m = n := by
  cases m; cases n; cases h; rfl

instance [DecidableEq α] : DecidableEq (SortedMap α) := fun m n =>
  if h : m.toList = n.toList then isTrue (ext_toList h)
  else isFalse fun e => h (congrArg toList e)

/-- Put `v` at `k` in an ascending list, replacing what stood there. -/
def insertEntry (k : String) (v : α) : List (String × α) → List (String × α)
  | [] => [(k, v)]
  | (k', v') :: rest =>
    if k < k' then (k, v) :: (k', v') :: rest
    else if k = k' then (k, v) :: rest
    else (k', v') :: insertEntry k v rest

theorem mem_insertEntry {k : String} {v : α} {a : String × α} {l : List (String × α)} :
    a ∈ insertEntry k v l → a = (k, v) ∨ a ∈ l := by
  induction l with
  | nil => simp [insertEntry]
  | cons hd tl ih =>
    obtain ⟨k', v'⟩ := hd
    unfold insertEntry
    split
    · simp
    · split
      · intro h
        rcases List.mem_cons.mp h with h | h
        · exact .inl h
        · exact .inr (List.mem_cons_of_mem _ h)
      · intro h
        rcases List.mem_cons.mp h with h | h
        · exact .inr (h ▸ List.mem_cons_self)
        · exact (ih h).imp id (List.mem_cons_of_mem _)

theorem ascending_insertEntry (k : String) (v : α) {l : List (String × α)}
    (h : l.Pairwise (fun a b => a.1 < b.1)) :
    (insertEntry k v l).Pairwise (fun a b => a.1 < b.1) := by
  induction l with
  | nil => simp [insertEntry]
  | cons hd tl ih =>
    obtain ⟨k', v'⟩ := hd
    obtain ⟨hhd, htl⟩ := List.pairwise_cons.mp h
    unfold insertEntry
    split
    · next hlt =>
      refine List.pairwise_cons.mpr ⟨fun a ha => ?_, h⟩
      rcases List.mem_cons.mp ha with rfl | ha
      · exact hlt
      · exact String.lt_trans hlt (hhd a ha)
    · next hge =>
      split
      · next heq => subst heq; exact List.pairwise_cons.mpr ⟨hhd, htl⟩
      · next hne =>
        refine List.pairwise_cons.mpr ⟨fun a ha => ?_, ih htl⟩
        rcases mem_insertEntry ha with rfl | ha
        · exact Std.lt_of_le_of_ne (String.not_lt.mp hge) fun e => hne e.symm
        · exact hhd a ha

def insert (m : SortedMap α) (k : String) (v : α) : SortedMap α :=
  ⟨insertEntry k v m.toList, ascending_insertEntry k v m.ascending⟩

/-- Of two entries with one key the later one counts. -/
def ofList (l : List (String × α)) : SortedMap α :=
  l.foldl (fun m e => m.insert e.1 e.2) empty

def get? (m : SortedMap α) (k : String) : Option α :=
  (m.toList.find? (fun e => e.1 = k)).map (·.2)

def contains (m : SortedMap α) (k : String) : Bool := m.toList.any (fun e => e.1 = k)

def isEmpty (m : SortedMap α) : Bool := m.toList.isEmpty

def keys (m : SortedMap α) : List String := m.toList.map (·.1)

def values (m : SortedMap α) : List α := m.toList.map (·.2)

def filter (m : SortedMap α) (p : String → α → Bool) : SortedMap α :=
  ⟨m.toList.filter (fun e => p e.1 e.2), m.ascending.filter _⟩

def erase (m : SortedMap α) (k : String) : SortedMap α := m.filter (fun k' _ => k' ≠ k)

/-- Change the values and leave the keys. -/
def mapValues (m : SortedMap α) (f : α → β) : SortedMap β :=
  ⟨m.toList.map (fun e => (e.1, f e.2)), List.pairwise_map.mpr m.ascending⟩

end SortedMap
end BridgeOperator
