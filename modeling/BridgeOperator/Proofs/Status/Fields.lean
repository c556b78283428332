import BridgeOperator.Condition
import BridgeOperator.Proofs.Json.MergePatch
import BridgeOperator.Proofs.Time.RoundTrip

/-!
The fields of a status, as they are read after a merge patch has been applied to what was there. An
optional field that the patch does not name keeps its value; times and conditions are replaced by
those of the patch.
-/

namespace BridgeOperator

open Json (Distinct)
open Json.mergePatch (mergeFields)
open Readable

variable {α β : Type} {fields changes : List (String × Json)} {k : String}

/-- How to take apart a value that is read step by step. -/
theorem bind_eq_some {o : Option α} {f : α → Option β} {b : β} :
    (o >>= f) = some b ↔ ∃ a, o = some a ∧ f a = some b := Option.bind_eq_some_iff

theorem withDefault_congr {f g : List (String × Json)} (h : lookup f k = lookup g k) (default : α)
    (read : Json → Option α) : withDefault f k default read = withDefault g k default read := by
  unfold withDefault
  rw [h]

theorem optional_congr {f g : List (String × Json)} (h : lookup f k = lookup g k)
    (read : Json → Option α) : Readable.optional f k read = Readable.optional g k read := by
  unfold Readable.optional
  rw [h]

theorem required_congr {f g : List (String × Json)} (h : lookup f k = lookup g k)
    (read : Json → Option α) : required f k read = required g k read := by
  unfold required
  rw [h]

theorem mem_of_mapM {f : α → Option β} {l : List α} {l' : List β} (h : l.mapM f = some l') :
    (∀ a ∈ l, ∃ b ∈ l', f a = some b) ∧ ∀ b ∈ l', ∃ a ∈ l, f a = some b := by
  induction l generalizing l' with
  | nil =>
    cases h
    exact ⟨nofun, nofun⟩
  | cons a l ih =>
    rw [List.mapM_cons] at h
    obtain ⟨b, hb, h⟩ := bind_eq_some.mp h
    obtain ⟨rest, hrest, h⟩ := bind_eq_some.mp h
    cases h
    obtain ⟨hto, hfrom⟩ := ih hrest
    constructor
    · intro x hx
      rcases List.mem_cons.mp hx with rfl | hx
      · exact ⟨b, List.mem_cons_self, hb⟩
      · obtain ⟨y, hy, hxy⟩ := hto x hx
        exact ⟨y, List.mem_cons_of_mem _ hy, hxy⟩
    · intro y hy
      rcases List.mem_cons.mp hy with rfl | hy
      · exact ⟨a, List.mem_cons_self, hb⟩
      · obtain ⟨x, hx, hxy⟩ := hfrom y hy
        exact ⟨x, List.mem_cons_of_mem _ hx, hxy⟩

/-! ## Scalars -/

/-- The value takes the place of whatever it is merged into, and it is not null. -/
structure Scalar (j : Json) : Prop where
  merged (former : Json) : Json.mergePatch j former = j
  present : j ≠ .null

theorem scalar_str (s : String) : Scalar (.str s) := ⟨fun _ => rfl, nofun⟩

theorem scalar_int (n : Int) : Scalar (.int n) := ⟨fun _ => rfl, nofun⟩

theorem scalar_arr (items : List Json) : Scalar (.arr items) := ⟨fun _ => rfl, nofun⟩

theorem Scalar.absent? {j : Json} (h : Scalar j) : Readable.absent? j = some false := by
  have hpresent := h.present
  cases j <;> first | rfl | exact absurd rfl hpresent

/-- A field that the patch leaves out keeps its value, and otherwise it has the one of the patch. -/
theorem Scalar.lookup_merged {o : Option α} {write : α → Json} (hdistinct : Distinct changes)
    (hchange : lookup changes k = o.map write) (hscalar : ∀ a, Scalar (write a)) :
    lookup (mergeFields changes fields) k = (o.map write).or (lookup fields k) := by
  cases o with
  | none => exact Json.lookup_mergeFields_of_lookup_eq_none hchange
  | some a =>
    rw [Json.lookup_mergeFields hdistinct hchange (hscalar a).present, (hscalar a).merged]
    rfl

theorem optional_merged {o former : Option α} {write : α → Json} {read : Json → Option α}
    (hdistinct : Distinct changes) (hchange : lookup changes k = o.map write)
    (hscalar : ∀ a, Scalar (write a)) (hread : ∀ a, read (write a) = some a)
    (hformer : Readable.optional fields k read = some former) :
    Readable.optional (mergeFields changes fields) k read = some (o.or former) := by
  have hlookup : lookup (mergeFields changes fields) k = _ :=
    Scalar.lookup_merged hdistinct hchange hscalar
  cases o with
  | none => rw [← optional_congr hlookup.symm, hformer]; rfl
  | some a =>
    rw [Readable.optional, hlookup]
    simp [(hscalar a).absent?, hread]

/-! ## Records -/

section

variable {record : List (String × Option Json)} (hnodup : (record.map (·.1)).Nodup)

include hnodup

theorem distinct_objOf : Distinct (record.filterMap fun e => e.2.map (e.1, ·)) := by
  have hsub : ((present id record).map (·.1)).Sublist (record.map (·.1)) :=
    present_sublist record
  unfold present at hsub
  rw [List.map_id''] at hsub
  · exact hsub.nodup hnodup
  · exact fun e => rfl

theorem lookup_objOf : ∀ e ∈ record,
    lookup (record.filterMap fun e => e.2.map (e.1, ·)) e.1 = e.2 := by
  intro e he
  have hlookup : lookup (present id record) e.1 = e.2.map id := lookup_present hnodup e he
  unfold present at hlookup
  rw [List.map_id''] at hlookup
  · simpa using hlookup
  · exact fun e => rfl

end

/-! ## Times -/

theorem Instant.read_toJson {t : Instant} (h : t.Valid) : Instant.read t.toJson = some t := by
  show (some t.render).bind Instant.parse? = some t
  rw [Option.bind_some, Instant.parse?_render h]

theorem Instant.valid_of_read {j : Json} {t : Instant} (h : Instant.read j = some t) : t.Valid := by
  obtain ⟨s, -, hparse⟩ := Option.bind_eq_some_iff.mp h
  exact Instant.valid_of_parse? hparse

theorem distinct_mapToJson (m : SortedMap Instant) :
    Distinct (m.mapValues Instant.toJson).toList := SortedMap.nodup_keys _

/-- The times that are read make up the map that is read. -/
theorem entries_of_map? {entries : List (String × Json)} {m : SortedMap Instant}
    (h : map? Instant.read (Json.obj entries) = some m) :
    ∃ l, entries.mapM (fun e => (Instant.read e.2).map (e.1, ·)) = some l ∧
      m = SortedMap.ofList l := by
  unfold map? at h
  obtain ⟨_, hentries, h⟩ := bind_eq_some.mp h
  cases hentries
  obtain ⟨l, hl, h⟩ := bind_eq_some.mp h
  cases h
  exact ⟨l, hl, rfl⟩

theorem valid_of_map? {j : Json} {m : SortedMap Instant} (h : map? Instant.read j = some m) :
    ∀ e ∈ m.toList, e.2.Valid := by
  intro e he
  cases j with
  | obj entries =>
    obtain ⟨l, hl, rfl⟩ := entries_of_map? h
    obtain ⟨a, -, ha⟩ := (mem_of_mapM hl).2 e (SortedMap.mem_ofList he)
    obtain ⟨t, ht, rfl⟩ := Option.map_eq_some_iff.mp ha
    exact Instant.valid_of_read ht
  | _ => cases h

/-- A key among distinct entries is one of the map that is read from them. -/
theorem contains_of_map? {entries : List (String × Json)} {m : SortedMap Instant}
    (hdistinct : Distinct entries) (h : map? Instant.read (Json.obj entries) = some m) :
    ∀ e ∈ entries, m.contains e.1 = true := by
  obtain ⟨l, hl, rfl⟩ := entries_of_map? h
  have hkeys : ∀ (entries : List (String × Json)) (l : List (String × Instant)),
      entries.mapM (fun e => (Instant.read e.2).map (e.1, ·)) = some l →
      l.map (·.1) = entries.map (·.1) := by
    intro entries
    induction entries with
    | nil =>
      intro l hl
      cases hl
      rfl
    | cons e rest ih =>
      intro l hl
      rw [List.mapM_cons] at hl
      obtain ⟨b, hb, hl⟩ := bind_eq_some.mp hl
      obtain ⟨tail, htail, hl⟩ := bind_eq_some.mp hl
      cases hl
      obtain ⟨t, -, rfl⟩ := Option.map_eq_some_iff.mp hb
      rw [List.map_cons, List.map_cons, ih tail htail]
  intro e he
  obtain ⟨b, hb, heq⟩ := (mem_of_mapM hl).1 e he
  obtain ⟨t, -, rfl⟩ := Option.map_eq_some_iff.mp heq
  have hnodup : (l.map (·.1)).Nodup := by
    rw [hkeys entries l hl]
    exact hdistinct
  exact SortedMap.contains_of_mem (SortedMap.mem_toList_ofList hnodup _ hb)

/-- Times merged into fewer times are read as they are in the patch. -/
theorem map?_merged {entries : List (String × Json)} {m m' : SortedMap Instant}
    (hdistinct : Distinct entries) (hformer : map? Instant.read (Json.obj entries) = some m)
    (hkeys : ∀ k, m.contains k = true → m'.contains k = true)
    (hvalid : ∀ e ∈ m'.toList, e.2.Valid) :
    map? Instant.read (Json.obj (mergeFields (m'.mapValues Instant.toJson).toList entries)) =
      some m' := by
  obtain ⟨l, hl⟩ : ∃ l, l = mergeFields (m'.mapValues Instant.toJson).toList entries := ⟨_, rfl⟩
  have hpatch := distinct_mapToJson m'
  have hmerged : Distinct l := hl ▸ hdistinct.mergeFields
  have hof : ∀ e ∈ m'.toList, (e.1, e.2.toJson) ∈ l := by
    intro e he
    have hmem : (e.1, e.2.toJson) ∈ (m'.mapValues Instant.toJson).toList :=
      List.mem_map.mpr ⟨e, he, rfl⟩
    refine Json.mem_of_lookup ?_
    rw [hl, Json.lookup_mergeFields hpatch (hpatch.lookup_eq _ hmem) (scalar_str _).present]
    rfl
  have hall : ∀ e ∈ l, ∃ a ∈ m'.toList, e = (a.1, a.2.toJson) := by
    intro e he
    have hkey : m'.contains e.1 = true := by
      by_contra hnot
      have hnew : e.1 ∉ (m'.mapValues Instant.toJson).toList.map (·.1) := by
        intro hmem
        obtain ⟨a, ha, heq⟩ := List.mem_map.mp hmem
        obtain ⟨b, hb, rfl⟩ := List.mem_map.mp ha
        exact hnot (heq ▸ SortedMap.contains_of_mem hb)
      have hlookup := hmerged.lookup_eq e he
      rw [hl, Json.lookup_mergeFields_of_notMem hnew] at hlookup
      exact hnot (hkeys _ (contains_of_map? hdistinct hformer _ (Json.mem_of_lookup hlookup)))
    obtain ⟨t, ht⟩ := SortedMap.exists_mem_of_contains hkey
    have hsame := (hmerged.lookup_eq _ (hof _ ht)).symm.trans (hmerged.lookup_eq e he)
    exact ⟨(e.1, t), ht, Prod.ext rfl (Option.some.inj hsame).symm⟩
  have hvalue : ∀ a ∈ m'.toList, (Instant.read a.2.toJson).getD default = a.2 := by
    intro a ha
    rw [Instant.read_toJson (hvalid a ha), Option.getD_some]
  have hread : ∀ e ∈ l, (Instant.read e.2).map (e.1, ·) =
      some (e.1, (Instant.read e.2).getD default) := by
    intro e he
    obtain ⟨a, ha, rfl⟩ := hall e he
    dsimp only
    rw [Instant.read_toJson (hvalid a ha), Option.map_some, Option.getD_some]
  have hlist : SortedMap.ofList (l.map fun e => (e.1, (Instant.read e.2).getD default)) = m' := by
    refine SortedMap.ofList_eq ?_ fun e => ⟨fun he => ?_, fun he => ?_⟩
    · rw [List.map_map]
      exact hmerged
    · obtain ⟨a, ha, rfl⟩ := List.mem_map.mp he
      obtain ⟨b, hb, rfl⟩ := hall a ha
      show (b.1, (Instant.read b.2.toJson).getD default) ∈ m'.toList
      rw [hvalue b hb]
      exact hb
    · refine List.mem_map.mpr ⟨_, hof e he, ?_⟩
      dsimp only
      rw [hvalue e he]
  have hmap : map? Instant.read (Json.obj l) = (l.mapM fun e =>
      (Instant.read e.2).map (e.1, ·)) >>= fun l => some (SortedMap.ofList l) := rfl
  rw [← hl, hmap, mapM_eq_map hread]
  exact congrArg some hlist

end BridgeOperator
