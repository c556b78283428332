import BridgeOperator.Bridge.Basic
import BridgeOperator.Client.Basic
import BridgeOperator.Proofs.Status.Fields

/-!
Statuses under a merge patch. The encoding of a status leaves out what is not there, so whatever the
new status has cleared is still there after the patch.
-/

namespace BridgeOperator

open Json (Distinct)
open Json.mergePatch (mergeFields)
open Readable

variable {fields : List (String × Json)}

/-- All times are read back from their text. -/
def ValidTimes (m : SortedMap Instant) : Prop := ∀ e ∈ m.toList, e.2.Valid

/-- The times of states, where there are any, are an object without repeated fields. -/
def TidyTimes (fields : List (String × Json)) : Prop :=
  ∀ v, lookup fields "stateTransitions" = some v → ∃ entries, v = .obj entries ∧ Distinct entries

/-- The patch names the states and their times, unless there are none. -/
def timesChange (m : SortedMap Instant) : Option Json :=
  if m.isEmpty then none else some (Instant.mapToJson m)

section

variable {changes : List (String × Json)} {m m' : SortedMap Instant}
  (hdistinct : Distinct changes) (hchange : lookup changes "stateTransitions" = timesChange m')
  (htidy : TidyTimes fields)

include hdistinct hchange htidy

theorem tidyTimes_merged : TidyTimes (mergeFields changes fields) := by
  intro v hv
  unfold timesChange at hchange
  split at hchange
  · rw [Json.lookup_mergeFields_of_lookup_eq_none hchange] at hv
    exact htidy v hv
  · rw [Json.lookup_mergeFields hdistinct hchange (Json.obj_ne_null _)] at hv
    cases hv
    refine ⟨_, rfl, Distinct.mergeFields ?_⟩
    cases hformer : lookup fields "stateTransitions" with
    | none => exact List.nodup_nil
    | some w =>
      obtain ⟨entries, rfl, hentries⟩ := htidy w hformer
      exact hentries

/-- Times that have only grown are read as they were written. -/
theorem times_merged
    (hformer : withDefault fields "stateTransitions" ∅ (map? Instant.read) = some m)
    (hkeys : ∀ k, m.contains k = true → m'.contains k = true) (hvalid : ValidTimes m') :
    withDefault (mergeFields changes fields) "stateTransitions" ∅ (map? Instant.read) =
      some m' := by
  unfold timesChange at hchange
  split at hchange
  · next hempty =>
    obtain rfl := SortedMap.isEmpty_iff.mp hempty
    rw [withDefault_congr (Json.lookup_mergeFields_of_lookup_eq_none hchange), hformer]
    refine congrArg some (SortedMap.ext_mem fun e => ⟨fun he => ?_, fun he => ?_⟩)
    · have := hkeys _ (SortedMap.contains_of_mem he)
      cases this
    · cases he
  · rw [withDefault, Json.lookup_mergeFields hdistinct hchange (Json.obj_ne_null _)]
    cases hlookup : lookup fields "stateTransitions" with
    | none =>
      have hempty : map? Instant.read (Json.obj []) = some (∅ : SortedMap Instant) := rfl
      exact map?_merged List.nodup_nil hempty (fun _ hk => absurd hk Bool.false_ne_true) hvalid
    | some w =>
      obtain ⟨entries, rfl, hentries⟩ := htidy w hlookup
      rw [withDefault, hlookup] at hformer
      exact map?_merged hentries hformer hkeys hvalid

end

theorem validTimes_of_reads {m : SortedMap Instant}
    (h : withDefault fields "stateTransitions" ∅ (map? Instant.read) = some m) : ValidTimes m := by
  unfold withDefault at h
  split at h
  · rw [← Option.some.inj h]
    exact fun _ => nofun
  · exact valid_of_map? h

/-! ## Conditions -/

theorem ConditionStatus.read_text (s : ConditionStatus) :
    ConditionStatus.read (Json.str s.text) = some s := by
  cases s <;> decide

theorem Condition.read_toJson {c : Condition} (h : c.lastTransitionTime.Valid) :
    Condition.read c.toJson = some c := by
  have hdistinct : Distinct [("type", .str c.kind), ("status", .str c.status.text),
      ("reason", .str c.reason), ("message", .str c.message),
      ("lastTransitionTime", c.lastTransitionTime.toJson)] := by
    simp [Distinct]
  obtain ⟨f, hf, hlookup⟩ := hdistinct.record?_eq
    ["type", "status", "reason", "message", "lastTransitionTime"]
  have hfield : ∀ {α : Type} {k : String} {j : Json} {read : Json → Option α} {a : α},
      lookup f k = some j → read j = some a → required f k read = some a := by
    intro α k j read a hj ha
    rw [required, hj, Option.bind_some, ha]
  exact bind_eq_some.mpr ⟨f, hf,
    bind_eq_some.mpr ⟨_, hfield (hlookup "type" (by simp)) rfl,
    bind_eq_some.mpr ⟨_, hfield (hlookup "status" (by simp)) c.status.read_text,
    bind_eq_some.mpr ⟨_, hfield (hlookup "reason" (by simp)) rfl,
    bind_eq_some.mpr ⟨_, hfield (hlookup "message" (by simp)) rfl,
    bind_eq_some.mpr ⟨_, hfield (hlookup "lastTransitionTime" (by simp)) (Instant.read_toJson h),
      rfl⟩⟩⟩⟩⟩⟩

/-- The times of all conditions are read back from their text. -/
def ValidConditions (l : List Condition) : Prop := ∀ c ∈ l, c.lastTransitionTime.Valid

theorem conditions_read {l : List Condition} (h : ValidConditions l) :
    list? Condition.read (Json.arr (l.map Condition.toJson)) = some l := by
  show ((l.map Condition.toJson).mapM Condition.read) = some l
  induction l with
  | nil => rfl
  | cons c l ih =>
    rw [List.map_cons, List.mapM_cons, Condition.read_toJson (h c List.mem_cons_self),
      ih fun d hd => h d (List.mem_cons_of_mem _ hd)]
    rfl

theorem validConditions_of_list? {j : Json} {l : List Condition}
    (h : list? Condition.read j = some l) : ValidConditions l := by
  obtain ⟨items, -, hl⟩ := Option.bind_eq_some_iff.mp h
  intro c hc
  obtain ⟨j, -, hj⟩ := (mem_of_mapM hl).2 c hc
  obtain ⟨f, -, h⟩ := bind_eq_some.mp hj
  obtain ⟨_, -, h⟩ := bind_eq_some.mp h
  obtain ⟨_, -, h⟩ := bind_eq_some.mp h
  obtain ⟨_, -, h⟩ := bind_eq_some.mp h
  obtain ⟨_, -, h⟩ := bind_eq_some.mp h
  obtain ⟨t, ht, h⟩ := bind_eq_some.mp h
  cases h
  obtain ⟨w, -, hw⟩ := Option.bind_eq_some_iff.mp ht
  exact Instant.valid_of_read hw

/-- The patch names the conditions, unless there are none. -/
def conditionsChange (l : List Condition) : Option Json :=
  if l.isEmpty then none else some (.arr (l.map Condition.toJson))

/-- Conditions that do not all go are read as they were written. -/
theorem conditions_merged {changes : List (String × Json)} {l l' : List Condition}
    (hdistinct : Distinct changes) (hchange : lookup changes "conditions" = conditionsChange l')
    (hformer : withDefault fields "conditions" [] (list? Condition.read) = some l)
    (hgrows : l' = [] → l = []) (hvalid : ValidConditions l') :
    withDefault (mergeFields changes fields) "conditions" [] (list? Condition.read) = some l' := by
  unfold conditionsChange at hchange
  split at hchange
  · next hempty =>
    have hnone : l' = [] := List.isEmpty_iff.mp hempty
    rw [withDefault_congr (Json.lookup_mergeFields_of_lookup_eq_none hchange), hformer,
      hgrows hnone, hnone]
  · rw [withDefault, Json.lookup_mergeFields hdistinct hchange (scalar_arr _).present]
    exact conditions_read hvalid

theorem int64_read (n : Int64) : int64? (Json.int n.toInt) = some n := by
  have hlow := n.minValue_le_toInt
  have hhigh := n.toInt_le
  show (if _ then some (Int64.ofInt n.toInt) else none) = some n
  rw [if_pos ⟨hlow, hhigh⟩, Int64.ofInt_toInt]

/-! ## Bridges -/

namespace BridgeStatus

variable {s s' : BridgeStatus}

/-- The status is what is read from the fields. -/
structure Reads (fields : List (String × Json)) (s : BridgeStatus) : Prop where
  state : withDefault fields "state" .requested (fun v => (variant? v).bind BridgeState.ofText?) =
    some s.state
  stateTransitions :
    withDefault fields "stateTransitions" ∅ (map? Instant.read) = some s.stateTransitions
  message : Readable.optional fields "message" text? = some s.message
  conditions : withDefault fields "conditions" [] (list? Condition.read) = some s.conditions
  observedGeneration :
    Readable.optional fields "observedGeneration" int64? = some s.observedGeneration
  lastAppliedSpec : Readable.optional fields "lastAppliedSpec" text? = some s.lastAppliedSpec

theorem read_iff (h : Distinct fields) : read (Json.obj fields) = some s ↔ Reads fields s := by
  obtain ⟨f, hf, hlookup⟩ := h.record?_eq fieldNames
  have hstate := withDefault_congr (hlookup "state" (by simp [fieldNames])) .requested
    fun v => (variant? v).bind BridgeState.ofText?
  have htimes := withDefault_congr (hlookup "stateTransitions" (by simp [fieldNames])) ∅
    (map? Instant.read)
  have hmessage := optional_congr (hlookup "message" (by simp [fieldNames])) text?
  have hconditions := withDefault_congr (hlookup "conditions" (by simp [fieldNames])) []
    (list? Condition.read)
  have hgeneration := optional_congr (hlookup "observedGeneration" (by simp [fieldNames])) int64?
  have hspec := optional_congr (hlookup "lastAppliedSpec" (by simp [fieldNames])) text?
  unfold read
  rw [hf]
  simp only [bind_eq_some]
  constructor
  · rintro ⟨_, hsome, _, h1, _, h2, _, h3, _, h4, _, h5, _, h6, h⟩
    cases hsome
    cases h
    exact ⟨hstate.symm.trans h1, htimes.symm.trans h2, hmessage.symm.trans h3,
      hconditions.symm.trans h4, hgeneration.symm.trans h5, hspec.symm.trans h6⟩
  · intro h
    exact ⟨f, rfl, _, hstate.trans h.state, _, htimes.trans h.stateTransitions, _,
      hmessage.trans h.message, _, hconditions.trans h.conditions, _,
      hgeneration.trans h.observedGeneration, _, hspec.trans h.lastAppliedSpec, rfl⟩

theorem reads_initial : Reads [] initial := ⟨rfl, rfl, rfl, rfl, rfl, rfl⟩

/-- All times of the status are read back from their text. -/
structure Valid (s : BridgeStatus) : Prop where
  times : ValidTimes s.stateTransitions
  conditions : ValidConditions s.conditions

theorem Reads.valid (h : Reads fields s) : s.Valid where
  times := validTimes_of_reads h.stateTransitions
  conditions := by
    have hconditions := h.conditions
    unfold withDefault at hconditions
    split at hconditions
    · rw [← Option.some.inj hconditions]
      exact fun _ => nofun
    · exact validConditions_of_list? hconditions

/-- The states that have been entered stay, and so does some condition if there has been one. -/
structure Grows (s s' : BridgeStatus) : Prop where
  times : ∀ k, s.stateTransitions.contains k = true → s'.stateTransitions.contains k = true
  conditions : s'.conditions = [] → s.conditions = []

/-- The new status, but with every field it has cleared as it was before. -/
def onto (s' s : BridgeStatus) : BridgeStatus :=
  { s' with
    message := s'.message.or s.message
    observedGeneration := s'.observedGeneration.or s.observedGeneration
    lastAppliedSpec := s'.lastAppliedSpec.or s.lastAppliedSpec }

/-- The fields of the encoding. -/
def changes (s : BridgeStatus) : List (String × Option Json) := [
  ("state", some (.str s.state.text)),
  ("stateTransitions", timesChange s.stateTransitions),
  ("message", s.message.map .str),
  ("conditions", conditionsChange s.conditions),
  ("observedGeneration", s.observedGeneration.map fun n => .int n.toInt),
  ("lastAppliedSpec", s.lastAppliedSpec.map .str)]

theorem toJson_eq (s : BridgeStatus) : s.toJson = Json.objOf s.changes := rfl

theorem nodup_changes (s : BridgeStatus) : (s.changes.map (·.1)).Nodup := by
  simp [changes]

theorem read_text (state : BridgeState) :
    (variant? (Json.str state.text)).bind BridgeState.ofText? = some state := by
  cases state <;> decide

/-- **The fields after the patch.** -/
theorem Reads.merged (h : Reads fields s) (htidy : TidyTimes fields) (hgrows : s.Grows s')
    (hvalid : s'.Valid) :
    Reads (mergeFields (s'.changes.filterMap fun e => e.2.map (e.1, ·)) fields) (s'.onto s) := by
  have hnodup := s'.nodup_changes
  have hdistinct := distinct_objOf hnodup
  obtain ⟨hstate, hchange⟩ := List.forall_mem_cons.mp (lookup_objOf hnodup)
  obtain ⟨htimes, hchange⟩ := List.forall_mem_cons.mp hchange
  obtain ⟨hmessage, hchange⟩ := List.forall_mem_cons.mp hchange
  obtain ⟨hconditions, hchange⟩ := List.forall_mem_cons.mp hchange
  obtain ⟨hgeneration, hchange⟩ := List.forall_mem_cons.mp hchange
  obtain ⟨hspec, -⟩ := List.forall_mem_cons.mp hchange
  refine ⟨?_, times_merged hdistinct htimes htidy h.stateTransitions hgrows.times hvalid.times,
    optional_merged hdistinct hmessage scalar_str (fun _ => rfl) h.message,
    conditions_merged hdistinct hconditions h.conditions hgrows.conditions hvalid.conditions,
    optional_merged hdistinct hgeneration (fun n => scalar_int n.toInt) int64_read
      h.observedGeneration,
    optional_merged hdistinct hspec scalar_str (fun _ => rfl) h.lastAppliedSpec⟩
  rw [withDefault, Json.lookup_mergeFields hdistinct hstate (scalar_str _).present]
  exact read_text s'.state

end BridgeStatus

/-! ## Clients -/

namespace ClientStatus

variable {s s' : ClientStatus}

/-- The status is what is read from the fields. -/
structure Reads (fields : List (String × Json)) (s : ClientStatus) : Prop where
  state : withDefault fields "state" .active (fun v => (variant? v).bind ClientState.ofText?) =
    some s.state
  stateTransitions :
    withDefault fields "stateTransitions" ∅ (map? Instant.read) = some s.stateTransitions
  message : Readable.optional fields "message" text? = some s.message
  secretName : Readable.optional fields "secretName" text? = some s.secretName
  secretSource : Readable.optional fields "secretSource" text? = some s.secretSource

theorem read_iff (h : Distinct fields) : read (Json.obj fields) = some s ↔ Reads fields s := by
  obtain ⟨f, hf, hlookup⟩ := h.record?_eq
    ["state", "stateTransitions", "message", "secretName", "secretSource"]
  have hstate := withDefault_congr (hlookup "state" (by simp)) .active
    fun v => (variant? v).bind ClientState.ofText?
  have htimes := withDefault_congr (hlookup "stateTransitions" (by simp)) ∅ (map? Instant.read)
  have hmessage := optional_congr (hlookup "message" (by simp)) text?
  have hname := optional_congr (hlookup "secretName" (by simp)) text?
  have hsource := optional_congr (hlookup "secretSource" (by simp)) text?
  unfold read
  rw [hf]
  simp only [bind_eq_some]
  constructor
  · rintro ⟨_, hsome, _, h1, _, h2, _, h3, _, h4, _, h5, h⟩
    cases hsome
    cases h
    exact ⟨hstate.symm.trans h1, htimes.symm.trans h2, hmessage.symm.trans h3,
      hname.symm.trans h4, hsource.symm.trans h5⟩
  · intro h
    exact ⟨f, rfl, _, hstate.trans h.state, _, htimes.trans h.stateTransitions, _,
      hmessage.trans h.message, _, hname.trans h.secretName, _, hsource.trans h.secretSource, rfl⟩

theorem reads_initial : Reads [] initial := ⟨rfl, rfl, rfl, rfl, rfl⟩

theorem Reads.valid (h : Reads fields s) : ValidTimes s.stateTransitions :=
  validTimes_of_reads h.stateTransitions

/-- The states that have been entered stay. -/
def Grows (s s' : ClientStatus) : Prop :=
  ∀ k, s.stateTransitions.contains k = true → s'.stateTransitions.contains k = true

/-- The new status, but with every field it has cleared as it was before. -/
def onto (s' s : ClientStatus) : ClientStatus :=
  { s' with
    message := s'.message.or s.message
    secretName := s'.secretName.or s.secretName
    secretSource := s'.secretSource.or s.secretSource }

/-- The fields of the encoding. -/
def changes (s : ClientStatus) : List (String × Option Json) := [
  ("state", some (.str s.state.text)),
  ("stateTransitions", timesChange s.stateTransitions),
  ("message", s.message.map .str),
  ("secretName", s.secretName.map .str),
  ("secretSource", s.secretSource.map .str)]

theorem toJson_eq (s : ClientStatus) : s.toJson = Json.objOf s.changes := rfl

theorem nodup_changes (s : ClientStatus) : (s.changes.map (·.1)).Nodup := by
  simp [changes]

theorem read_text (state : ClientState) :
    (variant? (Json.str state.text)).bind ClientState.ofText? = some state := by
  cases state <;> decide

/-- **The fields after the patch.** -/
theorem Reads.merged (h : Reads fields s) (htidy : TidyTimes fields) (hgrows : s.Grows s')
    (hvalid : ValidTimes s'.stateTransitions) :
    Reads (mergeFields (s'.changes.filterMap fun e => e.2.map (e.1, ·)) fields) (s'.onto s) := by
  have hnodup := s'.nodup_changes
  have hdistinct := distinct_objOf hnodup
  obtain ⟨hstate, hchange⟩ := List.forall_mem_cons.mp (lookup_objOf hnodup)
  obtain ⟨htimes, hchange⟩ := List.forall_mem_cons.mp hchange
  obtain ⟨hmessage, hchange⟩ := List.forall_mem_cons.mp hchange
  obtain ⟨hname, hchange⟩ := List.forall_mem_cons.mp hchange
  obtain ⟨hsource, -⟩ := List.forall_mem_cons.mp hchange
  refine ⟨?_, times_merged hdistinct htimes htidy h.stateTransitions hgrows hvalid,
    optional_merged hdistinct hmessage scalar_str (fun _ => rfl) h.message,
    optional_merged hdistinct hname scalar_str (fun _ => rfl) h.secretName,
    optional_merged hdistinct hsource scalar_str (fun _ => rfl) h.secretSource⟩
  rw [withDefault, Json.lookup_mergeFields hdistinct hstate (scalar_str _).present]
  exact read_text s'.state

end ClientStatus

/-! ## Objects -/

/-- An object as it is stored: no field stands twice, neither in it nor in its status. -/
structure Tidy (fields : List (String × Json)) : Prop where
  distinct : Distinct fields
  status : ∀ v, lookup fields "status" = some v →
    ∃ sf, v = .obj sf ∧ Distinct sf ∧ TidyTimes sf

/-- The fields of the status of an object; a missing status has none. -/
def statusFields (fields : List (String × Json)) : List (String × Json) :=
  Json.targetFields ((lookup fields "status").getD .null)

theorem Tidy.statusFields (h : Tidy fields) :
    Distinct (statusFields fields) ∧ TidyTimes (statusFields fields) := by
  unfold BridgeOperator.statusFields
  cases hstatus : lookup fields "status" with
  | none => exact ⟨List.nodup_nil, fun _ => nofun⟩
  | some v =>
    obtain ⟨sf, rfl, hdistinct, htimes⟩ := h.status v hstatus
    exact ⟨hdistinct, htimes⟩

/-- The fields of an object after its status has been patched. -/
def patchedFields (changes : List (String × Option Json)) (fields : List (String × Json)) :
    List (String × Json) :=
  mergeFields [("status", Json.objOf changes)] fields

theorem mergePatch_status (changes : List (String × Option Json))
    (fields : List (String × Json)) :
    Json.mergePatch (.obj [("status", Json.objOf changes)]) (.obj fields) =
      .obj (patchedFields changes fields) := rfl

section

variable {changes : List (String × Option Json)}

theorem lookup_patchedFields_of_ne {k : String} (h : k ≠ "status") :
    lookup (patchedFields changes fields) k = lookup fields k :=
  Json.lookup_mergeFields_of_notMem (by simpa using h)

theorem lookup_patchedFields_status : lookup (patchedFields changes fields) "status" =
    some (.obj (mergeFields (changes.filterMap fun e => e.2.map (e.1, ·))
      (statusFields fields))) := by
  have hdistinct : Distinct [("status", Json.objOf changes)] :=
    List.nodup_cons.mpr ⟨List.not_mem_nil, List.nodup_nil⟩
  have hlookup : lookup [("status", Json.objOf changes)] "status" = some (Json.objOf changes) :=
    rfl
  exact Json.lookup_mergeFields hdistinct hlookup (Json.obj_ne_null _)

/-- A patched object is tidy again. -/
theorem Tidy.patched {m : SortedMap Instant} (h : Tidy fields)
    (hnodup : (changes.map (·.1)).Nodup) (htimes : ("stateTransitions", timesChange m) ∈ changes) :
    Tidy (patchedFields changes fields) := by
  refine ⟨h.distinct.mergeFields, fun v hv => ?_⟩
  rw [lookup_patchedFields_status] at hv
  cases hv
  obtain ⟨hdistinct, htidy⟩ := h.statusFields
  exact ⟨_, rfl, hdistinct.mergeFields,
    tidyTimes_merged (distinct_objOf hnodup) (lookup_objOf hnodup _ htimes) htidy⟩

end

end BridgeOperator
