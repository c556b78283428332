import BridgeOperator.Api.Operator
import BridgeOperator.Proofs.Program
import BridgeOperator.Proofs.Status.Patch
import BridgeOperator.Proofs.World.Basic

/-!
The stored objects of bridges and clients, and a server that patches them. What the operator reads
is decoded from the object, and its statuses reach the object by merge patches alone; everybody else
may change whatever is not the status.
-/

namespace BridgeOperator

open Json (Distinct)
open Json.mergePatch (mergeFields)
open Readable

variable {fields : List (String × Json)}

/-! ## Decoding -/

theorem customParts?_eq (h : Distinct fields) : ∃ f, Kube.customParts? (.obj fields) = some f ∧
    ∀ k ∈ ["metadata", "spec", "status"], lookup f k = lookup fields k :=
  h.record?_eq _

theorem Bridge.ofJson?_iff (h : Distinct fields) {x : Bridge} :
    Bridge.ofJson? (.obj fields) = some x ↔
      required fields "metadata" Kube.Metadata.ofJson? = some x.metadata ∧
      required fields "spec" BridgeSpec.read = some x.spec ∧
      Readable.optional fields "status" BridgeStatus.read = some x.status := by
  obtain ⟨f, hf, hlookup⟩ := customParts?_eq h
  have hmetadata := required_congr (hlookup "metadata" (by simp)) Kube.Metadata.ofJson?
  have hspec := required_congr (hlookup "spec" (by simp)) BridgeSpec.read
  have hstatus := optional_congr (hlookup "status" (by simp)) BridgeStatus.read
  unfold Bridge.ofJson?
  rw [hf, ← hmetadata, ← hspec, ← hstatus]
  simp only [bind_eq_some]
  constructor
  · rintro ⟨_, hsome, _, h1, _, h2, _, h3, h⟩
    cases hsome
    cases h
    exact ⟨h1, h2, h3⟩
  · rintro ⟨h1, h2, h3⟩
    exact ⟨f, rfl, _, h1, _, h2, _, h3, rfl⟩

theorem Client.ofJson?_iff (h : Distinct fields) {x : Client} :
    Client.ofJson? (.obj fields) = some x ↔
      required fields "metadata" Kube.Metadata.ofJson? = some x.metadata ∧
      required fields "spec" ClientSpec.read = some x.spec ∧
      Readable.optional fields "status" ClientStatus.read = some x.status := by
  obtain ⟨f, hf, hlookup⟩ := customParts?_eq h
  have hmetadata := required_congr (hlookup "metadata" (by simp)) Kube.Metadata.ofJson?
  have hspec := required_congr (hlookup "spec" (by simp)) ClientSpec.read
  have hstatus := optional_congr (hlookup "status" (by simp)) ClientStatus.read
  unfold Client.ofJson?
  rw [hf, ← hmetadata, ← hspec, ← hstatus]
  simp only [bind_eq_some]
  constructor
  · rintro ⟨_, hsome, _, h1, _, h2, _, h3, h⟩
    cases hsome
    cases h
    exact ⟨h1, h2, h3⟩
  · rintro ⟨h1, h2, h3⟩
    exact ⟨f, rfl, _, h1, _, h2, _, h3, rfl⟩

/-- The status of an object is read from the fields of its status. -/
theorem reads_of_optional {S : Type} {read : Json → Option S} {o : Option S} {initial : S}
    (Reads : List (String × Json) → S → Prop)
    (hread : ∀ {sf s}, Distinct sf → (read (.obj sf) = some s ↔ Reads sf s))
    (hinitial : Reads [] initial) (htidy : Tidy fields)
    (h : Readable.optional fields "status" read = some o) :
    Reads (statusFields fields) (o.getD initial) := by
  unfold statusFields
  unfold Readable.optional at h
  cases hstatus : lookup fields "status" with
  | none =>
    rw [hstatus] at h
    cases h
    exact hinitial
  | some v =>
    obtain ⟨sf, rfl, hdistinct, -⟩ := htidy.status v hstatus
    rw [hstatus] at h
    obtain ⟨s, hs, rfl⟩ := Option.map_eq_some_iff.mp h
    exact (hread hdistinct).mp hs

theorem Bridge.reads {x : Bridge} (htidy : Tidy fields)
    (h : Bridge.ofJson? (.obj fields) = some x) :
    x.statusOrInitial.Reads (statusFields fields) :=
  reads_of_optional BridgeStatus.Reads BridgeStatus.read_iff BridgeStatus.reads_initial htidy
    ((ofJson?_iff htidy.distinct).mp h).2.2

theorem Client.reads {x : Client} (htidy : Tidy fields)
    (h : Client.ofJson? (.obj fields) = some x) :
    (x.status.getD .initial).Reads (statusFields fields) :=
  reads_of_optional ClientStatus.Reads ClientStatus.read_iff ClientStatus.reads_initial htidy
    ((ofJson?_iff htidy.distinct).mp h).2.2

/-- A patched bridge has the new status, but for what that has cleared. -/
theorem Bridge.ofJson?_patched {x : Bridge} {s : BridgeStatus} (htidy : Tidy fields)
    (h : Bridge.ofJson? (.obj fields) = some x) (hgrows : x.statusOrInitial.Grows s)
    (hvalid : s.Valid) :
    Bridge.ofJson? (.obj (patchedFields s.changes fields)) =
      some { x with status := some (s.onto x.statusOrInitial) } := by
  obtain ⟨hmetadata, hspec, -⟩ := (ofJson?_iff htidy.distinct).mp h
  obtain ⟨hdistinct, htimes⟩ := htidy.statusFields
  have hstatus := (BridgeStatus.read_iff hdistinct.mergeFields).mpr
    ((Bridge.reads htidy h).merged htimes hgrows hvalid)
  refine (ofJson?_iff htidy.distinct.mergeFields).mpr ⟨?_, ?_, ?_⟩
  · exact (required_congr (lookup_patchedFields_of_ne (by simp)) _).trans hmetadata
  · exact (required_congr (lookup_patchedFields_of_ne (by simp)) _).trans hspec
  · rw [Readable.optional, ← patchedFields, lookup_patchedFields_status]
    exact congrArg (Option.map some) hstatus

/-- A patched client has the new status, but for what that has cleared. -/
theorem Client.ofJson?_patched {x : Client} {s : ClientStatus} (htidy : Tidy fields)
    (h : Client.ofJson? (.obj fields) = some x) (hgrows : (x.status.getD .initial).Grows s)
    (hvalid : ValidTimes s.stateTransitions) :
    Client.ofJson? (.obj (patchedFields s.changes fields)) =
      some { x with status := some (s.onto (x.status.getD .initial)) } := by
  obtain ⟨hmetadata, hspec, -⟩ := (ofJson?_iff htidy.distinct).mp h
  obtain ⟨hdistinct, htimes⟩ := htidy.statusFields
  have hstatus := (ClientStatus.read_iff hdistinct.mergeFields).mpr
    ((Client.reads htidy h).merged htimes hgrows hvalid)
  refine (ofJson?_iff htidy.distinct.mergeFields).mpr ⟨?_, ?_, ?_⟩
  · exact (required_congr (lookup_patchedFields_of_ne (by simp)) _).trans hmetadata
  · exact (required_congr (lookup_patchedFields_of_ne (by simp)) _).trans hspec
  · rw [Readable.optional, ← patchedFields, lookup_patchedFields_status]
    exact congrArg (Option.map some) hstatus

/-! ## The server -/

namespace Api

/-- How a server answers about one object: a merge patch is merged into it, also if the answer says
or seems to say that it was not. -/
def Serves : (c : ApiCall) → Json → Answer c → Json → Prop
  | .send request, o, response, o' =>
    if request.method = .patch ∧ request.contentType = some mergePatch then
      ∃ patch, request.body = some patch ∧
        Settles (Json.mergePatch patch o) o response.success o'
    else o' = o
  | .now, o, _, o' | .sleep _, o, _, o' | .fresh, o, _, o' => o' = o

theorem exec_sendText {request : Request} {o o' : Json} {r : Except Error String} :
    (sendText request).run.Exec Serves o r o' ↔
      ∃ response, Serves (.send request) o response o' ∧ r = response.success := by
  unfold sendText
  rw [Attempt.exec_bind]
  simp only [Attempt.exec_always, Prog.exec_perform]
  have hlift : ∀ {v r : Except Error String} {o o' : Json},
      (liftM v : ApiWork String).run.Exec Serves o r o' ↔ r = v ∧ o' = o :=
    Prog.exec_pure
  constructor
  · rintro (⟨response, o1, ⟨_, hserve, heq⟩, h⟩ | ⟨e, ⟨_, -, heq⟩, -⟩)
    · obtain rfl := Except.ok.inj heq
      obtain ⟨rfl, rfl⟩ := hlift.mp h
      exact ⟨response, hserve, rfl⟩
    · cases heq
  · rintro ⟨response, hserve, rfl⟩
    exact .inl ⟨response, o', ⟨response, hserve, rfl⟩, hlift.mpr ⟨rfl, rfl⟩⟩

/-- A request that is answered well has been carried out. -/
theorem exec_send {α : Type} {request : Request} {read : Json → Option α} {o o' : Json}
    {r : Except Error α} (h : (send request read).run.Exec Serves o r o') :
    ∃ response, Serves (.send request) o response o' ∧
      ((∃ e, r = .error e) ∨ ∃ text, response.success = .ok text) := by
  unfold send at h
  rcases Attempt.exec_bind.mp h with ⟨text, o1, hsend, hdecode⟩ | ⟨e, hsend, rfl⟩
  · obtain ⟨response, hserve, heq⟩ := exec_sendText.mp hsend
    obtain ⟨-, rfl⟩ := Prog.exec_pure.mp hdecode
    exact ⟨response, hserve, .inr ⟨text, heq.symm⟩⟩
  · obtain ⟨response, hserve, -⟩ := exec_sendText.mp hsend
    exact ⟨response, hserve, .inl ⟨e, rfl⟩⟩

/-- A status reaches the object by a merge patch of its own field. -/
theorem settles_of_patchStatus {α : Type} {resource : Resource α} {ns name : String}
    {status o o' : Json} {r : Except Error Unit}
    (h : (resource.patchStatus ns name status).run.Exec Serves o r o') :
    Settles (Json.mergePatch (.obj [("status", status)]) o) o r o' := by
  unfold Resource.patchStatus Resource.merge at h
  cases hpath : resource.path ns name with
  | error e =>
    rw [hpath] at h
    obtain ⟨rfl, rfl⟩ := Prog.exec_pure.mp h
    exact .inr ⟨⟨e, rfl⟩, rfl⟩
  | ok path =>
    rw [hpath] at h
    obtain ⟨request, hrequest⟩ : ∃ request : Request, request = ⟨.patch, path ++ "/status",
      [("fieldManager", fieldManager)], some mergePatch, some (.obj [("status", status)])⟩ :=
      ⟨_, rfl⟩
    have hsend : (send request resource.read >>= fun _ => pure () : ApiWork Unit).run.Exec
        Serves o r o' := by
      rw [hrequest]
      exact h
    have hserve : ∃ response, Serves (.send request) o response o' ∧
        ((∃ e, r = .error e) ∨ ∃ text, response.success = .ok text) := by
      rcases Attempt.exec_bind.mp hsend with ⟨a, o1, hwork, hpure⟩ | ⟨e, hwork, hr⟩
      · obtain ⟨-, rfl⟩ := Prog.exec_pure.mp hpure
        obtain ⟨response, hserve, ⟨e, he⟩ | htext⟩ := exec_send hwork
        · cases he
        · exact ⟨response, hserve, .inr htext⟩
      · obtain ⟨response, hserve, -⟩ := exec_send hwork
        exact ⟨response, hserve, .inl ⟨e, hr⟩⟩
    obtain ⟨response, hserve, hanswer⟩ := hserve
    have hmerge : request.method = .patch ∧ request.contentType = some mergePatch := by
      rw [hrequest]
      exact ⟨rfl, rfl⟩
    simp only [Serves, if_pos hmerge] at hserve
    obtain ⟨patch, hpatch, hsettles⟩ := hserve
    rw [hrequest] at hpatch
    cases hpatch
    rcases hsettles with rfl | ⟨⟨e, he⟩, rfl⟩
    · exact .inl rfl
    · rcases hanswer with hr | ⟨text, htext⟩
      · exact .inr ⟨hr, rfl⟩
      · rw [htext] at he
        cases he

/-- A patch that is answered with an object has been carried out. -/
theorem exec_patchStatus {α : Type} {resource : Resource α} {ns name : String} {status o : Json}
    {a : α} (text : String) (hname : name.isEmpty = false)
    (htext : (Json.parse? text).bind resource.read = some a) :
    (resource.patchStatus ns name status).run.Exec Serves o (.ok ())
      (Json.mergePatch (.obj [("status", status)]) o) := by
  obtain ⟨path, hpath⟩ : ∃ path, resource.path ns name = .ok path := by
    unfold Resource.path
    rw [if_neg (by simp [hname])]
    exact ⟨_, rfl⟩
  have hserve : ∀ query, Serves (.send ⟨.patch, path ++ "/status", query, some mergePatch,
      some (.obj [("status", status)])⟩) o (.text 200 text)
      (Json.mergePatch (.obj [("status", status)]) o) := by
    intro query
    simp only [Serves, and_self, if_true]
    exact ⟨_, rfl, .inl rfl⟩
  unfold Resource.patchStatus Resource.merge
  rw [hpath]
  refine Attempt.exec_ok (a := a) ?_ (.done _ _)
  unfold send
  refine Attempt.exec_ok (exec_sendText.mpr ⟨.text 200 text, hserve _, rfl⟩) ?_
  refine Prog.exec_pure.mpr ⟨?_, rfl⟩
  rw [decode, htext]
  rfl

end Api

/-- Somebody else may have changed the object, which can still be read, but not its status. -/
structure Untouched {α : Type} (read : Json → Option α) (fields fields' : List (String × Json)) :
    Prop where
  distinct : Distinct fields'
  status : lookup fields' "status" = lookup fields "status"
  readable : ∃ a, read (.obj fields') = some a

theorem Untouched.tidy {α : Type} {read : Json → Option α} {fields' : List (String × Json)}
    (h : Untouched read fields fields') (htidy : Tidy fields) : Tidy fields' :=
  ⟨h.distinct, h.status ▸ htidy.status⟩

/-- The objects that come about: made without a status, changed by others, and handed from one pass
to the next. A pass begins with the object as it is then, and may end anywhere. -/
inductive Reachable {α : Type} (read : Json → Option α)
    (Pass : α → List (String × Json) → List (String × Json) → Prop) :
    List (String × Json) → Prop
  | made {fields : List (String × Json)} {a : α} : Distinct fields →
    lookup fields "status" = none → read (.obj fields) = some a → Reachable read Pass fields
  | changed {fields fields' : List (String × Json)} : Reachable read Pass fields →
    Untouched read fields fields' → Reachable read Pass fields'
  | passed {fields fields' : List (String × Json)} {a : α} : Reachable read Pass fields →
    read (.obj fields) = some a → Pass a fields fields' → Reachable read Pass fields'

end BridgeOperator
