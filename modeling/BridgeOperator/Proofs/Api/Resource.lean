import BridgeOperator.Proofs.Status.Persistence

/-!
The calls that change the finalizers of an object, request by request: the object is read, and the
whole list is written back as a merge patch. What such a patch does to a bridge or a client is that
it replaces the list and leaves the rest.
-/

namespace BridgeOperator.Api

open Json (Distinct)
open Json.mergePatch (mergeFields)
open Readable

/-! ## Lists of finalizers in objects -/

/-- The merge patch that makes the list the finalizers of an object. -/
def finalizersPatch (l : List String) : Json :=
  .obj [("metadata", .obj [("finalizers", Json.ofStrings l)])]

namespace Resource

variable {α : Type} {r : Resource α}

/-- The object can be read, and these are its finalizers. -/
def Holds (r : Resource α) (o : Json) (l : List String) : Prop :=
  ∃ fields a, o = .obj fields ∧ Distinct fields ∧ r.read o = some a ∧
    (r.metadata a).finalizers.getD [] = l

/-- A list that is merged into an object takes the place of the one it had. -/
def Replaces (r : Resource α) : Prop :=
  ∀ o l l', r.Holds o l → r.Holds (Json.mergePatch (finalizersPatch l') o) l'

theorem Holds.unique {o : Json} {l l' : List String} (h : r.Holds o l) (h' : r.Holds o l') :
    l = l' := by
  obtain ⟨fields, a, -, -, ha, rfl⟩ := h
  obtain ⟨fields', a', -, -, ha', rfl⟩ := h'
  rw [Option.some.inj (ha.symm.trans ha')]

end Resource

theorem value?_congr {f g : List (String × Json)} {k : String} (h : lookup f k = lookup g k) :
    Kube.value? f k = Kube.value? g k := by
  unfold lookup at h
  unfold Kube.value?
  cases hf : f.find? (fun e => e.1 = k) with
  | none =>
    cases hg : g.find? (fun e => e.1 = k) with
    | none => rfl
    | some e =>
      rw [hf, hg] at h
      cases h
  | some e =>
    cases hg : g.find? (fun e => e.1 = k) with
    | none =>
      rw [hf, hg] at h
      cases h
    | some e' =>
      obtain ⟨k, j⟩ := e
      obtain ⟨k', j'⟩ := e'
      rw [hf, hg] at h
      cases h
      cases j <;> rfl

theorem field?_congr {α : Type} {f g : List (String × Json)} {k : String}
    (h : lookup f k = lookup g k) (read : Json → Option α) :
    Kube.field? f k read = Kube.field? g k read := by
  unfold Kube.field?
  rw [value?_congr h]

theorem strings?_ofStrings (l : List String) : Kube.strings? (Json.ofStrings l) = some l :=
  mirrors_json.list_eq (fun s => (rfl : Json.str? (.str s) = some s)) l

/-- With other finalizers metadata is read as before but for the finalizers. -/
theorem metadata_replaced {fields : List (String × Json)} {m : Kube.Metadata} (l : List String)
    (h : Kube.Metadata.ofJson? (.obj fields) = some m) : ∃ m',
      Kube.Metadata.ofJson? (.obj (mergeFields [("finalizers", Json.ofStrings l)] fields)) =
        some m' ∧ m'.finalizers = some l := by
  let fields' := mergeFields [("finalizers", Json.ofStrings l)] fields
  have hsame : ∀ {β : Type} {k : String} {read : Json → Option β} {o : Option β},
      k ≠ "finalizers" → Kube.field? fields k read = some o →
      Kube.field? fields' k read = some o := by
    intro β k read o hk hread
    rw [← hread]
    exact field?_congr (Json.lookup_mergeFields_of_notMem (by simpa using hk)) read
  have hlist : Kube.field? fields' "finalizers" Kube.strings? = some (some l) := by
    have hgiven : lookup [("finalizers", Json.ofStrings l)] "finalizers" =
        some (Json.ofStrings l) := rfl
    have hlookup : lookup fields' "finalizers" = some (Json.ofStrings l) :=
      Json.lookup_mergeFields (by simp [Distinct]) hgiven nofun
    have hvalue := value?_congr (g := [("finalizers", Json.ofStrings l)]) hlookup
    unfold Kube.field?
    rw [hvalue]
    show (Kube.strings? (Json.ofStrings l)).map some = _
    rw [strings?_ofStrings]
    rfl
  unfold Kube.Metadata.ofJson? at h ⊢
  simp only [bind_eq_some] at h ⊢
  obtain ⟨_, hobj, name, hname, generateName, hgenerate, ns, hns, uid, huid, version, hversion,
    creation, hcreation, deletion, hdeletion, generation, hgeneration, _, -, labels, hlabels,
    annotations, hannotations, owners, howners, -⟩ := h
  obtain rfl := Option.some.inj hobj
  exact ⟨⟨name, generateName, ns, uid, version, creation, deletion, generation, some l, labels,
      annotations, owners, Kube.others Kube.Metadata.known fields'⟩,
    ⟨fields', rfl, name, hsame (by decide) hname, generateName, hsame (by decide) hgenerate,
      ns, hsame (by decide) hns, uid, hsame (by decide) huid,
      version, hsame (by decide) hversion, creation, hsame (by decide) hcreation,
      deletion, hsame (by decide) hdeletion, generation, hsame (by decide) hgeneration,
      some l, hlist, labels, hsame (by decide) hlabels,
      annotations, hsame (by decide) hannotations, owners, hsame (by decide) howners, rfl⟩, rfl⟩

/-- What is merged into a custom object replaces its finalizers and leaves its spec and status. -/
theorem custom_replaced {fields : List (String × Json)} {m : Kube.Metadata} (l : List String)
    (h : required fields "metadata" Kube.Metadata.ofJson? = some m) : ∃ fields',
      Json.mergePatch (finalizersPatch l) (.obj fields) = .obj fields' ∧
      (Distinct fields → Distinct fields') ∧
      (∀ k, k ≠ "metadata" → lookup fields' k = lookup fields k) ∧
      ∃ m', required fields' "metadata" Kube.Metadata.ofJson? = some m' ∧
        m'.finalizers = some l := by
  obtain ⟨j, hj, hm⟩ := Option.bind_eq_some_iff.mp h
  obtain ⟨metadata, hmetadata, -⟩ := bind_eq_some.mp hm
  obtain rfl : j = .obj metadata := by
    cases j <;> first | cases hmetadata; rfl | cases hmetadata
  obtain ⟨m', hm', hlist⟩ := metadata_replaced l hm
  refine ⟨mergeFields [("metadata", .obj [("finalizers", Json.ofStrings l)])] fields, rfl,
    Distinct.mergeFields, fun k hk => ?_, m', ?_, hlist⟩
  · exact Json.lookup_mergeFields_of_notMem (by simpa using hk)
  · have hlookup : lookup (mergeFields [("metadata", .obj [("finalizers", Json.ofStrings l)])]
        fields) "metadata" = _ :=
      Json.lookup_mergeFields (by simp [Distinct]) rfl nofun
    unfold required
    rw [hlookup, hj]
    exact hm'

/-- A resource is replaced that finds its metadata in their field and the rest elsewhere. -/
theorem replaces_of_fields {α : Type} {r : Resource α}
    (hmetadata : ∀ {fields a}, Distinct fields → r.read (.obj fields) = some a →
      required fields "metadata" Kube.Metadata.ofJson? = some (r.metadata a))
    (hrest : ∀ {fields fields' a m'}, Distinct fields → Distinct fields' →
      r.read (.obj fields) = some a → (∀ k, k ≠ "metadata" → lookup fields' k = lookup fields k) →
      required fields' "metadata" Kube.Metadata.ofJson? = some m' →
      ∃ a', r.read (.obj fields') = some a' ∧ r.metadata a' = m') : r.Replaces := by
  rintro o l l' ⟨fields, a, rfl, hdistinct, ha, -⟩
  obtain ⟨fields', hmerged, hkept, hsame, m', hm', hlist⟩ :=
    custom_replaced l' (hmetadata hdistinct ha)
  obtain ⟨a', ha', rfl⟩ := hrest hdistinct (hkept hdistinct) ha hsame hm'
  refine ⟨fields', a', hmerged, hkept hdistinct, ?_, ?_⟩
  · rw [hmerged]
    exact ha'
  · rw [hlist]
    rfl

theorem bridges_replaces : bridges.Replaces := by
  refine replaces_of_fields (fun hd hb => ((Bridge.ofJson?_iff hd).mp hb).1) ?_
  intro fields fields' b m' hd hd' hb hsame hm'
  obtain ⟨-, hspec, hstatus⟩ := (Bridge.ofJson?_iff hd).mp hb
  refine ⟨{ b with metadata := m' }, (Bridge.ofJson?_iff hd').mpr ⟨hm', ?_, ?_⟩, rfl⟩
  · exact (required_congr (hsame "spec" (by decide)) _).trans hspec
  · exact (optional_congr (hsame "status" (by decide)) _).trans hstatus

theorem clients_replaces : clients.Replaces := by
  refine replaces_of_fields (fun hd hc => ((Client.ofJson?_iff hd).mp hc).1) ?_
  intro fields fields' c m' hd hd' hc hsame hm'
  obtain ⟨-, hspec, hstatus⟩ := (Client.ofJson?_iff hd).mp hc
  refine ⟨{ c with metadata := m' }, (Client.ofJson?_iff hd').mpr ⟨hm', ?_, ?_⟩, rfl⟩
  · exact (required_congr (hsame "spec" (by decide)) _).trans hspec
  · exact (optional_congr (hsame "status" (by decide)) _).trans hstatus

/-! ## Calls, request by request -/

theorem send_run {α : Type} (request : Request) (read : Json → Option α) :
    (send request read).run = .call (.send request) fun response =>
      .done (response.success.bind (decode read)) := by
  refine congrArg (Prog.call _) (funext fun response => ?_)
  show ((liftM (Response.success response) : ApiWork String) >>= fun text =>
    (liftM (decode read text) : ApiWork α)).run = _
  cases Response.success response <;> rfl

theorem decoded_eq_ok {α : Type} {read : Json → Option α} {response : Response} {text : String}
    {o : Json} {a : α} (hsuccess : response.success = .ok text)
    (hparse : Json.parse? text = some o) (hread : read o = some a) :
    response.success.bind (decode read) = .ok a := by
  unfold decode
  rw [hsuccess]
  simp only [Except.bind]
  rw [hparse, Option.bind_some, hread]

namespace Resource

variable {α : Type} {r : Resource α} {ns name own path : String}

/-- What a response is read as. -/
def found (r : Resource α) (response : Response) : Except Error α :=
  response.success.bind (decode r.read)

theorem found_eq_ok {response : Response} {text : String} {o : Json} {a : α}
    (hsuccess : response.success = .ok text) (hparse : Json.parse? text = some o)
    (hread : r.read o = some a) : r.found response = .ok a :=
  decoded_eq_ok hsuccess hparse hread

theorem found_eq_error {response : Response} {e : Error} (h : response.success = .error e) :
    r.found response = .error e := by
  unfold found
  rw [h]
  rfl

/-- The request that reads an object. -/
def getRequest (path : String) : Request := ⟨.get, path, [], none, none⟩

/-- The request that writes a list of finalizers. -/
def putRequest (path : String) (l : List String) : Request :=
  ⟨.patch, path ++ "", [("fieldManager", fieldManager)], some mergePatch, some (finalizersPatch l)⟩

/-- What is left of a call once the list has been read: a request that puts another list. -/
def putting (r : Resource α) (path : String) (l : List String) :
    Prog ApiCall (Except Error Unit) :=
  .call (.send (putRequest path l)) fun response =>
    .done ((r.found response).map fun _ => ())

theorem get_run (h : r.path ns name = .ok path) :
    (r.get ns name).run = .call (.send (getRequest path)) fun response =>
      .done (r.found response) := by
  unfold get
  rw [h]
  exact send_run _ _

/-- The server says that there is no such object. -/
def saysMissing : Error → Bool
  | .kube (.api s) => s.reason = "NotFound"
  | _ => false

/-- What a response is read as when there may be no such object. -/
def found? (r : Resource α) (response : Response) : Except Error (Option α) :=
  ((r.found response).map some).tryCatch fun e => if saysMissing e then .ok none else .error e

theorem get?_run (h : r.path ns name = .ok path) :
    (r.get? ns name).run = .call (.send (getRequest path)) fun response =>
      .done (r.found? response) := by
  unfold get?
  rw [Attempt.run_outcome_bind, get_run h]
  refine congrArg (Prog.call _) (funext fun response => ?_)
  show (Prog.done (r.found response)).bind _ = .done (r.found? response)
  unfold found?
  cases r.found response with
  | ok a => rfl
  | error e =>
    cases e with
    | kube k =>
      cases k with
      | api s =>
        show (if s.reason = "NotFound" then return none else throw (.kube (.api s)) :
          ApiWork (Option α)).run = .done (if decide (s.reason = "NotFound") then _ else _)
        by_cases hs : s.reason = "NotFound" <;> simp [hs] <;> rfl
      | _ => rfl
    | _ => rfl

/-- The request that deletes an object. -/
def deleteRequest (path : String) : Request :=
  ⟨.delete, path, [], some plainJson, some (.obj [("propagationPolicy", .str "Background")])⟩

/-- A deletion is answered with a status or with the object. -/
def readDeleted (r : Resource α) (j : Json) : Option Unit :=
  if (j.field? "kind").bind Json.str? = some "Status" then readDeletion j
  else (r.read j).map fun _ => ()

/-- What the answer to a deletion is read as: whether there was such an object. -/
def deleted (r : Resource α) (response : Response) : Except Error Bool :=
  ((response.success.bind (decode r.readDeleted)).map fun _ => true).tryCatch fun e =>
    if e.isNotFound then .ok false else .error e

theorem delete_run (h : r.path ns name = .ok path) :
    (r.delete ns name).run = .call (.send (deleteRequest path)) fun response =>
      .done (r.deleted response) := by
  unfold delete
  rw [h]
  show (Attempt.outcome (send (deleteRequest path) r.readDeleted) >>= _ : ApiWork Bool).run = _
  rw [Attempt.run_outcome_bind, send_run]
  refine congrArg (Prog.call _) (funext fun response => ?_)
  show (Prog.done (response.success.bind (decode r.readDeleted))).bind _ =
    Prog.done (r.deleted response)
  unfold deleted
  cases response.success.bind (decode r.readDeleted) with
  | ok u => rfl
  | error e =>
    show (if e.isNotFound then pure false else throw e : ApiWork Bool).run =
      Prog.done (if e.isNotFound then .ok false else .error e)
    split <;> rfl

theorem putting_eq (h : r.path ns name = .ok path) (l : List String) :
    (r.patchFinalizers ns name l).run = r.putting path l := by
  unfold patchFinalizers merge
  rw [h]
  show ((send (putRequest path l) r.read).run >>= ExceptT.bindCont fun _ => pure ()) = _
  rw [send_run]
  refine congrArg (Prog.call _) (funext fun response => ?_)
  show ExceptT.bindCont _ (r.found response) = Prog.done ((r.found response).map fun _ => ())
  cases r.found response <;> rfl

/-- What the operator does to the finalizers of an object. -/
inductive Change where
  | add
  | remove
  deriving DecidableEq

/-- The list a call puts, given the one it has read. -/
def Change.apply (own : String) (l : List String) : Change → List String
  | .add => l ++ [own]
  | .remove => l.filter (· ≠ own)

/-- A call as the operator makes it. -/
def change (r : Resource α) (ns name own : String) : Change → Prog ApiCall (Except Error Unit)
  | .add => (r.addFinalizer ns name own).run
  | .remove => (r.removeFinalizer ns name own).run

/-- What is left of a call after the answer to its first request. -/
def afterGet (r : Resource α) (path own : String) (c : Change) :
    Except Error α → Prog ApiCall (Except Error Unit)
  | .ok a =>
    let l := (r.metadata a).finalizers.getD []
    if c = .add ∧ own ∈ l then .done (.ok ()) else r.putting path (c.apply own l)
  | .error e => if c = .remove ∧ saysMissing e = true then .done (.ok ()) else .done (.error e)

theorem change_run (h : r.path ns name = .ok path) (c : Change) :
    r.change ns name own c = .call (.send (getRequest path)) fun response =>
      r.afterGet path own c (r.found response) := by
  cases c with
  | add =>
    show ((r.get ns name).run >>= ExceptT.bindCont fun a =>
      if !(r.metadata a).hasFinalizer own then
        r.patchFinalizers ns name (((r.metadata a).finalizers.getD []) ++ [own])
      else pure ()) = _
    rw [get_run h]
    refine congrArg (Prog.call _) (funext fun response => ?_)
    show ExceptT.bindCont _ (r.found response) = r.afterGet path own .add (r.found response)
    cases r.found response with
    | error e => rfl
    | ok a =>
      show (if !((r.metadata a).finalizers.getD []).contains own then _ else _ : ApiWork Unit).run =
        if _ then _ else _
      simp only [true_and, Change.apply]
      by_cases hmem : own ∈ (r.metadata a).finalizers.getD []
      · rw [if_pos hmem, if_neg (by simpa using hmem)]
        rfl
      · rw [if_neg hmem, if_pos (by simpa using hmem), putting_eq h]
  | remove =>
    show ((r.get? ns name).run >>= ExceptT.bindCont _) = _
    rw [get?_run h]
    refine congrArg (Prog.call _) (funext fun response => ?_)
    show ExceptT.bindCont _ (r.found? response) = _
    unfold found?
    cases r.found response with
    | error e =>
      show ExceptT.bindCont _ (if saysMissing e = true then .ok none else .error e) =
        if _ then _ else _
      by_cases hmissing : saysMissing e = true
      · rw [if_pos hmissing, if_pos ⟨rfl, hmissing⟩]
        rfl
      · rw [if_neg hmissing, if_neg fun h => hmissing h.2]
        rfl
    | ok a =>
      show (r.patchFinalizers ns name _).run = _
      rw [afterGet, if_neg (by simp), putting_eq h]
      rfl

theorem path_eq_ok (h : name ≠ "") : r.path ns name = .ok s!"{r.inNamespace ns}/{name}" := by
  unfold path
  rw [if_neg (by simpa using h)]

theorem path_eq_error {e : Error} (h : r.path ns name = .error e) : e = .kube .unnamedObject := by
  unfold path at h
  split at h <;> cases h
  rfl

theorem change_run_error {e : Error} (h : r.path ns name = .error e) (c : Change) :
    r.change ns name own c = .done (.error e) := by
  obtain rfl := path_eq_error h
  cases c with
  | add =>
    unfold change addFinalizer get
    rw [h]
    rfl
  | remove =>
    unfold change removeFinalizer get? get
    rw [h]
    rfl

end Resource

end BridgeOperator.Api
