import BridgeOperator.Api.Session
import BridgeOperator.Proofs.Api.Resource
import BridgeOperator.Proofs.Deletion
import BridgeOperator.Proofs.Json.RoundTrip

/-!
What becomes of the bridges of a client that is deleted, request by request. The bridges of its
namespace are listed and those of the client deleted one after the other, until one cannot be
deleted; then the client is let go all the same. So there is a request for each of its bridges
exactly if none of them fails but the last (`Client.TakesAlong`).
-/

namespace BridgeOperator

/-! ## Calls that take several requests -/

namespace Api

theorem Session.run_eventsNamespace {α : Type} (p : Prog ApiCall α) (s : Session) :
    (p.run answer s).2.eventsNamespace = s.eventsNamespace := by
  induction p generalizing s with
  | done a => rfl
  | call c next ih =>
    refine (ih _ _).trans ?_
    cases c with
    | send r =>
      dsimp only
      split <;> rfl
    | now => rfl
    | sleep duration => rfl
    | fresh => rfl

/-- This is how a session runs what is done to a client. -/
theorem Session.run_answerClient {α : Type} (p : Prog ClientCall α) (s : Session) :
    p.run answerClient s = (p.through (performClient s.eventsNamespace)).run answer s := by
  induction p generalizing s with
  | done a => rfl
  | call c next ih =>
    rw [Prog.through, Prog.run_bind]
    refine (ih _ _).trans ?_
    show (Prog.through (performClient
      ((performClient s.eventsNamespace c).run answer s).2.eventsNamespace) _).run _ _ = _
    rw [run_eventsNamespace]

theorem yields_send {α β : Type} (request : Request) (read : Json → Option α)
    (f : α → ApiWork β) (Q : Except Error β → Log ApiCall → Prop) :
    (send request read >>= f).run.Yields Q ↔ ∀ response : Response,
      Attempt.thenYields f Q (response.success.bind (decode read)) [⟨.send request, response⟩] := by
  rw [Attempt.yields_bind, send_run]
  exact Iff.rfl

theorem yields_delete {α β : Type} {r : Resource α} {ns name path : String}
    (h : r.path ns name = .ok path) (f : Bool → ApiWork β)
    (Q : Except Error β → Log ApiCall → Prop) :
    (r.delete ns name >>= f).run.Yields Q ↔ ∀ response : Response,
      Attempt.thenYields f Q (r.deleted response)
        [⟨.send (Resource.deleteRequest path), response⟩] := by
  rw [Attempt.yields_bind, Resource.delete_run h]
  exact Iff.rfl

/-! ## Deleting bridges one after the other -/

open Resource (deleteRequest getRequest)

/-- The request that deletes a bridge. -/
def deletion (ns name : String) : Request := deleteRequest s!"{bridges.inNamespace ns}/{name}"

/-- The bridge was to be deleted. -/
def Tried (ns name : String) (w : Log ApiCall) : Prop :=
  ∃ response, ⟨.send (deletion ns name), response⟩ ∈ w

/-- The call deletes something. -/
def ApiCall.deletes : ApiCall → Bool
  | .send r => r.method = .delete
  | _ => false

/-- Of the deletions that are asked for, these fail. -/
def Refuses (ns : String) (fails : String → Prop) (w : Log ApiCall) : Prop :=
  ∀ name response, ⟨.send (deletion ns name), response⟩ ∈ w →
    ((∃ e, bridges.deleted response = .error e) ↔ fails name)

variable {ns : String} {fails : String → Prop}

theorem deletion_inj {name name' : String} :
    (deletion ns name).path = (deletion ns name').path ↔ name = name' := by
  simp [deletion, deleteRequest, toString, String.append_assoc]

theorem tried_cons {n name : String} {response : Response} {w : Log ApiCall} :
    Tried ns name (⟨.send (deletion ns n), response⟩ :: w) ↔ name = n ∨ Tried ns name w := by
  constructor
  · rintro ⟨response', hmem⟩
    rcases List.mem_cons.mp hmem with heq | hmem
    · have hrequest := ApiCall.send.inj (congrArg Sigma.fst heq)
      exact .inl (deletion_inj.mp (congrArg Request.path hrequest))
    · exact .inr ⟨response', hmem⟩
  · rintro (rfl | ⟨response', hmem⟩)
    · exact ⟨response, List.mem_cons_self⟩
    · exact ⟨response', List.mem_cons_of_mem _ hmem⟩

theorem Refuses.of_subset {w w' : Log ApiCall} (h : Refuses ns fails w) (hw : w' ⊆ w) :
    Refuses ns fails w' :=
  fun name response hmem => h name response (hw hmem)

theorem not_tried {w : Log ApiCall} (h : ∀ e ∈ w, e.1.deletes = false) (name : String) :
    ¬ Tried ns name w := by
  rintro ⟨response, hmem⟩
  cases h _ hmem

theorem not_tried_nil (ns name : String) : ¬ Tried ns name [] :=
  not_tried (by simp) name

theorem tried_append {name : String} {w w' : Log ApiCall} :
    Tried ns name (w ++ w') ↔ Tried ns name w ∨ Tried ns name w' := by
  unfold Tried
  simp only [List.mem_append, exists_or]

/-- Going through the names, one comes to this one. There is no going on from a name that fails,
and no request for something without a name. -/
inductive Reached (fails : String → Prop) : List String → String → Prop where
  | here {name : String} (rest : List String) : name ≠ "" → Reached fails (name :: rest) name
  | later {name found : String} {rest : List String} : name ≠ "" → ¬ fails name →
    Reached fails rest found → Reached fails (name :: rest) found

theorem reached_cons {n name : String} {rest : List String} (hn : n ≠ "") :
    Reached fails (n :: rest) name ↔ name = n ∨ ¬ fails n ∧ Reached fails rest name := by
  constructor
  · intro h
    cases h with
    | here _ _ => exact .inl rfl
    | later _ hok h => exact .inr ⟨hok, h⟩
  · rintro (rfl | ⟨hok, h⟩)
    · exact .here rest hn
    · exact .later hn hok h

theorem reached_iff {names : List String} {name : String} :
    Reached fails names name ↔ name ≠ "" ∧ ∃ before after, names = before ++ name :: after ∧
      ∀ q ∈ before, q ≠ "" ∧ ¬ fails q := by
  constructor
  · intro h
    induction h with
    | here rest hn => exact ⟨hn, [], rest, rfl, by simp⟩
    | @later n found rest hn hok _ ih =>
      obtain ⟨hfound, before, after, rfl, hbefore⟩ := ih
      exact ⟨hfound, n :: before, after, rfl, List.forall_mem_cons.mpr ⟨⟨hn, hok⟩, hbefore⟩⟩
  · rintro ⟨hname, before, after, rfl, hbefore⟩
    induction before with
    | nil => exact .here after hname
    | cons n before ih =>
      obtain ⟨⟨hn, hok⟩, hbefore⟩ := List.forall_mem_cons.mp hbefore
      exact .later hn hok (ih hbefore)

/-- One comes to all names if none fails but the last. -/
theorem all_reached_iff (fails : String → Prop) {names : List String} (hnodup : names.Nodup)
    (hnamed : ∀ n ∈ names, n ≠ "") :
    (∀ n ∈ names, Reached fails names n) ↔ ∀ n ∈ names.dropLast, ¬ fails n := by
  induction names with
  | nil => simp
  | cons n rest ih =>
    obtain ⟨hnotMem, hnodup⟩ := List.nodup_cons.mp hnodup
    obtain ⟨hn, hnamed⟩ := List.forall_mem_cons.mp hnamed
    have hrest : ∀ m ∈ rest, (Reached fails (n :: rest) m ↔ ¬ fails n ∧ Reached fails rest m) := by
      intro m hm
      have hne : m ≠ n := by
        rintro rfl
        exact hnotMem hm
      rw [reached_cons hn, or_iff_right hne]
    -- Whether the last one fails makes no difference, so it is a case of its own.
    cases rest with
    | nil => simpa using Reached.here [] hn
    | cons m rest =>
      have hlast : (n :: m :: rest).dropLast = n :: (m :: rest).dropLast := rfl
      rw [hlast]
      constructor
      · intro h
        obtain ⟨-, h⟩ := List.forall_mem_cons.mp h
        refine List.forall_mem_cons.mpr ⟨?_, (ih hnodup hnamed).mp fun x hx => ?_⟩
        · exact ((hrest m List.mem_cons_self).mp (h m List.mem_cons_self)).1
        · exact ((hrest x hx).mp (h x hx)).2
      · intro h
        obtain ⟨hok, h⟩ := List.forall_mem_cons.mp h
        refine List.forall_mem_cons.mpr ⟨.here _ hn, fun x hx => ?_⟩
        exact (hrest x hx).mpr ⟨hok, (ih hnodup hnamed).mpr h x hx⟩

/-- The bridges that were tried are those with the names one comes to. -/
structure Attempts (ns : String) (names : List String) (w : Log ApiCall) : Prop where
  only : ∀ e ∈ w, ∃ n ∈ names, e.1 = .send (deletion ns n)
  tried_iff : ∀ fails, Refuses ns fails w → ∀ name, Tried ns name w ↔ Reached fails names name

theorem Attempts.nil (ns : String) : Attempts ns [] [] where
  only := by simp
  tried_iff _ _ name := iff_of_false (not_tried_nil ns name) nofun

theorem Attempts.unnamed (ns : String) (rest : List String) : Attempts ns ("" :: rest) [] where
  only := by simp
  tried_iff fails _ name := by
    refine iff_of_false (not_tried_nil ns name) fun h => ?_
    cases h with
    | here _ hn => exact hn rfl
    | later hn _ _ => exact hn rfl

section

variable {n : String} {rest : List String} {response : Response}

theorem Attempts.failed {e : Error} (hn : n ≠ "") (h : bridges.deleted response = .error e) :
    Attempts ns (n :: rest) [⟨.send (deletion ns n), response⟩] where
  only := List.forall_mem_singleton.mpr ⟨n, List.mem_cons_self, rfl⟩
  tried_iff fails hrefuses name := by
    have hfails : fails n := (hrefuses n response List.mem_cons_self).mp ⟨e, h⟩
    rw [tried_cons, reached_cons hn]
    exact or_congr_right (iff_of_false (not_tried_nil ns name) fun h => h.1 hfails)

theorem Attempts.deleted {existed : Bool} {w : Log ApiCall} (hn : n ≠ "")
    (h : bridges.deleted response = .ok existed) (hw : Attempts ns rest w) :
    Attempts ns (n :: rest) (⟨.send (deletion ns n), response⟩ :: w) where
  only := by
    refine List.forall_mem_cons.mpr ⟨⟨n, List.mem_cons_self, rfl⟩, fun e he => ?_⟩
    obtain ⟨m, hm, heq⟩ := hw.only e he
    exact ⟨m, List.mem_cons_of_mem _ hm, heq⟩
  tried_iff fails hrefuses name := by
    have hok : ¬ fails n := by
      intro hfails
      obtain ⟨e, he⟩ := (hrefuses n response List.mem_cons_self).mpr hfails
      cases h.symm.trans he
    rw [tried_cons, reached_cons hn,
      hw.tried_iff fails (hrefuses.of_subset (List.subset_cons_self _ _)) name]
    exact or_congr_right (iff_and_self.mpr fun _ => hok)

end

theorem yields_deleteBridges (ns : String) (names : List String) :
    (deleteBridges ns names).run.Yields fun _ w => Attempts ns names w := by
  induction names with
  | nil => exact .nil ns
  | cons n rest ih =>
    unfold deleteBridges
    by_cases hn : n = ""
    -- There is no path to something without a name, so nothing is sent and it ends there.
    · subst hn
      exact .unnamed ns rest
    · rw [yields_delete (Resource.path_eq_ok hn)]
      intro response
      cases hdeleted : bridges.deleted response with
      | error e => exact .failed hn hdeleted
      | ok existed =>
        show (deleteBridges ns rest >>= fun more => _ : ApiWork Nat).run.Yields _
        rw [Attempt.yields_bind]
        refine ih.mono fun v w hw => ?_
        cases v with
        | error e => exact .deleted hn hdeleted hw
        | ok more =>
          refine .deleted hn hdeleted ?_
          show Attempts ns rest (w ++ [])
          rwa [List.append_nil]

/-! ## The bridges of a client -/

/-- The bridges that name the client. -/
def dependents (client : String) (all : List Bridge) : List Bridge :=
  all.filter fun b => b.spec.client = some client

/-- The server lists these bridges, and of the deletions it is asked for these fail. -/
structure Reports (ns : String) (all : List Bridge) (fails : String → Prop) (w : Log ApiCall) :
    Prop where
  listed : ∀ response, ⟨.send (getRequest (bridges.inNamespace ns)), response⟩ ∈ w →
    response.success.bind (decode (readList bridges.read)) = .ok all
  refuses : Refuses ns fails w

theorem reached_bridge_iff {bs : List Bridge} {name : String} :
    Reached fails (bs.map (·.name)) name ↔ name ≠ "" ∧ ∃ before b after,
      bs = before ++ b :: after ∧ b.name = name ∧
        ∀ q ∈ before, q.name ≠ "" ∧ ¬ fails q.name := by
  rw [reached_iff]
  refine and_congr_right fun _ => ?_
  constructor
  · rintro ⟨before, after, hsplit, hbefore⟩
    obtain ⟨qs, rest, hall, rfl, hrest⟩ := List.map_eq_append_iff.mp hsplit
    obtain ⟨b, bs, rfl, hname, rfl⟩ := List.map_eq_cons_iff.mp hrest
    exact ⟨qs, b, bs, hall, hname, fun q hq => hbefore _ (List.mem_map_of_mem hq)⟩
  · rintro ⟨before, b, after, hall, rfl, hbefore⟩
    refine ⟨before.map (·.name), after.map (·.name), by simp [hall], ?_⟩
    exact List.forall_mem_map.mpr hbefore

/-- Of bridges that differ in name one comes to all of the client's if none fails but the last. -/
theorem all_dependents_reached_iff (fails : String → Prop) (client : String) {all : List Bridge}
    (hnodup : (all.map (·.name)).Nodup) (hnamed : ∀ b ∈ all, b.name ≠ "") :
    (∀ b ∈ dependents client all, Reached fails ((dependents client all).map (·.name)) b.name) ↔
      ∀ b ∈ (dependents client all).dropLast, ¬ fails b.name := by
  have hdistinct : ((dependents client all).map (·.name)).Nodup :=
    hnodup.sublist (List.filter_sublist.map _)
  have hnames : ∀ n ∈ (dependents client all).map (·.name), n ≠ "" :=
    List.forall_mem_map.mpr fun b hb => hnamed b (List.mem_filter.mp hb).1
  have hall := all_reached_iff fails hdistinct hnames
  rwa [List.forall_mem_map, ← List.map_dropLast, List.forall_mem_map] at hall

theorem Reports.of_subset {all : List Bridge} {w w' : Log ApiCall} (h : Reports ns all fails w)
    (hw : w' ⊆ w) : Reports ns all fails w' :=
  ⟨fun response hmem => h.listed response (hw hmem), h.refuses.of_subset hw⟩

theorem yields_deleteBridgesOf (ns client : String) :
    (deleteBridgesOf ns client).run.Yields fun _ w => ∀ all fails, Reports ns all fails w →
      (∀ e ∈ w, e.1.deletes = true →
        ∃ b ∈ dependents client all, e.1 = .send (deletion ns b.name)) ∧
      ∀ name, Tried ns name w ↔ Reached fails ((dependents client all).map (·.name)) name := by
  unfold deleteBridgesOf Resource.listAt
  rw [yields_send]
  intro response
  cases hlisted : response.success.bind (decode (readList bridges.read)) with
  | error e =>
    intro all fails hreports
    cases hlisted.symm.trans (hreports.listed response List.mem_cons_self)
  | ok found =>
    refine (yields_deleteBridges ns _).mono fun v w hw => ?_
    intro all fails hreports
    obtain rfl : found = all :=
      Except.ok.inj (hlisted.symm.trans (hreports.listed response List.mem_cons_self))
    constructor
    · intro e he hdeletes
      rcases List.mem_cons.mp he with rfl | he
      · cases hdeletes
      · obtain ⟨_, hn, heq⟩ := hw.only e he
        obtain ⟨b, hb, rfl⟩ := List.mem_map.mp hn
        exact ⟨b, hb, heq⟩
    · intro name
      have hlisting : ¬ Tried ns name
          [⟨.send (getRequest (bridges.inNamespace ns)), response⟩] :=
        not_tried (List.forall_mem_singleton.mpr rfl) name
      have hrefuses : Refuses ns fails w :=
        hreports.refuses.of_subset (List.subset_append_right _ _)
      rw [tried_append]
      exact (or_iff_right hlisting).trans (hw.tried_iff fails hrefuses name)

/-! ## Letting the client go -/

/-- Nothing is deleted in order to remove a finalizer. -/
theorem yields_removeFinalizer {α : Type} (r : Resource α) (ns name own : String) :
    (r.removeFinalizer ns name own).run.Yields fun _ w => ∀ e ∈ w, e.1.deletes = false := by
  show (r.change ns name own .remove).Yields _
  cases hpath : r.path ns name with
  | error e =>
    rw [Resource.change_run_error hpath]
    exact nofun
  | ok path =>
    rw [Resource.change_run hpath]
    intro response
    show (r.afterGet path own .remove (r.found response)).Yields fun _ w =>
      ∀ e ∈ (⟨ApiCall.send (getRequest path), response⟩ :: w : Log ApiCall), e.1.deletes = false
    cases r.found response with
    | error e =>
      unfold Resource.afterGet
      dsimp only
      split <;> exact List.forall_mem_singleton.mpr rfl
    | ok a =>
      rw [Resource.afterGet, if_neg (by simp)]
      intro response'
      exact List.forall_mem_cons.mpr ⟨rfl, List.forall_mem_singleton.mpr rfl⟩

end Api

namespace Client

open Api (Reached Reports Tried dependents)

variable {c : Client} {ns : String} {all : List Bridge} {fails : String → Prop}
  {v : Except Error Action} {w : Log Api.ApiCall}

theorem remove_through (events : String) (hns : c.metadata.namespaceName = some ns)
    (hfin : c.metadata.hasFinalizer finalizer = true) :
    c.remove.run.through (Api.performClient events) =
      (Api.deleteBridgesOf ns c.name).run >>= fun _ =>
        (Api.clients.removeFinalizer ns c.name finalizer).run >>= fun r =>
          pure (.ok (.released r)) := by
  unfold remove
  rw [hns]
  simp only [hfin, Bool.not_true, Bool.false_eq_true, if_false]
  refine congrArg (Prog.bind _) (funext fun deleted => ?_)
  refine congrArg (Prog.bind _) (funext fun r => ?_)
  cases r <;> rfl

/-- What becomes of the bridges of a client, and then of the client: nothing but bridges of the
client is deleted, and a bridge is tried if all before it could be deleted, so all of them are if
only the last one fails. In any case the finalizer is removed after that. -/
structure TakesAlong (c : Client) (ns : String) (all : List Bridge) (fails : String → Prop)
    (v : Except Error Action) (w : Log Api.ApiCall) : Prop where
  only : ∀ e ∈ w, e.1.deletes = true →
    ∃ b ∈ dependents c.name all, e.1 = .send (Api.deletion ns b.name)
  tried_iff : ∀ name, Tried ns name w ↔ name ≠ "" ∧ ∃ before b after,
    dependents c.name all = before ++ b :: after ∧ b.name = name ∧
      ∀ q ∈ before, q.name ≠ "" ∧ ¬ fails q.name
  all_tried_iff : (all.map (·.name)).Nodup → (∀ b ∈ all, b.name ≠ "") →
    ((∀ b ∈ dependents c.name all, Tried ns b.name w) ↔
      ∀ b ∈ (dependents c.name all).dropLast, ¬ fails b.name)
  released : ∃ deleting letting r, w = deleting ++ letting ∧
    (∀ e ∈ letting, e.1.deletes = false) ∧
    (Api.clients.removeFinalizer ns c.name finalizer).run.Ends r letting ∧ v = .ok (.released r)

theorem yields_remove_through (events : String) (hns : c.metadata.namespaceName = some ns)
    (hfin : c.metadata.hasFinalizer finalizer = true) :
    (c.remove.run.through (Api.performClient events)).Yields fun v w =>
      ∀ all fails, Reports ns all fails w → c.TakesAlong ns all fails v w := by
  rw [remove_through events hns hfin, Prog.yields_bind]
  refine (Api.yields_deleteBridgesOf ns c.name).mono fun _ w hw => ?_
  rw [Prog.yields_bind]
  refine ((Api.yields_removeFinalizer Api.clients ns c.name finalizer).and
    (Prog.yields_ends _)).mono fun r letting ⟨hletting, hends⟩ => ?_
  intro all fails hreports
  rw [List.append_nil] at hreports ⊢
  obtain ⟨honly, hreached⟩ := hw all fails (hreports.of_subset (List.subset_append_left _ _))
  have htried : ∀ name, Tried ns name (w ++ letting) ↔
      Reached fails ((dependents c.name all).map (·.name)) name := by
    intro name
    rw [Api.tried_append, or_iff_left (Api.not_tried hletting name)]
    exact hreached name
  exact {
    only := by
      intro e he hdeletes
      rcases List.mem_append.mp he with he | he
      · exact honly e he hdeletes
      · rw [hletting e he] at hdeletes
        cases hdeletes
    tried_iff := fun name => (htried name).trans Api.reached_bridge_iff
    all_tried_iff := by
      intro hnodup hnamed
      simp only [htried]
      exact Api.all_dependents_reached_iff fails c.name hnodup hnamed
    released := ⟨w, letting, r, rfl, hletting, hends, rfl⟩ }

/-- **What a deleted client takes along.** Whatever its namespace holds and whichever deletions
fail, its bridges are tried one after the other up to the first that fails, no other bridge is
tried, and then the client is let go. -/
theorem takes_along (events : String) (config : OperatorConfig)
    (hleaving : c.metadata.Leaving ns) (hfin : c.metadata.hasFinalizer finalizer = true) :
    ((c.reconcile config).run.through (Api.performClient events)).Yields fun v w =>
      ∀ all fails, Reports ns all fails w → c.TakesAlong ns all fails v w := by
  rw [Client.reconcile, if_pos hleaving.deleted]
  exact yields_remove_through events hleaving.placed hfin

end Client

namespace Sample

open Api

/-- A bridge of the client that is being deleted. -/
def owned (name : String) : Bridge where
  metadata := finalized name Bridge.finalizer
  spec := ⟨"none", "default", "deploy/shop", "app", .empty, some "old"⟩
  status := none

def ownedJson (name : String) : Json := .obj [
  ("metadata", finalizedJson name Bridge.finalizer),
  ("spec", .obj [
    ("provider", .str "none"),
    ("targetNamespace", .str "default"),
    ("target", .str "deploy/shop"),
    ("targetContainer", .str "app"),
    ("client", .str "old")])]

def listJson : Json := .obj [("items", .arr [ownedJson "first", ownedJson "second"])]

/-- The status that says that something is deleted. -/
def deletedJson : Json := .obj [("kind", .str "Status"), ("status", .str "Success")]

/-- The namespace holds two bridges of the client, and there is no answer to the deletion of the
first. -/
def unhelpful : (call : ApiCall) → Answer call
  | .send r =>
    if r.method = .delete then
      if r.path = (deletion "gefyra" "first").path then Response.none
      else .text 200 deletedJson.render
    else .text 200 listJson.render
  | .now => newYear
  | .sleep _ => ()
  | .fresh => ""

theorem plain_owned (name : String) (depth : Nat) : Json.Plain (depth + 3) (ownedJson name) := by
  have hmetadata : Json.Plain (depth + 2) (finalizedJson name Bridge.finalizer) := by
    refine .obj _ ?_
    simp only [List.forall_mem_cons]
    exact ⟨.str _, .str _, Json.plain_strings [_] depth, nofun⟩
  have hspec : Json.Plain (depth + 2) (.obj [("provider", .str "none"),
      ("targetNamespace", .str "default"), ("target", .str "deploy/shop"),
      ("targetContainer", .str "app"), ("client", .str "old")]) := by
    refine .obj _ ?_
    simp only [List.forall_mem_cons]
    exact ⟨.str _, .str _, .str _, .str _, .str _, nofun⟩
  refine .obj [("metadata", _), ("spec", _)] ?_
  simp only [List.forall_mem_cons]
  exact ⟨hmetadata, hspec, nofun⟩

theorem plain_list (depth : Nat) : Json.Plain (depth + 5) listJson := by
  refine .obj [("items", _)] (List.forall_mem_singleton.mpr (.arr _ ?_))
  simp only [List.forall_mem_cons]
  exact ⟨plain_owned _ _, plain_owned _ _, nofun⟩

theorem plain_deleted (depth : Nat) : Json.Plain (depth + 1) deletedJson := by
  refine .obj _ ?_
  simp only [List.forall_mem_cons]
  exact ⟨.str _, .str _, nofun⟩

theorem listed_list : (Response.text 200 listJson.render).success.bind
    (decode (readList bridges.read)) = .ok [owned "first", owned "second"] :=
  decoded_eq_ok rfl (Json.Plain.parse_render (plain_list (Json.maxDepth - 5))) rfl

theorem deleted_ok : bridges.deleted (.text 200 deletedJson.render) = .ok true := by
  unfold Resource.deleted
  rw [decoded_eq_ok (a := ()) rfl
    (Json.Plain.parse_render (plain_deleted (Json.maxDepth - 1))) rfl]
  rfl

theorem reports_unhelpful {w : Log ApiCall} (h : ∀ e ∈ w, e.2 = unhelpful e.1) :
    Reports "gefyra" [owned "first", owned "second"] (· = "first") w := by
  constructor
  · intro response hmem
    obtain rfl : response = Response.text 200 listJson.render := h _ hmem
    exact listed_list
  · intro name response hmem
    have hanswer : response = unhelpful (.send (deletion "gefyra" name)) := h _ hmem
    by_cases hname : name = "first"
    · subst hname
      obtain rfl : response = Response.none := hanswer
      exact iff_of_true ⟨_, rfl⟩ rfl
    · obtain rfl : response = Response.text 200 deletedJson.render :=
        hanswer.trans (if_neg (deletion_inj.not.mpr hname))
      refine iff_of_false ?_ hname
      rintro ⟨e, he⟩
      cases deleted_ok.symm.trans he

theorem hasFinalizer_newcomer :
    newcomer.metadata.hasFinalizer Client.finalizer = true := by
  simp [newcomer, departing, Kube.Metadata.hasFinalizer]

end Sample

namespace Client

open Api (Reports Tried dependents)
open BridgeOperator.Sample

theorem takes_along_newcomer : newcomer.metadata.Leaving "gefyra" ∧
    newcomer.metadata.hasFinalizer finalizer = true ∧ ∃ v w,
      Reports "gefyra" [owned "first", owned "second"] (· = "first") w ∧
      newcomer.TakesAlong "gefyra" [owned "first", owned "second"] (· = "first") v w := by
  have hyields := takes_along "gefyra" .default (leaving_departing finalizer) hasFinalizer_newcomer
  obtain ⟨v, w, htakes, hanswers⟩ := hyields.answered unhelpful
  have hreports := reports_unhelpful hanswers
  exact ⟨leaving_departing _, hasFinalizer_newcomer, v, w, hreports, htakes _ _ hreports⟩

/-- A bridge behind one that cannot be deleted is not tried. -/
theorem not_always_takes_along : ¬ ∀ (events ns : String) (config : OperatorConfig) (c : Client),
    c.metadata.Leaving ns → c.metadata.hasFinalizer finalizer = true →
      ((c.reconcile config).run.through (Api.performClient events)).Yields fun _ w =>
        ∀ all fails, Reports ns all fails w → ∀ name,
          Tried ns name w ↔ ∃ b ∈ dependents c.name all, b.name = name := by
  intro hall
  have hyields := (hall "gefyra" "gefyra" .default newcomer (leaving_departing finalizer)
    hasFinalizer_newcomer).and (yields_remove_through "gefyra" rfl hasFinalizer_newcomer)
  obtain ⟨v, w, ⟨htried, htakes⟩, hanswers⟩ := hyields.answered unhelpful
  have hreports := reports_unhelpful hanswers
  have hnone := ((htakes _ _ hreports).all_tried_iff (by decide) (by decide)).mp
    fun b hb => (htried _ _ hreports b.name).mpr ⟨b, hb, rfl⟩
  exact hnone (owned "first") List.mem_cons_self rfl

end Client
end BridgeOperator
