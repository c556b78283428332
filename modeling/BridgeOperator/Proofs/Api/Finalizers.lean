import BridgeOperator.Proofs.Api.Resource

/-!
The finalizers of a stored object while the operator and others change them. The operator reads the
list and later writes a whole list back, so what somebody else changes in between is undone by the
write. Everything else anybody has changed stays as it is (`kept_unless_overwritten`).
-/

namespace BridgeOperator.Api

/-! ## An object that is changed by several -/

/-- How the server answers about the object: a request that is answered well is carried out, the
answer holds the object as it is then, and the object is not said to be missing. -/
inductive Attends : (c : ApiCall) → Json → Answer c → Json → Prop
  | told {request : Request} {response : Response} {o : Json} {text : String} :
    request.method = .get → response.success = .ok text → Json.parse? text = some o →
    Attends (.send request) o response o
  | merged {request : Request} {response : Response} {o patch : Json} {text : String} :
    request.method = .patch → request.contentType = some mergePatch →
    request.body = some patch → response.success = .ok text →
    Json.parse? text = some (Json.mergePatch patch o) →
    Attends (.send request) o response (Json.mergePatch patch o)
  | failed {request : Request} {response : Response} {o : Json} {e : Error} :
    response.success = .error e → Resource.saysMissing e = false →
    Attends (.send request) o response o

namespace Finalizers

open Resource (Change)

/-- A call of the operator begins, is answered and ends, and others add and remove finalizers of
their own. -/
inductive Event where
  | began (c : Change)
  | answered (c : ApiCall) (r : Answer c)
  | ended (c : Change) (v : Except Error Unit)
  | added (g : String)
  | removed (g : String)

/-- The object, and the call in flight with what is left of it. -/
structure Scene where
  object : Json
  call : Option (Change × Prog ApiCall (Except Error Unit))

variable {α : Type} (r : Resource α) (ns name own : String)

/-- One event. Whoever changes the finalizers may change the rest of the object along with them. -/
inductive Step : Scene → Event → Scene → Prop
  | begin {s : Scene} (c : Change) : s.call = none →
    Step s (.began c) { s with call := some (c, r.change ns name own c) }
  | answer {s : Scene} {c : Change} {q : ApiCall} {a : Answer q} {o : Json}
      {next : Answer q → Prog ApiCall (Except Error Unit)} :
    s.call = some (c, .call q next) → Attends q s.object a o →
    Step s (.answered q a) ⟨o, some (c, next a)⟩
  | finish {s : Scene} {c : Change} {v : Except Error Unit} : s.call = some (c, .done v) →
    Step s (.ended c v) { s with call := none }
  | add {s : Scene} {g : String} {o : Json} {l l' : List String} : g ≠ own →
    r.Holds s.object l → r.Holds o l' → (∀ x, x ∈ l' ↔ x = g ∨ x ∈ l) →
    Step s (.added g) { s with object := o }
  | remove {s : Scene} {g : String} {o : Json} {l l' : List String} : g ≠ own →
    r.Holds s.object l → r.Holds o l' → (∀ x, x ∈ l' ↔ x ≠ g ∧ x ∈ l) →
    Step s (.removed g) { s with object := o }

/-- A run from an object that nobody is busy with; the newest event stands first. -/
inductive Run (start : Json) : List Event → Scene → Prop
  | start : Run start [] ⟨start, none⟩
  | move {trail : List Event} {s s' : Scene} {e : Event} : Run start trail s →
    Step r ns name own s e s' → Run start (e :: trail) s'

/-! ### What has happened -/

/-- The owner adds or removes its finalizer. -/
def Event.changes (g : String) : Event → Bool
  | .added h | .removed h => h = g
  | _ => false

/-- The operator is told the object. -/
def Event.reads : Event → Bool
  | .answered (.send q) a => q.method = .get && (Response.success a).toBool
  | _ => false

/-- The operator writes a list. -/
def Event.writes : Event → Bool
  | .answered (.send q) a => q.method = .patch && (Response.success a).toBool
  | _ => false

/-- The owner has changed its finalizer since the operator has last read the object. -/
def missed (g : String) : List Event → Bool
  | [] => false
  | e :: rest => !e.reads && (e.changes g || missed g rest)

/-- The last change that the owner made came between the two requests of a call. -/
def overwritten (g : String) : List Event → Bool
  | [] => false
  | e :: rest => !e.changes g && (e.writes && missed g rest || overwritten g rest)

/-- The owner wants its finalizer on the object. -/
def wanted (initial : List String) (g : String) : List Event → Bool
  | [] => initial.contains g
  | .added h :: rest => h = g || wanted initial g rest
  | .removed h :: rest => h ≠ g && wanted initial g rest
  | _ :: rest => wanted initial g rest

/-- The call that was completed last. -/
def completed : List Event → Option Change
  | [] => none
  | .ended c (.ok ()) :: _ => some c
  | _ :: rest => completed rest

/-! ### What is kept -/

/-- The object has the operator's own finalizer as the completed calls of the operator leave it. -/
def Owned (initial : List String) (trail : List Event) : Prop :=
  completed trail = some .add ∨ completed trail = none ∧ own ∈ initial

/-- The finalizers of the others are on the object as their owners want it, but for those that
were overwritten. -/
def Tracks (initial : List String) (trail : List Event) (l : List String) : Prop :=
  ∀ g, g ≠ own → overwritten g trail = false → (g ∈ l ↔ wanted initial g trail = true)

/-- The list that the operator has read still says what the owners want, but for what was missed
since. -/
def Recalls (initial : List String) (trail : List Event) (seen : List String) : Prop :=
  ∀ g, g ≠ own → missed g trail = false → overwritten g trail = false →
    (g ∈ seen ↔ wanted initial g trail = true)

/-- How far the call in flight has come, and what that means for the operator's own finalizer. -/
inductive Flight (initial : List String) (trail : List Event) (l : List String) :
    Option (Change × Prog ApiCall (Except Error Unit)) → Prop
  | idle : (own ∈ l ↔ Owned own initial trail) → Flight initial trail l none
  | asking (c : Change) : (own ∈ l ↔ Owned own initial trail) →
    Flight initial trail l (some (c, r.change ns name own c))
  | writing (c : Change) {path : String} {seen : List String} :
    (own ∈ l ↔ Owned own initial trail) → Recalls own initial trail seen →
    Flight initial trail l (some (c, r.putting path (c.apply own seen)))
  | written (c : Change) : (own ∈ l ↔ c = .add) → Flight initial trail l (some (c, .done (.ok ())))
  | failed (c : Change) (e : Error) : (own ∈ l ↔ Owned own initial trail) →
    Flight initial trail l (some (c, .done (.error e)))

/-- What holds after every event. -/
structure Sound (initial : List String) (trail : List Event) (s : Scene) (l : List String) :
    Prop where
  holds : r.Holds s.object l
  tracks : Tracks own initial trail l
  flight : Flight r ns name own initial trail l s.call

variable {r ns name own} {initial l l' seen : List String} {trail : List Event} {e : Event}
  {s s' : Scene}

theorem overwritten_cons {g : String} (hchange : e.changes g = false) (hwrite : e.writes = false) :
    overwritten g (e :: trail) = overwritten g trail := by
  simp [overwritten, hchange, hwrite]

theorem wanted_cons {g : String} (hchange : e.changes g = false) :
    wanted initial g (e :: trail) = wanted initial g trail := by
  cases e <;> simp_all [Event.changes, wanted]

theorem missed_cons {g : String} (hread : e.reads = false)
    (hmissed : missed g (e :: trail) = false) :
    e.changes g = false ∧ missed g trail = false := by
  simpa [missed, hread] using hmissed

theorem mem_apply_own (c : Change) : own ∈ c.apply own seen ↔ c = .add := by
  cases c <;> simp [Change.apply]

theorem mem_apply_of_ne (c : Change) {g : String} (hg : g ≠ own) :
    g ∈ c.apply own seen ↔ g ∈ seen := by
  cases c <;> simp [Change.apply, hg]

/-! ### What an event leaves of it -/

theorem Tracks.quiet (h : Tracks own initial trail l) (hwrite : e.writes = false)
    (hchange : ∀ g, e.changes g = false) : Tracks own initial (e :: trail) l := by
  intro g hg hkept
  rw [overwritten_cons (hchange g) hwrite] at hkept
  rw [wanted_cons (hchange g)]
  exact h g hg hkept

/-- A change by the owner makes up for what was overwritten. -/
theorem Tracks.changed {g : String} (h : Tracks own initial trail l)
    (he : e = .added g ∨ e = .removed g) (hsame : ∀ x, x ≠ g → (x ∈ l' ↔ x ∈ l))
    (hnow : g ∈ l' ↔ wanted initial g (e :: trail) = true) :
    Tracks own initial (e :: trail) l' := by
  intro x hx hkept
  by_cases hxg : x = g
  · subst hxg
    exact hnow
  · have hchange : e.changes x = false := by
      obtain rfl | rfl := he <;> simp [Event.changes, Ne.symm hxg]
    have hwrite : e.writes = false := by obtain rfl | rfl := he <;> rfl
    rw [overwritten_cons hchange hwrite] at hkept
    rw [wanted_cons hchange, hsame x hxg]
    exact h x hx hkept

theorem Recalls.later (h : Recalls own initial trail seen) (hread : e.reads = false)
    (hwrite : e.writes = false) : Recalls own initial (e :: trail) seen := by
  intro g hg hmissed hkept
  obtain ⟨hchange, hmissed⟩ := missed_cons hread hmissed
  rw [overwritten_cons hchange hwrite] at hkept
  rw [wanted_cons hchange]
  exact h g hg hmissed hkept

/-- The call in flight does not notice what others do. -/
theorem Flight.meanwhile {call : Option (Change × Prog ApiCall (Except Error Unit))} {g : String}
    (h : Flight r ns name own initial trail l call) (he : e = .added g ∨ e = .removed g)
    (hown : own ∈ l' ↔ own ∈ l) : Flight r ns name own initial (e :: trail) l' call := by
  have howned : Owned own initial (e :: trail) ↔ Owned own initial trail := by
    obtain rfl | rfl := he <;> exact Iff.rfl
  have hread : e.reads = false := by obtain rfl | rfl := he <;> rfl
  have hwrite : e.writes = false := by obtain rfl | rfl := he <;> rfl
  cases h with
  | idle h => exact .idle (hown.trans (h.trans howned.symm))
  | asking c h => exact .asking c (hown.trans (h.trans howned.symm))
  | writing c h hseen =>
    exact .writing c (hown.trans (h.trans howned.symm)) (hseen.later hread hwrite)
  | written c h => exact .written c (hown.trans h)
  | failed c e' h => exact .failed c e' (hown.trans (h.trans howned.symm))

theorem Sound.begin (h : Sound r ns name own initial trail s l) (hidle : s.call = none)
    (c : Change) : Sound r ns name own initial (.began c :: trail)
      { s with call := some (c, r.change ns name own c) } l := by
  refine ⟨h.holds, h.tracks.quiet rfl fun _ => rfl, .asking c ?_⟩
  have hflight := h.flight
  rw [hidle] at hflight
  cases hflight with
  | idle hown => exact hown

/-- The answer to the first request of a call. -/
theorem Sound.asked {c : Change} {path : String} {a : Response} {o : Json}
    (h : Sound r ns name own initial trail s l) (hown : own ∈ l ↔ Owned own initial trail)
    (ha : Attends (.send (Resource.getRequest path)) s.object a o) :
    Sound r ns name own initial (.answered (.send (Resource.getRequest path)) a :: trail)
      ⟨o, some (c, r.afterGet path own c (r.found a))⟩ l := by
  have htracks : Tracks own initial
      (.answered (.send (Resource.getRequest path)) a :: trail) l :=
    h.tracks.quiet rfl fun _ => rfl
  cases ha with
  | merged hmethod => cases hmethod
  | @failed _ _ _ e hfailed hthere =>
    have hfound : r.found a = .error e := Resource.found_eq_error hfailed
    refine ⟨h.holds, htracks, ?_⟩
    rw [hfound, Resource.afterGet, if_neg (by simp [hthere])]
    exact .failed c _ hown
  | told _ hanswer hparse =>
    obtain ⟨fields, found, hobject, _, hread, hlist⟩ := h.holds
    have hfound : r.found a = .ok found := Resource.found_eq_ok hanswer hparse hread
    refine ⟨h.holds, htracks, ?_⟩
    rw [hfound, Resource.afterGet, hlist]
    by_cases hdone : c = .add ∧ own ∈ l
    · rw [if_pos hdone]
      exact .written c ⟨fun _ => hdone.1, fun _ => hdone.2⟩
    · rw [if_neg hdone]
      exact .writing c hown fun g hg _ hkept => htracks g hg hkept

/-- The answer to the second request. -/
theorem Sound.put {c : Change} {path : String} {a : Response} {o : Json} (hr : r.Replaces)
    (h : Sound r ns name own initial trail s l) (hown : own ∈ l ↔ Owned own initial trail)
    (hseen : Recalls own initial trail seen)
    (ha : Attends (.send (Resource.putRequest path (c.apply own seen))) s.object a o) :
    ∃ l', Sound r ns name own initial
      (.answered (.send (Resource.putRequest path (c.apply own seen))) a :: trail)
      ⟨o, some (c, .done ((r.found a).map fun _ => ()))⟩ l' := by
  cases ha with
  | told hmethod => cases hmethod
  | @failed _ _ _ e hfailed =>
    have hfound : r.found a = .error e := Resource.found_eq_error hfailed
    refine ⟨l, h.holds, h.tracks.quiet ?_ fun _ => rfl, ?_⟩
    · simp [Event.writes, hfailed, Except.toBool]
    · rw [hfound]
      exact .failed c _ hown
  | merged _ _ hbody hanswer hparse =>
    obtain rfl := Option.some.inj hbody
    have hholds := hr _ _ (c.apply own seen) h.holds
    obtain ⟨_, found, _, _, hread, _⟩ := id hholds
    have hfound : r.found a = .ok found := Resource.found_eq_ok hanswer hparse hread
    refine ⟨c.apply own seen, hholds, ?_, ?_⟩
    · intro g hg hkept
      have hwrite : Event.writes (.answered
          (.send (Resource.putRequest path (c.apply own seen))) a) = true := by
        simp [Event.writes, Resource.putRequest, hanswer, Except.toBool]
      have hkept : missed g trail = false ∧ overwritten g trail = false := by
        simpa [overwritten, Event.changes, hwrite] using hkept
      exact (mem_apply_of_ne c hg).trans (hseen g hg hkept.1 hkept.2)
    · rw [hfound]
      exact .written c (mem_apply_own c)

theorem Sound.answer {c : Change} {q : ApiCall} {next : Answer q → Prog ApiCall (Except Error Unit)}
    {a : Answer q} {o : Json} (hr : r.Replaces) (h : Sound r ns name own initial trail s l)
    (hcall : s.call = some (c, .call q next)) (ha : Attends q s.object a o) :
    ∃ l', Sound r ns name own initial (.answered q a :: trail) ⟨o, some (c, next a)⟩ l' := by
  have hflight := h.flight
  generalize s.call = call at hflight hcall
  cases hflight with
  | idle => cases hcall
  | written => cases hcall
  | failed => cases hcall
  | asking c' hown =>
    obtain ⟨rfl, hprog⟩ := Prod.mk.inj (Option.some.inj hcall)
    cases hpath : r.path ns name with
    | error e =>
      rw [Resource.change_run_error hpath] at hprog
      cases hprog
    | ok path =>
      rw [Resource.change_run hpath] at hprog
      cases hprog
      exact ⟨l, h.asked hown ha⟩
  | writing c' hown hseen =>
    cases hcall
    exact h.put hr hown hseen ha

theorem Sound.finish {c : Change} {v : Except Error Unit}
    (h : Sound r ns name own initial trail s l) (hcall : s.call = some (c, .done v)) :
    Sound r ns name own initial (.ended c v :: trail) { s with call := none } l := by
  refine ⟨h.holds, h.tracks.quiet rfl fun _ => rfl, .idle ?_⟩
  have hflight := h.flight
  generalize s.call = call at hflight hcall
  cases hflight with
  | idle => cases hcall
  | writing => cases hcall
  | failed c' e hown =>
    cases hcall
    exact hown
  | written c' hown =>
    cases hcall
    simpa [Owned, completed] using hown
  | asking c' hown =>
    obtain ⟨rfl, hprog⟩ := Prod.mk.inj (Option.some.inj hcall)
    cases hpath : r.path ns name with
    | error e =>
      rw [Resource.change_run_error hpath] at hprog
      cases hprog
      exact hown
    | ok path =>
      rw [Resource.change_run hpath] at hprog
      cases hprog

theorem Sound.step (hr : r.Replaces) (h : Sound r ns name own initial trail s l)
    (hstep : Step r ns name own s e s') :
    ∃ l', Sound r ns name own initial (e :: trail) s' l' := by
  cases hstep with
  | begin c hidle => exact ⟨l, h.begin hidle c⟩
  | answer hcall ha => exact h.answer hr hcall ha
  | finish hcall => exact ⟨l, h.finish hcall⟩
  | @add g o _ l' hg hbefore hafter hmem =>
    obtain rfl := h.holds.unique hbefore
    refine ⟨l', hafter, h.tracks.changed (.inl rfl) (fun x hx => by simp [hmem, hx]) ?_,
      h.flight.meanwhile (.inl rfl) (by simp [hmem, hg.symm])⟩
    simp [hmem, wanted]
  | @remove g o _ l' hg hbefore hafter hmem =>
    obtain rfl := h.holds.unique hbefore
    refine ⟨l', hafter, h.tracks.changed (.inr rfl) (fun x hx => by simp [hmem, hx]) ?_,
      h.flight.meanwhile (.inr rfl) (by simp [hmem, hg.symm])⟩
    simp [hmem, wanted]

/-- The operator's finalizer is on the object as its last completed call has left it, and so is
everybody else's as its owner wants it, unless the owner's last change fell between the two
requests of a call. -/
theorem kept_unless_overwritten {start : Json} (hr : r.Replaces) (hstart : r.Holds start initial)
    (hrun : Run r ns name own start trail s) : ∃ l, r.Holds s.object l ∧
      (∀ g, g ≠ own → overwritten g trail = false → (g ∈ l ↔ wanted initial g trail = true)) ∧
      (s.call = none → (own ∈ l ↔ Owned own initial trail)) := by
  have hsound : ∃ l, Sound r ns name own initial trail s l := by
    induction hrun with
    | start =>
      exact ⟨initial, hstart, fun g _ _ => by simp [wanted], .idle (by simp [Owned, completed])⟩
    | move _ hstep ih =>
      obtain ⟨l, hl⟩ := ih
      exact hl.step hr hstep
  obtain ⟨l, hl⟩ := hsound
  refine ⟨l, hl.holds, hl.tracks, fun hidle => ?_⟩
  have hflight := hl.flight
  rw [hidle] at hflight
  cases hflight with
  | idle hown => exact hown

namespace Sample

open BridgeOperator.Sample (strayFields read_stray distinct_stray)

/-- The stray bridge with these finalizers. -/
def held (l : List String) : Json := Json.mergePatch (finalizersPatch l) (.obj strayFields)

theorem holds_held (l : List String) : bridges.Holds (held l) l :=
  bridges_replaces _ _ l ⟨strayFields, _, rfl, distinct_stray, read_stray, rfl⟩

theorem plain_held (l : List String) (depth : Nat) : Json.Plain (depth + 3) (held l) := by
  have hmetadata : Json.Plain (depth + 2) (.obj [("name", .str "stray"),
      ("namespace", .str "gefyra"), ("finalizers", Json.ofStrings l)]) := by
    refine .obj _ ?_
    simp only [List.forall_mem_cons]
    exact ⟨.str _, .str _, Json.plain_strings l depth, nofun⟩
  have hspec : Json.Plain (depth + 2) (.obj [("provider", .str "none"),
      ("targetNamespace", .str "default"), ("target", .str "deploy/shop"),
      ("targetContainer", .str "app")]) := by
    refine .obj _ ?_
    simp only [List.forall_mem_cons]
    exact ⟨.str _, .str _, .str _, .str _, nofun⟩
  refine .obj [("metadata", _), ("spec", _)] ?_
  simp only [List.forall_mem_cons]
  exact ⟨hmetadata, hspec, nofun⟩

theorem parse_held (l : List String) : Json.parse? (held l).render = some (held l) :=
  Json.Plain.parse_render (plain_held l (Json.maxDepth - 3))

/-- Where the bridge is served. -/
def strayPath : String := bridges.inNamespace "gefyra" ++ "/stray"

theorem path_stray : bridges.path "gefyra" "stray" = .ok strayPath := rfl

/-- The response that holds the bridge with these finalizers. -/
def answerHeld (l : List String) : Response := .text 200 (held l).render

/-- A finalizer that somebody adds before the operator reads the list. -/
def keep : String := "example.com/keep"

/-- One that is added after that. -/
def hold : String := "example.com/hold"

/-- The operator removes its finalizer and with it the one that it has not seen. -/
def removal : List Event := [
  .ended .remove (.ok ()),
  .answered (.send (Resource.putRequest strayPath [keep])) (answerHeld [keep]),
  .added hold,
  .answered (.send (Resource.getRequest strayPath)) (answerHeld [Bridge.finalizer, keep]),
  .began .remove,
  .added keep]

theorem found_held (l : List String) :
    ∃ b, bridges.found (answerHeld l) = .ok b ∧ b.metadata.finalizers.getD [] = l := by
  obtain ⟨fields, b, -, -, hread, hlist⟩ := holds_held l
  exact ⟨b, Resource.found_eq_ok rfl (parse_held l) hread, hlist⟩

section

variable {c : Change} {a : Response} {o o' : Json}

theorem step_get
    (ha : Attends (.send (Resource.getRequest strayPath)) o a o') :
    Step bridges "gefyra" "stray" Bridge.finalizer
      ⟨o, some (c, bridges.change "gefyra" "stray" Bridge.finalizer c)⟩
      (.answered (.send (Resource.getRequest strayPath)) a)
      ⟨o', some (c, bridges.afterGet strayPath Bridge.finalizer c (bridges.found a))⟩ := by
  let next (a : Response) := bridges.afterGet strayPath Bridge.finalizer c (bridges.found a)
  rw [Resource.change_run path_stray]
  exact @Step.answer _ _ _ _ _ ⟨o, _⟩ c (.send _) a o' next rfl ha

theorem step_put {l : List String}
    (ha : Attends (.send (Resource.putRequest strayPath l)) o a o') :
    Step bridges "gefyra" "stray" Bridge.finalizer ⟨o, some (c, bridges.putting strayPath l)⟩
      (.answered (.send (Resource.putRequest strayPath l)) a)
      ⟨o', some (c, .done ((bridges.found a).map fun _ => ()))⟩ := by
  let next (a : Response) : Prog ApiCall (Except Error Unit) :=
    .done ((bridges.found a).map fun _ => ())
  exact @Step.answer _ _ _ _ _ ⟨o, _⟩ c (.send _) a o' next rfl ha

end

theorem run_removal : Run bridges "gefyra" "stray" Bridge.finalizer (held [Bridge.finalizer])
    removal ⟨held [keep], none⟩ := by
  let step := Step bridges "gefyra" "stray" Bridge.finalizer
  let putKeep := bridges.putting strayPath [keep]
  have hkeep : step ⟨held [Bridge.finalizer], none⟩ (.added keep)
      ⟨held [Bridge.finalizer, keep], none⟩ :=
    .add (by decide) (holds_held _) (holds_held _) (by simp [or_comm])
  have hbegin : step ⟨held [Bridge.finalizer, keep], none⟩ (.began .remove)
      ⟨held [Bridge.finalizer, keep],
        some (.remove, bridges.change "gefyra" "stray" Bridge.finalizer .remove)⟩ :=
    .begin .remove rfl
  have hread : step ⟨held [Bridge.finalizer, keep],
        some (.remove, bridges.change "gefyra" "stray" Bridge.finalizer .remove)⟩
      (.answered (.send (Resource.getRequest strayPath)) (answerHeld [Bridge.finalizer, keep]))
      ⟨held [Bridge.finalizer, keep], some (.remove, putKeep)⟩ := by
    obtain ⟨b, hfound, hlist⟩ := found_held [Bridge.finalizer, keep]
    have hnext : bridges.afterGet strayPath Bridge.finalizer .remove
        (bridges.found (answerHeld [Bridge.finalizer, keep])) = putKeep := by
      rw [hfound]
      show bridges.putting strayPath
        (Change.apply Bridge.finalizer (b.metadata.finalizers.getD []) .remove) = _
      rw [hlist]
      rfl
    rw [← hnext]
    exact step_get (.told rfl rfl (parse_held _))
  have hhold : step ⟨held [Bridge.finalizer, keep], some (.remove, putKeep)⟩ (.added hold)
      ⟨held [Bridge.finalizer, keep, hold], some (.remove, putKeep)⟩ :=
    .add (by decide) (holds_held _) (holds_held _) (by simp; tauto)
  have hwrite : step ⟨held [Bridge.finalizer, keep, hold], some (.remove, putKeep)⟩
      (.answered (.send (Resource.putRequest strayPath [keep])) (answerHeld [keep]))
      ⟨held [keep], some (.remove, .done (.ok ()))⟩ := by
    obtain ⟨b, hfound, -⟩ := found_held [keep]
    have hnext : (bridges.found (answerHeld [keep])).map (fun _ => ()) = .ok () := by
      rw [hfound]
      rfl
    have hmerged : Attends (.send (Resource.putRequest strayPath [keep]))
        (held [Bridge.finalizer, keep, hold]) (answerHeld [keep])
        (Json.mergePatch (finalizersPatch [keep]) (held [Bridge.finalizer, keep, hold])) :=
      .merged rfl rfl rfl rfl (parse_held [keep])
    rw [← hnext]
    exact step_put hmerged
  have hend : step ⟨held [keep], some (.remove, .done (.ok ()))⟩ (.ended .remove (.ok ()))
      ⟨held [keep], none⟩ := .finish rfl
  exact .move (.move (.move (.move (.move (.move .start hkeep) hbegin) hread) hhold) hwrite) hend

end Sample

open BridgeOperator.Api.Finalizers.Sample in
theorem kept_unless_overwritten_stray : ∃ l,
    bridges.Holds (held [keep]) l ∧ keep ∈ l ∧ Bridge.finalizer ∉ l := by
  obtain ⟨l, hl, hforeign, hown⟩ :=
    kept_unless_overwritten bridges_replaces (holds_held _) run_removal
  exact ⟨l, hl, (hforeign keep (by decide) (by decide)).mpr (by decide),
    fun h => absurd ((hown rfl).mp h) (by simp [Owned, completed, removal])⟩

open BridgeOperator.Api.Finalizers.Sample in
/-- A finalizer that was added between the two requests of a call is gone, although nobody has
removed it. -/
theorem not_always_kept : ¬ ∀ (ns name own : String) (start : Json)
    (initial : List String) (trail : List Event) (s : Scene), bridges.Holds start initial →
    Run bridges ns name own start trail s → ∃ l, bridges.Holds s.object l ∧
      (∀ g, g ≠ own → (g ∈ l ↔ wanted initial g trail = true)) ∧
      (s.call = none → (own ∈ l ↔ Owned own initial trail)) := by
  intro h
  obtain ⟨l, hl, hforeign, -⟩ := h _ _ _ _ _ _ _ (holds_held _) run_removal
  obtain rfl := hl.unique (holds_held _)
  have hlost := (hforeign hold (by decide)).mpr (by decide)
  exact absurd hlost (by decide)

end Finalizers
end BridgeOperator.Api
