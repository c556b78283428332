import BridgeOperator.Proofs.Client.Disposal
import BridgeOperator.Proofs.Client.Expiration
import BridgeOperator.Proofs.Status.Patch

/-!
No credential outlives its client. Passes run over one client while its spec is edited, any of their
calls may fail with or without effect, and the operator may stop in the middle of them. Whenever a
pass deletes the client, every secret that was ever made for it is gone, and none is made once the
client has left ACTIVE (`credentials_revoked`).
-/

namespace BridgeOperator

namespace ClientStore

/-- The client after its status has been patched, where what the new status leaves out stays. -/
def merged (s : ClientStatus) (c : Client) : Option Client :=
  some { c with status := some (s.onto (c.status.getD .initial)) }

/-- How a pass over the client is answered. A status is stored whole or as a merge patch. -/
inductive Answers : (c : ClientCall) → ClientStore → Answer c → ClientStore → Prop
  | served {c : ClientCall} {w w' : ClientStore} {r : Answer c} (h : Serves c w r w') :
      Answers c w r w'
  | merged {ns name : String} {s : ClientStatus} {w w' : ClientStore} {r : Except Error Unit}
      (h : Settles (w.modify (merged s)) w r w') : Answers (.patchStatus ns name s) w r w'

/-- If the client is there it is `x`, as it may have been amended since, and the only secret its
record may name is that of `x`. -/
def Recorded (x : Client) (w : ClientStore) : Prop :=
  ∃ ρ, Bears x ρ w ∧ ∀ name, ρ.1 = some name → name = connectionSecretName x.name

variable {x c : Client} {w w' : ClientStore} {s : ClientStatus}

theorem Recorded.names (h : Recorded x w) (hc : w.client = some c) :
    c.Follows x ∧ x.Names (c.status.getD .initial) := by
  obtain ⟨ρ, hbears, hρ⟩ := h
  obtain ⟨hfollows, rfl⟩ := hbears c hc
  exact ⟨hfollows, hρ⟩

theorem Recorded.of_client (h : Recorded x w) (hw : w'.client = w.client) : Recorded x w' := by
  obtain ⟨ρ, hbears, hρ⟩ := h
  exact ⟨ρ, fun c hc => hbears c (hw ▸ hc), hρ⟩

theorem Recorded.patched (h : Recorded x w) (hs : x.Names s) :
    Recorded x (w.modify (patched s)) := by
  obtain ⟨ρ, hbears, -⟩ := h
  exact ⟨s.receipt, hbears.patched, hs⟩

/-- A name that is left out is the one that was there before. -/
theorem Recorded.merged (h : Recorded x w) (hs : x.Names s) :
    Recorded x (w.modify (merged s)) := by
  cases hc : w.client with
  | none => exact h.of_client (by simp [modify, hc])
  | some c =>
    have hnames : x.Names (s.onto (c.status.getD .initial)) := by
      intro name hname
      rcases Option.or_eq_some_iff.mp hname with hname | ⟨-, hname⟩
      · exact hs name hname
      · exact (h.names hc).2 name hname
    have hmodify : w.modify (ClientStore.merged s) =
        w.modify (ClientStore.patched (s.onto (c.status.getD .initial))) := by
      simp [modify, hc, ClientStore.merged, ClientStore.patched]
    rw [hmodify]
    exact h.patched hnames

theorem Recorded.amended (h : Recorded x w) {f : Kube.Metadata → Kube.Metadata}
    (hname : ∀ m, (f m).anyName = m.anyName)
    (hns : ∀ m, (f m).namespaceName = m.namespaceName) :
    Recorded x (w.modify (amended f)) := by
  obtain ⟨ρ, hbears, hρ⟩ := h
  exact ⟨ρ, hbears.amended hname hns, hρ⟩

/-- Only a status that names another secret could change whose secret the record names. -/
theorem Recorded.answers (h : Recorded x w) {c : ClientCall} {r : Answer c}
    (hserve : Answers c w r w') (hs : ∀ ns name s, c = .patchStatus ns name s → x.Names s) :
    Recorded x w' := by
  cases hserve with
  | merged hsettles => exact hsettles.elim (h.merged (hs _ _ _ rfl)) h
  | served hserve =>
    cases c with
    | patchStatus ns name s => exact Settles.elim hserve (h.patched (hs _ _ _ rfl)) h
    | addFinalizer => exact Settles.elim hserve (h.amended (fun _ => rfl) fun _ => rfl) h
    | removeFinalizer => exact Settles.elim hserve (h.amended (fun _ => rfl) fun _ => rfl) h
    | deleteClient =>
      obtain ⟨t, hsettles⟩ := hserve
      exact hsettles.elim (h.amended (fun _ => rfl) fun _ => rfl) h
    | createSecret => exact Settles.elim hserve (h.of_client rfl) h
    | deleteSecret => exact Settles.elim hserve (h.of_client rfl) h
    | getSecret =>
      obtain rfl : w' = w := hserve.1
      exact h
    | _ =>
      obtain rfl : w' = w := hserve
      exact h

/-- Only the calls that make or delete a secret change the secrets. -/
theorem Answers.secrets_eq {c : ClientCall} {r : Answer c} (h : Answers c w r w')
    (hcreate : ∀ ns s, c ≠ .createSecret ns s) (hdelete : ∀ ns name, c ≠ .deleteSecret ns name) :
    w'.secrets = w.secrets := by
  have hmodify : ∀ {α : Type} {f} {r : Except Error α}, Settles (w.modify f) w r w' →
      w'.secrets = w.secrets := fun h => h.elim rfl rfl
  cases h with
  | merged hsettles => exact hmodify hsettles
  | served hserve =>
    cases c with
    | patchStatus => exact hmodify hserve
    | addFinalizer => exact hmodify hserve
    | removeFinalizer => exact hmodify hserve
    | deleteClient =>
      obtain ⟨t, hsettles⟩ := hserve
      exact hmodify hsettles
    | createSecret ns s => exact absurd rfl (hcreate ns s)
    | deleteSecret ns name => exact absurd rfl (hdelete ns name)
    | getSecret => exact congrArg _ hserve.1
    | _ => exact congrArg secrets hserve

/-- A secret that was deleted is gone. -/
theorem Answers.cleared {ns name : String} {existed : Bool}
    (h : Answers (.deleteSecret ns name) w (.ok existed) w') : w'.secrets ⟨ns, name⟩ = none := by
  cases h with
  | served hserve =>
    obtain rfl | ⟨⟨e, he⟩, -⟩ := hserve
    · exact secrets_put _
    · cases he

/-- As far as the client goes the answer is one that a store of clients gives. -/
theorem Answers.client {c : ClientCall} {r : Answer c} (h : Answers c w r w') :
    Client.Serves c w.client r w'.client := by
  have hamended : ∀ {α : Type} {f} {r : Except Error α}, Settles (w.modify (amended f)) w r w' →
      w'.client = none ∨ ∃ metadata, w'.client = w.client.map fun c => { c with metadata } := by
    intro α f r hsettles
    cases hc : w.client with
    | none =>
      refine .inl ?_
      obtain rfl | ⟨-, rfl⟩ := hsettles
      · simp [modify, hc]
      · exact hc
    | some c =>
      obtain rfl | ⟨-, rfl⟩ := hsettles
      · simp only [modify, hc, Option.bind_some, ClientStore.amended]
        split
        · exact .inl rfl
        · exact .inr ⟨f c.metadata, rfl⟩
      · exact .inr ⟨c.metadata, hc⟩
  cases h with
  | @merged _ _ s _ _ _ hsettles =>
    refine ⟨s.onto ((w.client.bind (·.status)).getD .initial), rfl, ?_⟩
    obtain rfl | ⟨he, rfl⟩ := hsettles
    · refine .inl ?_
      cases hc : w.client <;> simp [modify, hc, ClientStore.merged]
    · exact .inr ⟨he, rfl⟩
  | served hserve =>
    cases c with
    | patchStatus ns name s =>
      refine ⟨s, rfl, ?_⟩
      obtain rfl | ⟨he, rfl⟩ := hserve
      · refine .inl ?_
        cases hc : w.client <;> simp [modify, hc, ClientStore.patched]
      · exact .inr ⟨he, rfl⟩
    | addFinalizer => exact hamended hserve
    | removeFinalizer => exact hamended hserve
    | deleteClient =>
      obtain ⟨t, hsettles⟩ := hserve
      exact hamended hsettles
    | createSecret => obtain rfl | ⟨-, rfl⟩ := hserve <;> rfl
    | deleteSecret => obtain rfl | ⟨-, rfl⟩ := hserve <;> rfl
    | getSecret => exact congrArg ClientStore.client hserve.1
    | _ => exact congrArg ClientStore.client hserve

end ClientStore

/-- The client and the secrets that are stored, and the pass that is under way. -/
structure Vault where
  store : ClientStore
  pass : Option (Client × Prog ClientCall (Except Error Action))

namespace Vault

open Client (Event)
open ClientPass (Guards Stage firstStage)
open ClientStore (Answers Recorded)

/-- What is left without the secrets. -/
def scene (v : Vault) : Client.Scene := ⟨v.store.client, v.pass⟩

/-- One event. The client keeps its name and its namespace, only passes write its status and its
secret, and a pass goes by the client as it was stored when the pass began. -/
inductive Step (config : OperatorConfig) : Vault → Event → Vault → Prop
  | edit {v : Vault} {spec : ClientSpec} : Step config v (.edited spec)
    { v with store.client := v.store.client.map fun c => { c with spec } }
  | amend {v : Vault} {metadata : Kube.Metadata} :
    (∀ c, v.store.client = some c →
      metadata.anyName = c.name ∧ metadata.namespaceName = c.metadata.namespaceName) →
    Step config v (.amended metadata)
      { v with store.client := v.store.client.map fun c => { c with metadata } }
  | vanish {v : Vault} : Step config v .vanished { v with store.client := none }
  | take {v : Vault} {c : Client} : v.store.client = some c → v.pass = none →
    Step config v .began { v with pass := some (c, (c.reconcile config).run) }
  | answer {v : Vault} {x : Client} {c : ClientCall}
      {next : Answer c → Prog ClientCall (Except Error Action)} {r : Answer c} {w : ClientStore} :
    v.pass = some (x, .call c next) → Answers c v.store r w →
    Step config v (.answered c r) ⟨w, some (x, next r)⟩
  | leave {v : Vault} : Step config v .ended { v with pass := none }

/-- What an event found stored and what it left. -/
structure Move where
  before : ClientStore
  event : Event
  after : ClientStore

def Move.scene (m : Move) : Client.Move := ⟨m.before.client, m.event, m.after.client⟩

/-- A run from a store without passes over the client; the newest move stands first. -/
inductive Run (config : OperatorConfig) (start : ClientStore) : List Move → Vault → Prop
  | start : Run config start [] ⟨start, none⟩
  | move {trail : List Move} {v v' : Vault} {e : Event} :
    Run config start trail v → Step config v e v' →
    Run config start (⟨v.store, e, v'.store⟩ :: trail) v'

/-- Nothing but ACTIVE was ever stored. -/
def Fresh (trail : List Move) : Prop :=
  ∀ m ∈ trail, ∀ state, m.scene.Stores state → state = .active

/-- Every secret that was to be made was the one of `x`. -/
def Made (x : Client) (trail : List Move) : Prop :=
  ∀ m ∈ trail, ∀ ns s r, m.event = .answered (.createSecret ns s) r →
    (⟨ns, s.metadata.nameOrEmpty⟩ : Address) = x.secretAddress

variable {config : OperatorConfig} {x y c : Client} {v v' : Vault} {e : Event} {m : Move}
  {rest trail : List Move} {start w : ClientStore} {φ : Stage}

theorem Step.scene (h : Step config v e v') : Client.Step config v.scene e v'.scene := by
  cases h with
  | edit => exact .edit
  | amend => exact .amend
  | vanish => exact .vanish
  | take hc hp => exact .take hc hp
  | answer hp hserve => exact .answer hp hserve.client
  | leave => exact .leave

theorem Run.scene (hstart : start.client = some x) (h : Run config start trail v) :
    Client.Run config x (trail.map Move.scene) v.scene := by
  induction h with
  | start =>
    unfold Vault.scene
    rw [hstart]
    exact .start
  | move _ hstep ih => exact ih.move hstep.scene

theorem Fresh.later (h : Fresh rest)
    (hm : ∀ ns name s r, m.event ≠ .answered (.patchStatus ns name s) r) : Fresh (m :: rest) :=
  List.forall_mem_cons.mpr
    ⟨fun state hstores => absurd hstores (Client.Move.not_stores hm state), h⟩

theorem fresh_of_noneBeyond (h : Client.Move.NoneBeyond (trail.map Move.scene) .active) :
    Fresh trail := by
  intro m hm state hstores
  have hstage := h m.scene (List.mem_map_of_mem hm) state hstores
  cases state with
  | active => rfl
  | waiting => cases hstage
  | expired => cases hstage

theorem Made.later (h : Made x rest)
    (hm : ∀ ns s r, m.event = .answered (.createSecret ns s) r →
      (⟨ns, s.metadata.nameOrEmpty⟩ : Address) = x.secretAddress) : Made x (m :: rest) :=
  List.forall_mem_cons.mpr ⟨hm, h⟩

/-- What is known of a pass over `y` that has come to `φ`. -/
structure Holds (x : Client) (trail : List Move) (w : ClientStore) (y : Client) (φ : Stage) :
    Prop where
  follows : y.Follows x
  fresh : φ = .syncing → Fresh trail
  gone : φ = .cleared → w.secrets x.secretAddress = none

/-- What holds of the store and of the pass that is under way at any time. -/
structure Sound (x : Client) (trail : List Move) (v : Vault) : Prop where
  recorded : Recorded x v.store
  made : Made x trail
  pass : ∀ {y p}, v.pass = some (y, p) → ∃ φ, p.Keeps (Guards y) φ (fun _ _ => True) ∧
    Holds x trail v.store y φ

theorem Holds.later (h : Holds x rest w y φ) {w' : ClientStore}
    (hm : ∀ ns name s r, m.event ≠ .answered (.patchStatus ns name s) r)
    (hw : w'.secrets = w.secrets) : Holds x (m :: rest) w' y φ where
  follows := h.follows
  fresh hφ := (h.fresh hφ).later hm
  gone hφ := by
    rw [hw]
    exact h.gone hφ

/-- An event that is no call leaves a pass where it was. -/
theorem Sound.later (h : Sound x rest v) (hm : ∀ c r, m.event ≠ .answered c r)
    (hrecorded : Recorded x v'.store) (hsecrets : v'.store.secrets = v.store.secrets)
    (hpass : v'.pass = v.pass) : Sound x (m :: rest) v' where
  recorded := hrecorded
  made := h.made.later fun _ _ _ he => absurd he (hm _ _)
  pass hp := by
    obtain ⟨φ, hkeeps, hholds⟩ := h.pass (hpass ▸ hp)
    exact ⟨φ, hkeeps, hholds.later (fun _ _ _ _ => hm _ _) hsecrets⟩

theorem Sound.taken (h : Sound x rest v) (hc : v.store.client = some c)
    (hkept : Client.Kept (rest.map Move.scene) v.store.client) :
    Sound x (⟨v.store, .began, v.store⟩ :: rest)
      { v with pass := some (c, (c.reconcile config).run) } := by
  obtain ⟨hfollows, hnames⟩ := h.recorded.names hc
  refine ⟨h.recorded, h.made.later (fun _ _ _ => nofun), ?_⟩
  rintro y p ⟨⟩
  have hown : c.Names (c.status.getD .initial) := by
    intro name hname
    rw [hfollows.name]
    exact hnames name hname
  refine ⟨_, ClientPass.reconcile_guards hown config, hfollows, fun hφ => ?_, fun hφ => ?_⟩
  · have hactive : c.stateOrActive = .active := by
      by_contra hne
      rw [ClientPass.firstStage_of_ne hne] at hφ
      cases hφ
    have hbeyond := hkept.furthest hc
    rw [hactive] at hbeyond
    exact (fresh_of_noneBeyond hbeyond).later fun _ _ _ _ => nofun
  · unfold firstStage at hφ
    split at hφ <;> cases hφ

/-- A call that the order of a pass allows leads on to where the next one is allowed. -/
theorem Holds.answered {φ' : Stage} {c : ClientCall} {r : Answer c} {w' : ClientStore}
    (h : Holds x rest w y φ) (hguards : Guards y φ c r φ') (hserve : Answers c w r w') :
    Holds x (⟨w, .answered c r, w'⟩ :: rest) w' y φ' := by
  cases hguards with
  | apart _ _ _ hc =>
    refine h.later ?_ (hserve.secrets_eq ?_ ?_)
    · rintro ns name s r' he
      cases he
      cases hc
    · rintro ns s rfl
      cases hc
    · rintro ns name rfl
      cases hc
  | drop => exact ⟨h.follows, fun _ => (h.fresh rfl).later (fun _ _ _ _ => nofun), nofun⟩
  | create => exact ⟨h.follows, fun _ => (h.fresh rfl).later (fun _ _ _ _ => nofun), nofun⟩
  | record => exact ⟨h.follows, nofun, nofun⟩
  | clear ns name existed hs =>
    refine ⟨h.follows, nofun, fun _ => ?_⟩
    rw [← h.follows.secretAddress, ← hs]
    exact hserve.cleared
  | fail => exact ⟨h.follows, nofun, nofun⟩
  | delete =>
    exact h.later (fun _ _ _ _ => nofun) (hserve.secrets_eq (fun _ _ => nofun) fun _ _ => nofun)

theorem Sound.answered {c : ClientCall} {next : Answer c → Prog ClientCall (Except Error Action)}
    {r : Answer c} (h : Sound x rest v) (hp : v.pass = some (y, .call c next))
    (hserve : Answers c v.store r w) :
    Sound x (⟨v.store, .answered c r, w⟩ :: rest) ⟨w, some (y, next r)⟩ := by
  obtain ⟨φ, hkeeps, hholds⟩ := h.pass hp
  obtain ⟨φ', hguards, hnext⟩ := hkeeps r
  refine ⟨h.recorded.answers hserve ?_, h.made.later ?_, ?_⟩
  · rintro ns name s rfl
    cases hguards with
    | apart _ _ _ hc => cases hc
    | record _ _ _ _ _ hs =>
      intro secret hsecret
      rw [← hholds.follows.name]
      exact hs secret hsecret
  · rintro ns s r' he
    cases he
    cases hguards with
    | apart _ _ _ hc => cases hc
    | create _ _ _ hs => exact hs.trans hholds.follows.secretAddress
  · rintro y' p ⟨⟩
    exact ⟨φ', hnext, hholds.answered hguards hserve⟩

theorem Sound.step (h : Sound x rest v) (hkept : Client.Kept (rest.map Move.scene) v.store.client)
    (hstep : Step config v e v') : Sound x (⟨v.store, e, v'.store⟩ :: rest) v' := by
  obtain ⟨ρ, hbears, hρ⟩ := h.recorded
  cases hstep with
  | edit =>
    refine h.later (fun _ _ => nofun) ⟨ρ, fun c' hc' => ?_, hρ⟩ rfl rfl
    obtain ⟨c, hc, rfl⟩ := Option.map_eq_some_iff.mp hc'
    obtain ⟨hfollows, hreceipt⟩ := hbears c hc
    exact ⟨⟨hfollows.name, hfollows.namespaceName⟩, hreceipt⟩
  | amend hsame =>
    refine h.later (fun _ _ => nofun) ⟨ρ, fun c' hc' => ?_, hρ⟩ rfl rfl
    obtain ⟨c, hc, rfl⟩ := Option.map_eq_some_iff.mp hc'
    obtain ⟨hfollows, hreceipt⟩ := hbears c hc
    obtain ⟨hname, hns⟩ := hsame c hc
    exact ⟨⟨hname.trans hfollows.name, hns.trans hfollows.namespaceName⟩, hreceipt⟩
  | vanish => exact h.later (fun _ _ => nofun) ⟨ρ, fun _ => nofun, hρ⟩ rfl rfl
  | take hc => exact h.taken hc hkept
  | answer hp hserve => exact h.answered hp hserve
  | leave => exact ⟨h.recorded, h.made.later (fun _ _ _ => nofun), nofun⟩

theorem Sound.run (hx : x.status = none) (hstart : start.client = some x)
    (h : Run config start trail v) : Sound x trail v := by
  induction h with
  | start =>
    refine ⟨⟨(none, none), fun c hc => ?_, fun _ => nofun⟩, fun _ => nofun, nofun⟩
    rw [hstart] at hc
    cases hc
    refine ⟨⟨rfl, rfl⟩, ?_⟩
    unfold Client.receipt
    rw [hx]
    rfl
  | move hrest hstep ih => exact ih.step (Client.Sound.run hx (hrest.scene hstart)).kept hstep

/-- What a move of a run keeps to, after the moves `rest`. -/
structure Revoked (rest : List Move) (m : Move) : Prop where
  /-- When the client is deleted, no secret that was ever to be made for it is there. -/
  gone : ∀ ns name r, m.event = .answered (.deleteClient ns name) r →
    ∀ m' ∈ rest, ∀ ns' s r', m'.event = .answered (.createSecret ns' s) r' →
      m.before.secrets ⟨ns', s.metadata.nameOrEmpty⟩ = none
  /-- When a secret is made, no state but ACTIVE was ever stored. -/
  barred : ∀ ns s r, m.event = .answered (.createSecret ns s) r → Fresh rest

theorem Sound.revoked (h : Sound x rest v) (hstep : Step config v e v') :
    Revoked rest ⟨v.store, e, v'.store⟩ := by
  cases hstep with
  | @answer y c next r w hp hserve =>
    obtain ⟨φ, hkeeps, hholds⟩ := h.pass hp
    obtain ⟨φ', hguards, -⟩ := hkeeps r
    constructor
    · rintro ns name r' he m' hm' ns' s r'' he'
      cases he
      cases hguards with
      | apart _ _ _ hc => cases hc
      | delete =>
        rw [h.made m' hm' ns' s r'' he']
        exact hholds.gone rfl
    · rintro ns s r' he
      cases he
      cases hguards with
      | apart _ _ _ hc => cases hc
      | create => exact hholds.fresh rfl
  | _ => exact ⟨fun _ _ _ => nofun, fun _ _ _ => nofun⟩

/-- **No credential outlives its client.** -/
theorem credentials_revoked {later : List Move} (hx : x.status = none)
    (hstart : start.client = some x) (hrun : Run config start (later ++ m :: rest) v) :
    Revoked rest m := by
  induction later generalizing v with
  | nil =>
    cases hrun with
    | move hrest hstep => exact (Sound.run hx hstart hrest).revoked hstep
  | cons m' later ih =>
    cases hrun with
    | move hrest _ => exact ih hrest

theorem Run.answered {w' : ClientStore} {p : Prog ClientCall (Except Error Action)}
    {c : ClientCall} {next : Answer c → Prog ClientCall (Except Error Action)}
    (h : Run config start trail ⟨w, some (x, p)⟩) (hp : p = .call c next) (r : Answer c)
    (hserve : Answers c w r w') :
    Run config start (⟨w, .answered c r, w'⟩ :: trail) ⟨w', some (x, next r)⟩ :=
  h.move (.answer (by rw [hp]) hserve)

namespace Sample

open Client.Sample (alice seconds)

/-- A client with a sunset and something to be handed. -/
def dora : Client :=
  { alice with spec := { alice.spec with
      providerConfig := some (.ofList [("endpoint", "10.0.0.1")]) } }

def lost : Error := .internal "store" "lost"

/-- The record of the secret is lost, the config is taken back, and the sunset passes. The secret is
gone all the same when the client is deleted. -/
theorem credentials_revoked_dora : ∃ rest m v, dora.status = none ∧
    Run .default ⟨some dora, fun _ => none⟩ (m :: rest) v ∧
    (∃ m' ∈ rest, ∃ s r, m'.event = .answered (.createSecret "gefyra" s) r) ∧
    (∃ r, m.event = .answered (.deleteClient "gefyra" "alice") r) ∧ Revoked rest m := by
  have hbegan : Run .default ⟨some dora, fun _ => none⟩ _ _ := .move .start (.take rfl rfl)
  have hmissing := (hbegan.answered rfl (seconds 0) (.served rfl)).answered rfl (.ok none)
    (.served ⟨rfl, fun s hs => (Except.ok.inj hs).symm⟩)
  have hmade := hmissing.answered rfl (.ok ()) (.served (.inl rfl))
  have hlost := (hmade.answered rfl () (.served rfl)).answered rfl (.error lost)
    (.served (.inr ⟨⟨_, rfl⟩, rfl⟩))
  have hedited := (hlost.move .leave).move (.edit : Step .default _ (.edited alice.spec) _)
  have hagain := hedited.move (.take rfl rfl)
  have hactive := (hagain.answered rfl (seconds 0) (.served rfl)).answered rfl (.ok ())
    (.served (.inl rfl))
  have hwaiting := ((((hactive.answered rfl (seconds 0) (.served rfl)).answered rfl (seconds 0)
    (.served rfl)).answered rfl (.ok ()) (.served (.inl rfl))).answered rfl () (.served rfl))
  have hdue := (hwaiting.move .leave).move (.take rfl rfl)
  have hexpired := (((hdue.answered rfl (seconds 30) (.served rfl)).answered rfl (seconds 30)
    (.served rfl)).answered rfl (.ok ()) (.served (.inl rfl))).answered rfl () (.served rfl)
  have hcleared := hexpired.answered rfl (.ok true) (.served (.inl rfl))
  have hdeleted := hcleared.answered rfl (.ok true) (.served ⟨seconds 30, .inl rfl⟩)
  have hrun : Run .default ⟨some dora, fun _ => none⟩ ([] ++ _ :: _) _ := hdeleted
  exact ⟨_, _, _, rfl, hrun, ⟨_, List.mem_of_getElem? (i := 18) rfl, _, _, rfl⟩, ⟨_, rfl⟩,
    credentials_revoked rfl rfl hrun⟩

end Sample

end Vault
end BridgeOperator
