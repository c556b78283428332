import BridgeOperator.Proofs.Client.Expiration
import BridgeOperator.Proofs.Client.Receipt

/-!
When a pass hands a credential out. The connection secret is looked after before the clock is read,
and on the state that was stored, so neither the sunset nor the clock has a say in it: a secret is
made exactly for a client that is stored as ACTIVE and lacks one for its config (`issued_iff`).
-/

namespace BridgeOperator

namespace ClientCall

def concernsSecret : ClientCall → Bool
  | getSecret .. | createSecret .. | deleteSecret .. => true
  | _ => false

/-- The secret that is to be made. -/
def issues? : ClientCall → Option Kube.Secret
  | createSecret _ s => some s
  | _ => none

/-- What was found where a secret was looked for. -/
def finds? : (c : ClientCall) → Answer c → Option (Address × Option Kube.Secret)
  | getSecret ns name, .ok s => some (⟨ns, name⟩, s)
  | _, _ => none

/-- Where there is no secret any more. -/
def drops? : (c : ClientCall) → Answer c → Option Address
  | deleteSecret ns name, .ok _ => some ⟨ns, name⟩
  | _, _ => none

def reads? : (c : ClientCall) → Answer c → Option Instant
  | now, t => some t
  | _, _ => none

end ClientCall

namespace Log

variable (w w' : Log ClientCall)

/-- The secrets that were asked for, whether or not they were made. -/
def issued : List Kube.Secret := w.filterMap fun e => e.1.issues?

def found : List (Address × Option Kube.Secret) := w.filterMap fun e => e.1.finds? e.2

def dropped : List Address := w.filterMap fun e => e.1.drops? e.2

/-- What the clock showed whenever it was read. -/
def readings : List Instant := w.filterMap fun e => e.1.reads? e.2

/-- The clock stands at `t`. -/
def ReadsOnly (t : Instant) : Prop := ∀ t' ∈ w.readings, t' = t

/-- Nothing was done about a secret. -/
def Aside : Prop := ∀ e ∈ w, e.1.concernsSecret = false

variable {w w'}

theorem Aside.filterMap_eq_nil {α : Type} {f : (Σ c : ClientCall, Answer c) → Option α}
    (h : w.Aside) (hf : ∀ e, e.1.concernsSecret = false → f e = none) : w.filterMap f = [] :=
  List.filterMap_eq_nil_iff.mpr fun e he => hf e (h e he)

theorem issued_cons_of_none {c : ClientCall} {r : Answer c} (h : c.issues? = none) :
    Log.issued (⟨c, r⟩ :: w) = w.issued := List.filterMap_cons_none h

theorem aside_nil : Aside [] := List.forall_mem_nil _

theorem Aside.cons {c : ClientCall} {r : Answer c} (h : w.Aside) (hc : c.concernsSecret = false) :
    Log.Aside (⟨c, r⟩ :: w) := List.forall_mem_cons.mpr ⟨hc, h⟩

theorem Aside.append (h : w.Aside) (h' : w'.Aside) : (w ++ w').Aside :=
  List.forall_mem_append.mpr ⟨h, h'⟩

@[simp] theorem issued_append : (w ++ w').issued = w.issued ++ w'.issued :=
  List.filterMap_append

@[simp] theorem found_append : (w ++ w').found = w.found ++ w'.found := List.filterMap_append

@[simp] theorem dropped_append : (w ++ w').dropped = w.dropped ++ w'.dropped :=
  List.filterMap_append

theorem Aside.issued (h : w.Aside) : w.issued = [] :=
  h.filterMap_eq_nil fun ⟨c, r⟩ hc => by cases c <;> first | rfl | cases hc

theorem Aside.found (h : w.Aside) : w.found = [] :=
  h.filterMap_eq_nil fun ⟨c, r⟩ hc => by cases c <;> first | rfl | cases hc

theorem Aside.dropped (h : w.Aside) : w.dropped = [] :=
  h.filterMap_eq_nil fun ⟨c, r⟩ hc => by cases c <;> first | rfl | cases hc

end Log

namespace Client

/-- Where a pass looks for the secret of an ACTIVE client. -/
def recordedAddress (x : Client) (ns : String) : Address :=
  ⟨ns, x.receipt.1.getD (connectionSecretName x.name)⟩

/-- As far as its stored object tells, a client is due a secret for a config. -/
structure Entitled (x : Client) (ns : String) (config : SortedMap String) : Prop where
  live : x.metadata.deletionTimestamp.isSome = false
  placed : x.metadata.namespaceName = some ns
  active : x.stateOrActive = .active
  config : x.config? = some config

/-- As it was answered, the client has no secret for the config: there was none, or it was made
from another config and is gone. -/
inductive Lacks (x : Client) (ns : String) (config : SortedMap String) (w : Log ClientCall) : Prop
  | missing (hlook : (x.recordedAddress ns, none) ∈ w.found)
  | outdated (s : Kube.Secret) (hlook : (x.recordedAddress ns, some s) ∈ w.found)
      (hsource : x.receipt.2 ≠ some (configFingerprint config))
      (hgone : x.recordedAddress ns ∈ w.dropped)

/-- What is issued is what is lacking, and that is looked up. -/
structure Accounts (x : Client) (ns : String) (w : Log ClientCall) : Prop where
  mem_issued : ∀ s, s ∈ w.issued ↔ ∃ config, x.config? = some config ∧ x.Lacks ns config w ∧
    s = connectionSecret x.name ns config x.owner
  looks : x.config? ≠ none → ∃ r, ⟨.getSecret ns (x.recordedAddress ns).name, r⟩ ∈ w

variable {x : Client} {ns : String} {config : SortedMap String} {w w₁ w₂ : Log ClientCall}

theorem Lacks.found_ne_nil (h : x.Lacks ns config w) : w.found ≠ [] := by
  cases h with
  | missing hlook => exact List.ne_nil_of_mem hlook
  | outdated s hlook => exact List.ne_nil_of_mem hlook

theorem Lacks.congr (h : x.Lacks ns config w) (hfound : w₁.found = w.found)
    (hdropped : w₁.dropped = w.dropped) : x.Lacks ns config w₁ := by
  cases h with
  | missing hlook => exact .missing (hfound ▸ hlook)
  | outdated s hlook hsource hgone => exact .outdated s (hfound ▸ hlook) hsource (hdropped ▸ hgone)

theorem accounts_of_issued_eq_nil (hissued : w.issued = [])
    (hlacks : ∀ config, x.config? = some config → ¬ x.Lacks ns config w)
    (hlooks : x.config? ≠ none → ∃ r, ⟨.getSecret ns (x.recordedAddress ns).name, r⟩ ∈ w) :
    x.Accounts ns w := by
  refine ⟨fun s => ⟨fun h => ?_, ?_⟩, hlooks⟩
  · rw [hissued] at h
    cases h
  · rintro ⟨config, hconfig, h, -⟩
    exact absurd h (hlacks config hconfig)

theorem accounts_of_lacks (hconfig : x.config? = some config)
    (hissued : w.issued = [connectionSecret x.name ns config x.owner])
    (hlacks : x.Lacks ns config w)
    (hlooks : ∃ r, ⟨.getSecret ns (x.recordedAddress ns).name, r⟩ ∈ w) : x.Accounts ns w := by
  refine ⟨fun s => ?_, fun _ => hlooks⟩
  rw [hissued, List.mem_singleton]
  constructor
  · exact fun hs => ⟨config, hconfig, hlacks, hs⟩
  · rintro ⟨config', hconfig', -, hs⟩
    cases hconfig.symm.trans hconfig'
    exact hs

/-- What else is done does not matter. -/
theorem Accounts.of_aside (h : x.Accounts ns w) (h₁ : w₁.Aside) (h₂ : w₂.Aside) :
    x.Accounts ns (w₁ ++ (w ++ w₂)) := by
  have hissued : (w₁ ++ (w ++ w₂)).issued = w.issued := by simp [h₁.issued, h₂.issued]
  have hfound : (w₁ ++ (w ++ w₂)).found = w.found := by simp [h₁.found, h₂.found]
  have hdropped : (w₁ ++ (w ++ w₂)).dropped = w.dropped := by simp [h₁.dropped, h₂.dropped]
  have hlacks : ∀ config, x.Lacks ns config (w₁ ++ (w ++ w₂)) ↔ x.Lacks ns config w :=
    fun _ => ⟨fun h => h.congr hfound.symm hdropped.symm, fun h => h.congr hfound hdropped⟩
  refine ⟨fun s => ?_, fun hconfig => ?_⟩
  · rw [hissued, h.mem_issued]
    simp only [hlacks]
  · obtain ⟨r, hr⟩ := h.looks hconfig
    exact ⟨r, List.mem_append_right _ (List.mem_append_left _ hr)⟩

end Client

namespace ClientPass

variable {p : ClientPass} {s : ClientStatus}

theorem yields_createSecret {config : SortedMap String} :
    (p.createSecret s config).run.Yields fun _ w => w.issued = [p.secret config] := by
  unfold createSecret
  rw [Attempt.yields_bind]
  rintro (e | u)
  · rfl
  · exact fun _ => rfl

theorem yields_syncSecret (hs : s.receipt = p.client.receipt) :
    (p.syncSecret s).run.Yields fun _ w => p.client.Accounts p.namespaceName w := by
  have hname : p.secretName s = (p.client.recordedAddress p.namespaceName).name := by
    unfold secretName Client.recordedAddress
    rw [← hs]
    rfl
  have hsource : s.secretSource = p.client.receipt.2 := congrArg Prod.snd hs
  unfold syncSecret
  rw [hname, hsource]
  cases hconfig : p.client.spec.providerConfig.filter (!·.isEmpty) with
  | none =>
    have hnone : p.client.config? = none := hconfig
    have hskip : ∀ {w : Log ClientCall}, w.issued = [] → p.client.Accounts p.namespaceName w :=
      fun hw => Client.accounts_of_issued_eq_nil hw (by simp [hnone]) (by simp [hnone])
    show (p.dropSecret s).run.Yields _
    unfold dropSecret
    cases s.secretName with
    | none => exact hskip rfl
    | some name => rintro (e | u) <;> exact hskip rfl
  | some config =>
    have hsome : p.client.config? = some config := hconfig
    rintro (e | _ | found)
    · exact Client.accounts_of_issued_eq_nil rfl (fun _ _ h => h.found_ne_nil rfl)
        fun _ => ⟨_, List.mem_cons_self⟩
    · refine yields_createSecret.mono fun r w hw => ?_
      exact Client.accounts_of_lacks hsome hw (.missing List.mem_cons_self)
        ⟨_, List.mem_cons_self⟩
    · show (if _ then _ else _ : ClientWork ClientStatus).run.Yields _
      split
      · next hsame =>
        refine Client.accounts_of_issued_eq_nil rfl ?_ fun _ => ⟨_, List.mem_cons_self⟩
        rintro config' hconfig' (h | ⟨s, h, hne, -⟩)
        · cases h with
          | tail _ h => cases h
        · cases hsome.symm.trans hconfig'
          exact hne hsame
      · next hne =>
        rintro (e | u)
        · refine Client.accounts_of_issued_eq_nil rfl ?_ fun _ => ⟨_, List.mem_cons_self⟩
          rintro config' hconfig' (h | ⟨s, -, -, h⟩)
          · cases h with
            | tail _ h => cases h
          · cases h
        · refine yields_createSecret.mono fun r w hw => ?_
          exact Client.accounts_of_lacks hsome hw
            (.outdated found List.mem_cons_self hne List.mem_cons_self) ⟨_, List.mem_cons_self⟩

/-- Once the secret is in line with the config none is made, and while the client is ACTIVE none is
touched. -/
theorem Tends.path {φ φ' : Unit} {w : Log ClientCall} (h : Prog.Path (Tends p s) φ w φ') :
    w.issued = [] ∧ (p.client.stateOrActive = .active → w.Aside) := by
  induction h with
  | nil => exact ⟨rfl, fun _ => Log.aside_nil⟩
  | cons hdoes _ ih =>
    obtain ⟨hissued, haside⟩ := ih
    cases hdoes with
    | discard r hx =>
      exact ⟨(Log.issued_cons_of_none rfl).trans hissued, fun hactive => absurd hactive hx⟩
    | _ =>
      exact ⟨(Log.issued_cons_of_none rfl).trans hissued,
        fun hactive => (haside hactive).cons rfl⟩

theorem yields_storing : (p.storing s).run.Yields fun _ w =>
    w.issued = [] ∧ (p.client.stateOrActive = .active → w.Aside) := by
  have hwatching : ∀ w₁ : Log ClientCall, w₁.Aside → (p.watching s).run.Yields fun _ w =>
      (w₁ ++ w).issued = [] ∧ (p.client.stateOrActive = .active → (w₁ ++ w).Aside) := by
    refine fun w₁ hw₁ => (Tends.keeps_watching (p := p) (s := s)).yields.mono ?_
    intro r w ⟨φ, hpath, _⟩
    obtain ⟨hissued, haside⟩ := Tends.path hpath
    exact ⟨by rw [Log.issued_append, hw₁.issued, hissued]; rfl,
      fun hactive => hw₁.append (haside hactive)⟩
  unfold storing
  split
  · rw [Attempt.yields_bind]
    rintro (e | u)
    · exact ⟨rfl, fun _ => Log.aside_nil.cons rfl⟩
    · exact hwatching [_] (Log.aside_nil.cons rfl)
  · exact hwatching [] Log.aside_nil

theorem yields_run (hs : s.receipt = p.client.receipt) (hstate : s.state = p.client.stateOrActive) :
    (p.run s).run.Yields fun _ w =>
      (p.client.stateOrActive = .active → p.client.Accounts p.namespaceName w) ∧
        (p.client.stateOrActive ≠ .active → w.issued = []) := by
  rw [run_eq, hstate]
  split
  · next hactive =>
    rw [Attempt.yields_bind]
    refine (yields_syncSecret hs).mono fun r w hw => ?_
    cases r with
    | error e => exact ⟨fun _ => hw, absurd hactive⟩
    | ok s' =>
      refine yields_storing.mono fun r w' ⟨_, haside⟩ => ⟨fun _ => ?_, absurd hactive⟩
      exact hw.of_aside Log.aside_nil (haside hactive)
  · next hactive =>
    exact yields_storing.mono fun r w ⟨hissued, _⟩ => ⟨fun h => absurd h hactive, fun _ => hissued⟩

end ClientPass

namespace Client

variable {x : Client}

/-- What a pass over a stored client issues, and that it looks for a secret that is due unless it
cannot claim the client. -/
structure Issuing (x : Client) (w : Log ClientCall) : Prop where
  mem_issued : ∀ s, s ∈ w.issued ↔ ∃ ns config, x.Entitled ns config ∧ x.Lacks ns config w ∧
    s = connectionSecret x.name ns config x.owner
  looks : ∀ ns config, x.Entitled ns config →
    (∃ r, ⟨.getSecret ns (x.recordedAddress ns).name, r⟩ ∈ w) ∨
      ∃ e, ⟨.addFinalizer ns x.name, .error e⟩ ∈ w

theorem issuing_of_not_entitled {w : Log ClientCall} (hissued : w.issued = [])
    (hx : ∀ ns config, ¬ x.Entitled ns config) : x.Issuing w := by
  refine ⟨fun s => ⟨fun h => ?_, ?_⟩, fun ns config h => absurd h (hx ns config)⟩
  · rw [hissued] at h
    cases h
  · rintro ⟨ns, config, h, -⟩
    exact absurd h (hx ns config)

theorem issues_nothing_of_remove : x.remove.run.Yields fun _ w => w.issued = [] := by
  unfold remove
  cases x.metadata.namespaceName with
  | none => rfl
  | some ns =>
    dsimp only
    split
    · rfl
    · rw [Attempt.yields_bind, Attempt.yields_outcome]
      intro r
      show (_ >>= _ : ClientWork Action).run.Yields _
      rw [Attempt.yields_bind, Attempt.yields_outcome]
      rintro (e | u) <;> rfl

/-- A pass issues what its run issues: what is lacking if the client is ACTIVE, else nothing. -/
theorem issuing_of_accounts {ns : String} {w₁ w : Log ClientCall}
    (hlive : x.metadata.deletionTimestamp.isSome = false)
    (hns : x.metadata.namespaceName = some ns) (hw₁ : w₁.Aside)
    (hactive : x.stateOrActive = .active → x.Accounts ns w)
    (hother : x.stateOrActive ≠ .active → w.issued = []) : x.Issuing (w₁ ++ w) := by
  by_cases hstate : x.stateOrActive = .active
  · have haccounts := (hactive hstate).of_aside hw₁ Log.aside_nil
    rw [List.append_nil] at haccounts
    constructor
    · intro s
      rw [haccounts.mem_issued]
      constructor
      · rintro ⟨config, hconfig, hlacks, hs⟩
        exact ⟨ns, config, ⟨hlive, hns, hstate, hconfig⟩, hlacks, hs⟩
      · rintro ⟨ns', config, hentitled, hlacks, hs⟩
        cases hns.symm.trans hentitled.placed
        exact ⟨config, hentitled.config, hlacks, hs⟩
    · intro ns' config hentitled
      cases hns.symm.trans hentitled.placed
      exact .inl (haccounts.looks (by simp [hentitled.config]))
  · refine issuing_of_not_entitled ?_ fun ns config h => hstate h.active
    rw [Log.issued_append, hw₁.issued, hother hstate]
    rfl

/-- Nothing that a pass does before it runs has to do with a secret. -/
theorem yields_passFrom {c : OperatorConfig} {status : ClientWork ClientStatus}
    (hlive : x.metadata.deletionTimestamp.isSome = false)
    (hstatus : status.run.Yields fun r w =>
      w.Aside ∧ ∃ s, r = .ok s ∧ s.receipt = x.receipt ∧ s.state = x.stateOrActive) :
    (x.passFrom c status).run.Yields fun _ w => x.Issuing w := by
  unfold passFrom
  cases hns : x.metadata.namespaceName with
  | none =>
    refine issuing_of_not_entitled rfl fun ns config h => ?_
    cases hns.symm.trans h.placed
  | some ns =>
    have hpass : ∀ w₁ : Log ClientCall, w₁.Aside →
        (do ClientPass.run ⟨c, x, ns⟩ (← status) : ClientWork Action).run.Yields
          fun _ w => x.Issuing (w₁ ++ w) := by
      intro w₁ hw₁
      rw [Attempt.yields_bind]
      refine hstatus.mono fun r w₂ ⟨hw₂, s, hr, hs, hstate⟩ => ?_
      subst hr
      refine (ClientPass.yields_run (p := ⟨c, x, ns⟩) hs hstate).mono ?_
      intro r w ⟨hactive, hother⟩
      show x.Issuing (w₁ ++ (w₂ ++ w))
      rw [← List.append_assoc]
      exact issuing_of_accounts hlive hns (hw₁.append hw₂) hactive hother
    show (_ >>= _ : ClientWork Action).run.Yields _
    rw [Attempt.yields_bind]
    unfold ensureFinalizer
    split
    · rintro (e | u)
      · have haside : Log.Aside [⟨.addFinalizer ns x.name, .error e⟩] := Log.aside_nil.cons rfl
        refine ⟨fun s => ⟨nofun, ?_⟩, fun ns' config h => .inr ?_⟩
        · rintro ⟨ns', config, -, hlacks, -⟩
          exact absurd haside.found hlacks.found_ne_nil
        · cases hns.symm.trans h.placed
          exact ⟨e, List.mem_singleton_self _⟩
      · exact hpass [_] (Log.aside_nil.cons rfl)
    · exact hpass [] Log.aside_nil

theorem yields_reconcile (config : OperatorConfig) :
    (x.reconcile config).run.Yields fun _ w => x.Issuing w := by
  unfold reconcile
  split
  · next hdeleted =>
    refine issues_nothing_of_remove.mono fun r w hw =>
      issuing_of_not_entitled hw fun ns config h => ?_
    rw [h.live] at hdeleted
    cases hdeleted
  · next hlive =>
    have hlive : x.metadata.deletionTimestamp.isSome = false := Bool.eq_false_iff.mpr hlive
    split
    · next hnew =>
      have hnone := Option.isNone_iff_eq_none.mp hnew
      refine yields_passFrom hlive ?_
      refine fun t => ⟨Log.aside_nil.cons rfl, _, rfl, ?_, (stateOrActive_of_new hnone).symm⟩
      rw [receipt, hnone]
      rfl
    · exact yields_passFrom hlive ⟨Log.aside_nil, _, rfl, rfl, x.state_found⟩

/-- Every call succeeds, there is no secret, and the clock stands at `t`. -/
def obliging (t : Instant) : (c : ClientCall) → Answer c
  | .now => t
  | .publish _ => ()
  | .patchStatus .. | .addFinalizer .. | .removeFinalizer .. | .createSecret .. => .ok ()
  | .deleteClient .. | .deleteSecret .. => .ok true
  | .getSecret .. => .ok none
  | .deleteBridgesOf .. => .ok 0

theorem readsOnly_of_obliging {t : Instant} {w : Log ClientCall}
    (hw : ∀ e ∈ w, e.2 = obliging t e.1) : w.ReadsOnly t := by
  intro t' ht'
  obtain ⟨⟨c, r⟩, he, hread⟩ := List.mem_filterMap.mp ht'
  obtain rfl : r = obliging t c := hw _ he
  cases c with
  | now => exact (Option.some.inj hread).symm
  | _ => cases hread

/-- Whatever the clock shows, a pass may issue a secret for a client that is due one. -/
theorem withheld_iff (config : OperatorConfig) (now : Instant) :
    ((x.reconcile config).run.Yields fun _ w => w.ReadsOnly now → w.issued = []) ↔
      ∀ ns m, ¬ x.Entitled ns m := by
  constructor
  · intro h ns m hx
    obtain ⟨_, w, ⟨hissuing, hnone⟩, hw⟩ :=
      ((yields_reconcile config).and h).answered (obliging now)
    rcases hissuing.looks ns m hx with ⟨r, hlook⟩ | ⟨e, hclaim⟩
    · obtain rfl : r = .ok none := hw _ hlook
      have hlacks : x.Lacks ns m w := .missing (List.mem_filterMap.mpr ⟨_, hlook, rfl⟩)
      have hissued := (hissuing.mem_issued _).mpr ⟨ns, m, hx, hlacks, rfl⟩
      rw [hnone (readsOnly_of_obliging hw)] at hissued
      cases hissued
    · cases hw _ hclaim
  · intro hx
    refine (yields_reconcile config).mono fun r w hw _ => ?_
    refine List.eq_nil_iff_forall_not_mem.mpr fun s hs => ?_
    obtain ⟨ns, m, h, -⟩ := (hw.mem_issued s).mp hs
    exact hx ns m h

/-- A secret is asked for exactly if the client is stored as ACTIVE, has a config and lacks the
secret for it. The clock is of no account: a client whose sunset has come gets its secret all the
same, and one that is due a secret may get it whenever the pass is. -/
theorem issued_iff (x : Client) (config : OperatorConfig) :
    ((x.reconcile config).run.Yields fun _ w => ∀ s, s ∈ w.issued ↔ ∃ ns m,
      x.Entitled ns m ∧ x.Lacks ns m w ∧ s = connectionSecret x.name ns m x.owner) ∧
    ∀ now, ((x.reconcile config).run.Yields fun _ w => w.ReadsOnly now → w.issued = []) ↔
      ∀ ns m, ¬ x.Entitled ns m :=
  ⟨(yields_reconcile config).mono fun _ _ hw => hw.mem_issued, withheld_iff config⟩

namespace Sample

def endpoint : SortedMap String := .ofList [("endpoint", "10.0.0.1")]

/-- The client with something to be handed out. -/
def supplied : Client := { alice with spec := { alice.spec with providerConfig := some endpoint } }

theorem entitled_supplied : supplied.Entitled "gefyra" endpoint := ⟨rfl, rfl, rfl, rfl⟩

end Sample

open Client.Sample in
/-- A credential is not withheld once the sunset has come. -/
theorem not_withheld_after_sunset : ¬ ∀ (x : Client) (config : OperatorConfig)
    (sunset now : Instant), x.sunset? = some sunset → sunset.notAfter now = true →
      (x.reconcile config).run.Yields fun _ w => w.ReadsOnly now → w.issued = [] := by
  intro h
  have hwithheld := h supplied .default (seconds 0) (seconds 3600) rfl rfl
  exact (withheld_iff _ _).mp hwithheld _ _ entitled_supplied

end Client
end BridgeOperator
