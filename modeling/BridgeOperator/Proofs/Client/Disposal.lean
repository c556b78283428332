import BridgeOperator.Proofs.Client.Secret

/-!
In what order a pass handles the connection secret. It makes one only for a client that was found
ACTIVE and only before it stores a status, and it deletes the client only once the secret is gone.
There is one address at which all of this happens, whatever was recorded of it
(`reconcile_guards`).
-/

namespace BridgeOperator

/-- The status names no other secret than the client's. -/
def Client.Names (x : Client) (s : ClientStatus) : Prop :=
  ∀ name, s.secretName = some name → name = connectionSecretName x.name

namespace ClientCall

/-- The call has to do with neither the secret nor the stored status, nor does it delete. -/
def isApart : ClientCall → Bool
  | patchStatus .. | createSecret .. | deleteSecret .. | deleteClient .. => false
  | _ => true

end ClientCall

namespace ClientPass

/-- How far a pass has come: it may still make the secret, it has stored a status, or the secret is
gone for good. -/
inductive Stage where
  | syncing
  | settled
  | cleared
  deriving DecidableEq

/-- What a pass over the client `x` may do about the secret. -/
inductive Guards (x : Client) : Protocol ClientCall Stage
  | apart (φ : Stage) (c : ClientCall) (r : Answer c) (hc : c.isApart = true) : Guards x φ c r φ
  | drop (ns name : String) (r : Except Error Bool) :
      Guards x .syncing (.deleteSecret ns name) r .syncing
  | create (ns : String) (s : Kube.Secret) (r : Except Error Unit)
      (hs : (⟨ns, s.metadata.nameOrEmpty⟩ : Address) = x.secretAddress) :
      Guards x .syncing (.createSecret ns s) r .syncing
  | record (φ : Stage) (ns name : String) (s : ClientStatus) (r : Except Error Unit)
      (hs : x.Names s) : Guards x φ (.patchStatus ns name s) r .settled
  | clear (ns name : String) (existed : Bool) (hs : (⟨ns, name⟩ : Address) = x.secretAddress) :
      Guards x .settled (.deleteSecret ns name) (.ok existed) .cleared
  | fail (ns name : String) (e : Error) :
      Guards x .settled (.deleteSecret ns name) (.error e) .settled
  | delete (ns name : String) (r : Except Error Bool) :
      Guards x .cleared (.deleteClient ns name) r .cleared

/-- Where a pass over the client begins. -/
def firstStage (x : Client) : Stage := if x.stateOrActive = .active then .syncing else .settled

theorem firstStage_of_ne {x : Client} (h : x.stateOrActive ≠ .active) :
    firstStage x = .settled := if_neg h

namespace Guards

variable {x : Client} {φ : Stage} {p : ClientPass} {s : ClientStatus}

theorem publish (φ : Stage) (n : Kube.Notice) (r : Answer (ClientCall.publish n)) :
    Guards x φ (.publish n) r φ := .apart φ _ r rfl

theorem secretName_eq (h : p.client.Names s) :
    p.secretName s = connectionSecretName p.client.name := by
  unfold secretName
  cases hs : s.secretName with
  | none => rfl
  | some name => exact h name hs

theorem names_of_receipted {s' : ClientStatus} (hs : p.client.Names s) (h : Receipted p s s') :
    p.client.Names s' := by
  cases h with
  | same => exact hs
  | dropped => nofun
  | made config => exact fun name hname => (Option.some.inj hname).symm

section

variable (hns : p.client.metadata.namespaceName = some p.namespaceName)

include hns

theorem address_eq : (⟨p.namespaceName, connectionSecretName p.client.name⟩ : Address) =
    p.client.secretAddress := by
  unfold Client.secretAddress
  rw [hns]
  rfl

variable (hs : p.client.Names s)

include hs

/-- The client goes only if the deletion of the secret was answered. -/
theorem mayEnd : MayEnd (Guards p.client) p s .settled := by
  intro r
  cases r with
  | error e => exact ⟨_, .fail _ _ e, nofun⟩
  | ok existed =>
    have haddress : (⟨p.namespaceName, p.secretName s⟩ : Address) = p.client.secretAddress := by
      rw [secretName_eq hs]
      exact address_eq hns
    exact ⟨_, .clear _ _ existed haddress, fun _ _ r' => ⟨_, .delete _ _ r'⟩⟩

/-- A client that was found ACTIVE is not deleted in this pass. -/
theorem keeps_watching (hφ : p.client.stateOrActive ≠ .active → φ = .settled) :
    (p.watching s).run.Keeps (Guards p.client) φ fun _ _ => True := by
  refine watching_keeps fun now => ⟨_, .apart _ _ now rfl, ?_⟩
  refine supervise_keeps (fun deadline _ => ?_) fun hdecision => ?_
  · exact moveToWaiting_keeps publish fun _ t =>
      ⟨_, .apart _ _ t rfl, fun r => ⟨_, .record _ _ _ _ r hs⟩⟩
  · obtain rfl := hφ (Client.evaluate_eq_delete hdecision).1
    exact delete_keeps publish (fun _ => mayEnd hns hs) fun _ _ t =>
      ⟨_, .apart _ _ t rfl, fun r => ⟨_, .record _ _ _ _ r hs, mayEnd hns hs⟩⟩

theorem keeps_storing (hφ : p.client.stateOrActive ≠ .active → φ = .settled) :
    (p.storing s).run.Keeps (Guards p.client) φ fun _ _ => True :=
  storing_keeps (fun _ r => ⟨_, .record _ _ _ _ r hs, fun _ => keeps_watching hns hs fun _ => rfl⟩)
    fun _ => keeps_watching hns hs hφ

theorem keeps_run (hstate : s.state = p.client.stateOrActive) :
    (p.run s).run.Keeps (Guards p.client) (firstStage p.client) fun _ _ => True := by
  refine run_keeps (fun hactive => ?_) fun _ => keeps_storing hns hs firstStage_of_ne
  have hactive : p.client.stateOrActive = .active := hstate.symm.trans hactive
  rw [firstStage, if_pos hactive]
  refine syncSecret_keeps publish (fun _ r => .apart _ _ r rfl) (fun _ r => .drop _ _ r)
    (fun _ r => .create _ _ r (address_eq hns)) (fun s' hs' => ?_) fun e => nofun
  rintro _ ⟨⟩
  exact keeps_storing hns (names_of_receipted hs hs') fun h => absurd hactive h

end

end Guards

/-- Reconciling a client whose record names its own secret handles the secret in this order. -/
theorem reconcile_guards {c : Client} (hnames : c.Names (c.status.getD .initial))
    (config : OperatorConfig) :
    (c.reconcile config).run.Keeps (Guards c) (firstStage c) fun _ _ => True := by
  refine Client.reconcile_keeps (fun _ r => .apart _ _ r rfl) (fun _ r => .apart _ _ r rfl)
    (fun _ r => .apart _ _ r rfl) (fun hnew ns hns message t => ⟨_, .apart _ _ t rfl, ?_⟩)
    fun ns hns => ?_
  · exact Guards.keeps_run (p := ⟨config, c, ns⟩) hns nofun (Client.stateOrActive_of_new hnew).symm
  · exact Guards.keeps_run (p := ⟨config, c, ns⟩) hns hnames c.state_found

end ClientPass
end BridgeOperator
