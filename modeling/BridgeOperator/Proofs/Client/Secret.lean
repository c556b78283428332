import BridgeOperator.Cluster.Controllers
import BridgeOperator.Proofs.Client.Protocol
import BridgeOperator.Proofs.Encoding.Base64
import BridgeOperator.Proofs.World.Basic

/-!
What a pass over a client does to its connection secret. It goes by what the status says of the
secret, its receipt: a pass leaves the secret alone, takes it away, or makes it from the config.
-/

namespace BridgeOperator

/-- The entries that the base64 text stands for; `none` if some of it is malformed. -/
def Kube.Secret.decoded? (s : Kube.Secret) : Option (List (String × String)) :=
  (s.data.getD ∅).toList.mapM fun e => (Base64.decode? e.2).map fun v => (e.1, v)

theorem decoded?_connectionSecret (client namespaceName : String) (config : SortedMap String)
    (owner : Option Kube.OwnerReference) :
    (connectionSecret client namespaceName config owner).decoded? = some config.toList := by
  show (config.toList.map _).mapM _ = some config.toList
  induction config.toList with
  | nil => rfl
  | cons e rest ih => simp [Base64.decode?_encode, ih]

/-- What a status says of the secret: its name and the fingerprint of what it was made from. -/
def ClientStatus.receipt (s : ClientStatus) : Option String × Option String :=
  (s.secretName, s.secretSource)

namespace Client

def receipt (x : Client) : Option String × Option String := (x.status.getD .initial).receipt

/-- The config that a secret is made from. -/
def config? (x : Client) : Option (SortedMap String) := x.spec.providerConfig.filter (!·.isEmpty)

/-- Where the connection secret of a client is stored. -/
def secretAddress (x : Client) : Address :=
  ⟨x.metadata.namespaceName.getD "", connectionSecretName x.name⟩

/-- The receipt of a secret that was made from a config. -/
def receiptFor (x : Client) (config : SortedMap String) : Option String × Option String :=
  (some (connectionSecretName x.name), some (configFingerprint config))

/-- The secret of the one is where that of the other is. -/
structure Follows (c x : Client) : Prop where
  name : c.name = x.name
  namespaceName : c.metadata.namespaceName = x.metadata.namespaceName

theorem Follows.secretAddress {c x : Client} (h : c.Follows x) :
    c.secretAddress = x.secretAddress := by
  unfold Client.secretAddress
  rw [h.name, h.namespaceName]

theorem Follows.receiptFor {c x : Client} (h : c.Follows x) : c.receiptFor = x.receiptFor := by
  unfold Client.receiptFor
  rw [h.name]

end Client

/-- The stored client, if it is there, and the stored secrets. -/
structure ClientStore where
  client : Option Client
  secrets : Address → Option Kube.Secret

namespace ClientStore

def modify (w : ClientStore) (f : Client → Option Client) : ClientStore :=
  { w with client := w.client.bind f }

def put (w : ClientStore) (a : Address) (s : Option Kube.Secret) : ClientStore :=
  { w with secrets := Function.update w.secrets a s }

/-- The client after its status has been patched. -/
def patched (s : ClientStatus) (c : Client) : Option Client := some { c with status := some s }

/-- The client with other metadata. Once nothing keeps it from its deletion it goes. -/
def amended (f : Kube.Metadata → Kube.Metadata) (c : Client) : Option Client :=
  if (f c.metadata).isReleased then none else some { c with metadata := f c.metadata }

/-- How a pass over the client is answered. -/
def Serves : (c : ClientCall) → ClientStore → Answer c → ClientStore → Prop
  | .patchStatus _ _ s, w, r, w' => Settles (w.modify (patched s)) w r w'
  | .addFinalizer .., w, r, w' =>
    Settles (w.modify (amended (·.addFinalizer Client.finalizer))) w r w'
  | .removeFinalizer .., w, r, w' =>
    Settles (w.modify (amended (·.removeFinalizer Client.finalizer))) w r w'
  | .deleteClient .., w, r, w' => ∃ t : Instant,
    Settles (w.modify (amended fun m => { m with deletionTimestamp := some t })) w r w'
  | .getSecret ns name, w, r, w' => w' = w ∧ ∀ s, r = .ok s → s = w.secrets ⟨ns, name⟩
  | .createSecret ns s, w, r, w' => Settles (w.put ⟨ns, s.metadata.nameOrEmpty⟩ (some s)) w r w'
  | .deleteSecret ns name, w, r, w' => Settles (w.put ⟨ns, name⟩ none) w r w'
  | .now, w, _, w' | .publish _, w, _, w' | .deleteBridgesOf .., w, _, w' => w' = w

/-- The secret that is stored holds the config. -/
def Holds (w : ClientStore) (a : Address) (config : SortedMap String) : Prop :=
  ∃ s, w.secrets a = some s ∧ s.decoded? = some config.toList

/-- The client, if it is still there, has the receipt `ρ`. -/
def Bears (x : Client) (ρ : Option String × Option String) (w : ClientStore) : Prop :=
  ∀ c, w.client = some c → c.Follows x ∧ c.receipt = ρ

variable {w w' : ClientStore} {x : Client} {ρ : Option String × Option String} {a : Address}

@[simp] theorem secrets_put (s : Option Kube.Secret) : (w.put a s).secrets a = s :=
  Function.update_self ..

@[simp] theorem put_put (s t : Option Kube.Secret) : (w.put a s).put a t = w.put a t := by
  simp [put]

theorem bears_put (s : Option Kube.Secret) : Bears x ρ (w.put a s) ↔ Bears x ρ w := Iff.rfl

theorem Bears.patched (h : Bears x ρ w) {s : ClientStatus} :
    Bears x s.receipt (w.modify (patched s)) := by
  intro c hc
  obtain ⟨c₀, hc₀, hpatched⟩ := Option.bind_eq_some_iff.mp hc
  cases hpatched
  obtain ⟨⟨hname, hns⟩, -⟩ := h c₀ hc₀
  exact ⟨⟨hname, hns⟩, rfl⟩

theorem Bears.amended (h : Bears x ρ w) {f : Kube.Metadata → Kube.Metadata}
    (hname : ∀ m, (f m).anyName = m.anyName)
    (hns : ∀ m, (f m).namespaceName = m.namespaceName) :
    Bears x ρ (w.modify (amended f)) := by
  intro c hc
  obtain ⟨c₀, hc₀, hamended⟩ := Option.bind_eq_some_iff.mp hc
  obtain ⟨hfollows, hreceipt⟩ := h c₀ hc₀
  unfold ClientStore.amended at hamended
  split at hamended
  · cases hamended
  · cases hamended
    exact ⟨⟨(hname _).trans hfollows.name, (hns _).trans hfollows.namespaceName⟩, hreceipt⟩

end ClientStore

namespace ClientPass

open ClientStore

variable {p : ClientPass} {s : ClientStatus} {w w' : ClientStore}

/-- Where the pass makes the secret. -/
def address (p : ClientPass) : Address := ⟨p.namespaceName, connectionSecretName p.client.name⟩

def secret (p : ClientPass) (config : SortedMap String) : Kube.Secret :=
  connectionSecret p.client.name p.namespaceName config p.client.owner

/-- The status with a receipt for the secret made from a config. -/
def made (p : ClientPass) (s : ClientStatus) (config : SortedMap String) : ClientStatus :=
  { s with
    secretName := some (connectionSecretName p.client.name)
    secretSource := some (configFingerprint config) }

theorem exec_createSecret {config : SortedMap String} {r : Except Error ClientStatus}
    (h : (p.createSecret s config).run.Exec Serves w r w') :
    r = .ok (p.made s config) ∧ w' = w.put p.address (some (p.secret config)) ∨
      (∃ e, r = .error e) ∧ (w' = w ∨ w' = w.put p.address (some (p.secret config))) := by
  unfold createSecret at h
  rcases Attempt.exec_bind.mp h with ⟨u, w₁, hcreate, hrest⟩ | ⟨e, hcreate, rfl⟩
  · obtain rfl | ⟨⟨e, he⟩, -⟩ := Prog.exec_perform.mp hcreate
    · obtain ⟨u, w₂, htell, hreturn⟩ := Attempt.exec_always_bind.mp hrest
      obtain rfl : w₂ = w.put p.address (some (p.secret config)) := Prog.exec_perform.mp htell
      obtain ⟨rfl, rfl⟩ := Attempt.exec_pure.mp hreturn
      exact .inl ⟨rfl, rfl⟩
    · cases he
  · obtain rfl | ⟨-, rfl⟩ := Prog.exec_perform.mp hcreate
    · exact .inr ⟨⟨e, rfl⟩, .inr rfl⟩
    · exact .inr ⟨⟨e, rfl⟩, .inl rfl⟩

/-- What becomes of the secret and of the status, which is not stored yet. -/
inductive Syncs (p : ClientPass) (s : ClientStatus) (w : ClientStore) :
    Except Error ClientStatus → ClientStore → Prop
  | idle (h : p.client.config? = none ∧ s.secretName = none ∨
      ∃ config, p.client.config? = some config ∧ (w.secrets p.address).isSome ∧
        s.secretSource = some (configFingerprint config)) : Syncs p s w (.ok s) w
  | drop (hconfig : p.client.config? = none) (hname : s.secretName ≠ none) :
      Syncs p s w (.ok { s with secretName := none, secretSource := none }) (w.put p.address none)
  | make (config : SortedMap String) (hconfig : p.client.config? = some config)
      (hold : ¬ ((w.secrets p.address).isSome ∧
        s.secretSource = some (configFingerprint config))) :
      Syncs p s w (.ok (p.made s config)) (w.put p.address (some (p.secret config)))
  | fail (e : Error) {w' : ClientStore} (h : w' = w ∨ w' = w.put p.address none ∨
      ∃ config, p.client.config? = some config ∧
        w' = w.put p.address (some (p.secret config))) : Syncs p s w (.error e) w'

theorem exec_dropSecret (hs : p.secretName s = connectionSecretName p.client.name)
    (hconfig : p.client.config? = none) {r : Except Error ClientStatus}
    (h : (p.dropSecret s).run.Exec Serves w r w') : Syncs p s w r w' := by
  unfold dropSecret at h
  unfold secretName at hs
  cases hname : s.secretName with
  | none =>
    rw [hname] at h
    obtain ⟨rfl, rfl⟩ := Attempt.exec_pure.mp h
    exact .idle (.inl ⟨hconfig, hname⟩)
  | some name =>
    rw [hname] at h hs
    obtain rfl : name = connectionSecretName p.client.name := hs
    rcases Attempt.exec_bind.mp h with ⟨u, w₁, hdelete, hreturn⟩ | ⟨e, hdelete, rfl⟩
    · obtain rfl | ⟨⟨e, he⟩, -⟩ := Prog.exec_perform.mp hdelete
      · obtain ⟨rfl, rfl⟩ := Attempt.exec_pure.mp hreturn
        exact .drop hconfig (hname ▸ nofun)
      · cases he
    · obtain rfl | ⟨-, rfl⟩ := Prog.exec_perform.mp hdelete
      · exact .fail e (.inr (.inl rfl))
      · exact .fail e (.inl rfl)

/-- Making the secret, after the old one has been taken away or not. -/
theorem syncs_of_createSecret {config : SortedMap String} {w₁ : ClientStore}
    {r : Except Error ClientStatus} (hconfig : p.client.config? = some config)
    (hold : ¬ ((w.secrets p.address).isSome ∧ s.secretSource = some (configFingerprint config)))
    (hw₁ : w₁ = w ∨ w₁ = w.put p.address none)
    (h : (p.createSecret s config).run.Exec Serves w₁ r w') : Syncs p s w r w' := by
  have hput : ∀ t, w₁.put p.address t = w.put p.address t := by
    intro t
    rcases hw₁ with rfl | rfl
    · rfl
    · exact put_put _ _
  rcases exec_createSecret h with ⟨rfl, rfl⟩ | ⟨⟨e, rfl⟩, rfl | rfl⟩
  · rw [hput]
    exact .make config hconfig hold
  · exact .fail e (hw₁.imp_right .inl)
  · rw [hput]
    exact .fail e (.inr (.inr ⟨config, hconfig, rfl⟩))

theorem exec_syncSecret (hs : p.secretName s = connectionSecretName p.client.name)
    {r : Except Error ClientStatus} (h : (p.syncSecret s).run.Exec Serves w r w') :
    Syncs p s w r w' := by
  unfold syncSecret at h
  cases hconfig : p.client.spec.providerConfig.filter (!·.isEmpty) with
  | none =>
    rw [hconfig] at h
    exact exec_dropSecret hs hconfig h
  | some config =>
    rw [hconfig] at h
    rcases Attempt.exec_bind.mp h with ⟨existing, w₁, hget, hrest⟩ | ⟨e, hget, rfl⟩
    · obtain ⟨rfl, hexisting⟩ := Prog.exec_perform.mp hget
      obtain rfl : existing = w₁.secrets p.address := by
        rw [hexisting existing rfl, hs]
        rfl
      split at hrest
      · next hsome =>
        split at hrest
        · next hsource =>
          obtain ⟨rfl, rfl⟩ := Attempt.exec_pure.mp hrest
          exact .idle (.inr ⟨config, hconfig, hsome, hsource⟩)
        · next hsource =>
          have hold := not_and_of_not_right ((w₁.secrets p.address).isSome = true) hsource
          rcases Attempt.exec_bind.mp hrest with ⟨u, w₂, hdelete, hcreate⟩ | ⟨e, hdelete, rfl⟩
          · rw [hs] at hdelete
            obtain rfl | ⟨⟨e, he⟩, -⟩ := Prog.exec_perform.mp hdelete
            · exact syncs_of_createSecret hconfig hold (.inr rfl) hcreate
            · cases he
          · rw [hs] at hdelete
            obtain rfl | ⟨-, rfl⟩ := Prog.exec_perform.mp hdelete
            · exact .fail e (.inr (.inl rfl))
            · exact .fail e (.inl rfl)
      · next hnone =>
        exact syncs_of_createSecret hconfig (fun h => hnone h.1) (.inl rfl) hrest
    · obtain ⟨rfl, -⟩ := Prog.exec_perform.mp hget
      exact .fail e (.inl rfl)

end ClientPass
end BridgeOperator
