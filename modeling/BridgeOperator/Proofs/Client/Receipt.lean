import BridgeOperator.Proofs.Client.Secret

/-!
What a whole pass does to the connection secret and to its receipt. Once the secret has been dealt
with the receipt is stored, unless that fails, and the rest of the pass changes neither of them for
an active client. `exec_reconcile` says what becomes of both, whatever fails.
-/

namespace BridgeOperator
namespace ClientPass

open ClientStore

variable {p : ClientPass} {s : ClientStatus} {w w' : ClientStore}

/-- What is done once the secret is in line with the config. The receipt stays as it is, and only a
client that is not active loses its secret. -/
inductive Tends (p : ClientPass) (s : ClientStatus) : Protocol ClientCall Unit
  | now (t : Instant) : Tends p s () .now t ()
  | publish (n : Kube.Notice) : Tends p s () (.publish n) () ()
  | record (t : ClientStatus) (r : Except Error Unit) (ht : t.receipt = s.receipt) :
    Tends p s () (.patchStatus p.namespaceName p.client.name t) r ()
  | discard (r : Except Error Bool) (hx : p.client.stateOrActive ≠ .active) :
    Tends p s () (.deleteSecret p.namespaceName (p.secretName s)) r ()
  | delete (r : Except Error Bool) :
    Tends p s () (.deleteClient p.namespaceName p.client.name) r ()

namespace Tends

theorem keeps_watching : (p.watching s).run.Keeps (Tends p s) () fun _ _ => True := by
  have hpublish : ∀ φ n r, Tends p s φ (.publish n) r φ := fun _ n _ => .publish n
  have hend : p.client.stateOrActive ≠ .active → MayEnd (Tends p s) p s () := fun hx r =>
    ⟨_, .discard r hx, fun _ _ r' => ⟨_, .delete r'⟩⟩
  refine watching_keeps fun now => ⟨_, .now now, ?_⟩
  refine supervise_keeps (fun deadline _ => ?_) fun hdecision => ?_
  · exact moveToWaiting_keeps hpublish fun _ t => ⟨_, .now t, fun r => ⟨_, .record _ r rfl⟩⟩
  · have hx := (Client.evaluate_eq_delete hdecision).1
    exact delete_keeps hpublish (fun _ => hend hx) fun _ _ t =>
      ⟨_, .now t, fun r => ⟨_, .record _ r rfl, hend hx⟩⟩

end Tends

/-- What the rest of a pass leaves of the secret: it is left alone, unless the client is not active
any more. -/
def Leaves (p : ClientPass) (w w' : ClientStore) : Prop :=
  w'.secrets p.address = w.secrets p.address ∨
    p.client.stateOrActive ≠ .active ∧ w'.secrets p.address = none

variable {x : Client} {ρ : Option String × Option String}

theorem Leaves.of_eq (h : w'.secrets = w.secrets) : p.Leaves w w' := .inl (congrFun h _)

theorem Leaves.trans {w₁ : ClientStore} (h : p.Leaves w w₁) (h' : p.Leaves w₁ w') :
    p.Leaves w w' := by
  rcases h' with h' | h'
  · rcases h with h | ⟨hx, h⟩
    · exact .inl (h'.trans h)
    · exact .inr ⟨hx, h'.trans h⟩
  · exact .inr h'

/-- One call of the rest of a pass. -/
theorem Tends.step (hname : p.secretName s = connectionSecretName p.client.name) {φ φ' : Unit}
    {c : ClientCall} {r : Answer c} (hdoes : Tends p s φ c r φ') (hserve : Serves c w r w')
    (h : Bears x s.receipt w) : Bears x s.receipt w' ∧ p.Leaves w w' := by
  cases hdoes with
  | now =>
    obtain rfl : w' = w := hserve
    exact ⟨h, .of_eq rfl⟩
  | publish =>
    obtain rfl : w' = w := hserve
    exact ⟨h, .of_eq rfl⟩
  | record t r ht =>
    obtain rfl | ⟨-, rfl⟩ := hserve
    · exact ⟨ht ▸ h.patched, .of_eq rfl⟩
    · exact ⟨h, .of_eq rfl⟩
  | discard r hx =>
    rw [hname] at hserve
    obtain rfl | ⟨-, rfl⟩ := hserve
    · exact ⟨h, .inr ⟨hx, secrets_put none⟩⟩
    · exact ⟨h, .of_eq rfl⟩
  | delete =>
    obtain ⟨t, rfl | ⟨-, rfl⟩⟩ := hserve
    · exact ⟨h.amended (fun _ => rfl) fun _ => rfl, .of_eq rfl⟩
    · exact ⟨h, .of_eq rfl⟩

theorem exec_watching (hname : p.secretName s = connectionSecretName p.client.name)
    {r : Except Error Action} (hexec : (p.watching s).run.Exec Serves w r w')
    (h : Bears x s.receipt w) : Bears x s.receipt w' ∧ p.Leaves w w' :=
  hexec.invariant (I := fun w₁ => Bears x s.receipt w₁ ∧ p.Leaves w w₁)
    (fun hdoes hserve h => by
      obtain ⟨hbears, hleaves⟩ := hdoes.step hname hserve h.1
      exact ⟨hbears, h.2.trans hleaves⟩)
    Tends.keeps_watching ⟨h, .of_eq rfl⟩

/-- The receipt is stored, unless the pass fails before. -/
theorem exec_storing (hname : p.secretName s = connectionSecretName p.client.name)
    {r : Except Error Action} (hexec : (p.storing s).run.Exec Serves w r w')
    (h : Bears p.client p.client.receipt w) :
    (Bears p.client s.receipt w' ∨ (∃ e, r = .error e) ∧ Bears p.client p.client.receipt w') ∧
      p.Leaves w w' := by
  unfold storing at hexec
  split at hexec
  · rcases Attempt.exec_bind.mp hexec with ⟨u, w₁, hrecord, hrest⟩ | ⟨e, hrecord, rfl⟩
    · obtain rfl | ⟨⟨e, he⟩, -⟩ := Prog.exec_perform.mp hrecord
      · obtain ⟨hbears, hleaves⟩ := exec_watching hname hrest h.patched
        exact ⟨.inl hbears, hleaves⟩
      · cases he
    · obtain rfl | ⟨-, rfl⟩ := Prog.exec_perform.mp hrecord
      · exact ⟨.inl h.patched, .of_eq rfl⟩
      · exact ⟨.inr ⟨⟨e, rfl⟩, h⟩, .of_eq rfl⟩
  · next hsame =>
    have hfound : p.client.status = some s := not_not.mp hsame
    have hreceipt : p.client.receipt = s.receipt := by
      unfold Client.receipt
      rw [hfound]
      rfl
    rw [hreceipt] at h
    obtain ⟨hbears, hleaves⟩ := exec_watching hname hexec h
    exact ⟨.inl hbears, hleaves⟩

end ClientPass

namespace Client

open ClientStore

/-- A pass over an active client that is not being deleted has gone through. -/
structure Attended {α : Type} (x : Client) (r : Except Error α) : Prop where
  live : x.metadata.deletionTimestamp = none
  active : x.stateOrActive = .active
  ok : ∃ a, r = .ok a

/-- By its receipt there is nothing to be done about the secret. -/
def Satisfied (x : Client) (w : ClientStore) : Prop :=
  x.config? = none ∧ x.receipt.1 = none ∨
    ∃ config, x.config? = some config ∧ (w.secrets x.secretAddress).isSome ∧
      x.receipt.2 = some (configFingerprint config)

/-- The secret that the receipt names, if it names one, is the connection secret. -/
def Named (x : Client) : Prop :=
  x.receipt.1 = none ∨ x.receipt.1 = some (connectionSecretName x.name)

/-- What becomes of the secret and of the receipt in a pass over `x`. -/
inductive Outcome {α : Type} (x : Client) (w : ClientStore) (r : Except Error α)
    (w' : ClientStore) : Prop
  | kept (hsecret : w'.secrets x.secretAddress = w.secrets x.secretAddress)
      (hreceipt : Bears x x.receipt w') (hwhy : x.Attended r → x.Satisfied w)
  | gone (hsecret : w'.secrets x.secretAddress = none)
      (hreceipt : Bears x x.receipt w' ∨ Bears x (none, none) w')
      (hwhy : x.Attended r → x.config? = none ∧ ¬ x.Satisfied w)
  | made (config : SortedMap String) (hconfig : x.config? = some config)
      (hsecret : w'.Holds x.secretAddress config)
      (hreceipt : Bears x (x.receiptFor config) w' ∨ (∃ e, r = .error e) ∧ Bears x x.receipt w')
      (hwhy : x.Attended r → ¬ x.Satisfied w)

variable {α : Type} {x : Client} {w w₁ w' : ClientStore} {r : Except Error α}

theorem not_attended_error {e : Error} : ¬ x.Attended (.error e : Except Error α) := by
  rintro ⟨-, -, a, ha⟩
  cases ha

/-- Where a pass begins does not matter, as long as the secrets are the same. -/
theorem Outcome.of_secrets (h : x.Outcome w₁ r w') (hw : w₁.secrets = w.secrets) :
    x.Outcome w r w' := by
  have hsat : x.Satisfied w₁ ↔ x.Satisfied w := by rw [Satisfied, hw]; rfl
  cases h with
  | kept hsecret hreceipt hwhy =>
    exact .kept (hw ▸ hsecret) hreceipt fun hr => hsat.mp (hwhy hr)
  | gone hsecret hreceipt hwhy =>
    exact .gone hsecret hreceipt fun hr => ⟨(hwhy hr).1, fun h => (hwhy hr).2 (hsat.mpr h)⟩
  | made config hconfig hsecret hreceipt hwhy =>
    exact .made config hconfig hsecret hreceipt fun hr h => hwhy hr (hsat.mpr h)

end Client

namespace ClientPass

open ClientStore

variable {p : ClientPass} {s : ClientStatus} {w w' : ClientStore} {r : Except Error Action}
  (hns : p.client.metadata.namespaceName = some p.namespaceName) (hnamed : p.client.Named)
  (hreceipt : s.receipt = p.client.receipt) (hbears : Bears p.client p.client.receipt w)

theorem Leaves.of_active (h : p.Leaves w w') (hx : p.client.stateOrActive = .active) :
    w'.secrets p.address = w.secrets p.address := by
  rcases h with h | ⟨hne, -⟩
  · exact h
  · exact absurd hx hne

include hnamed hreceipt in
theorem secretName_eq : p.secretName s = connectionSecretName p.client.name := by
  have hname : s.secretName = p.client.receipt.1 := congrArg Prod.fst hreceipt
  unfold secretName
  rw [hname]
  rcases hnamed with h | h <;> rw [h] <;> rfl

include hns in
theorem address_eq : p.client.secretAddress = p.address := by
  unfold Client.secretAddress address
  rw [hns]
  rfl

theorem holds_secret (config : SortedMap String)
    (h : w.secrets p.address = some (p.secret config)) : w.Holds p.address config :=
  ⟨_, h, decoded?_connectionSecret _ _ _ _⟩

include hns hreceipt in
theorem satisfied_iff : p.client.Satisfied w ↔ p.client.config? = none ∧ s.secretName = none ∨
    ∃ config, p.client.config? = some config ∧ (w.secrets p.address).isSome ∧
      s.secretSource = some (configFingerprint config) := by
  rw [Client.Satisfied, address_eq hns, ← hreceipt]
  rfl

include hns hnamed hreceipt hbears

/-- The secret has been dealt with, and the rest of the pass has been gone through. -/
theorem outcome_of_syncs (hactive : p.client.stateOrActive = .active) {s' : ClientStatus}
    {w₁ : ClientStore} (hsync : Syncs p s w (.ok s') w₁)
    (hexec : (p.storing s').run.Exec Serves w₁ r w') : p.client.Outcome w r w' := by
  have haddress := address_eq hns
  have hsat := satisfied_iff (w := w) hns hreceipt
  cases hsync with
  | idle hidle =>
    obtain ⟨hbears', hleaves⟩ := exec_storing (secretName_eq hnamed hreceipt) hexec hbears
    rw [hreceipt] at hbears'
    refine .kept ?_ (hbears'.elim id And.right) fun _ => hsat.mpr hidle
    rw [haddress]
    exact hleaves.of_active hactive
  | drop hconfig hname =>
    obtain ⟨hbears', hleaves⟩ := exec_storing rfl hexec ((bears_put none).mpr hbears)
    refine .gone ?_ (hbears'.symm.imp_left And.right) fun _ => ⟨hconfig, fun h => ?_⟩
    · rw [haddress, hleaves.of_active hactive, secrets_put]
    · rcases hsat.mp h with ⟨-, h⟩ | ⟨config, h, -⟩
      · exact hname h
      · rw [hconfig] at h
        cases h
  | make config hconfig hold =>
    obtain ⟨hbears', hleaves⟩ := exec_storing rfl hexec ((bears_put _).mpr hbears)
    refine .made config hconfig ?_ hbears' fun _ h => ?_
    · rw [haddress]
      exact holds_secret config ((hleaves.of_active hactive).trans (secrets_put _))
    · rcases hsat.mp h with ⟨h, -⟩ | ⟨config', h, h'⟩
      · rw [hconfig] at h
        cases h
      · rw [hconfig] at h
        cases h
        exact hold h'

omit hnamed hreceipt in
/-- A failure to deal with the secret ends the pass. -/
theorem outcome_of_fails {e : Error} (hsync : Syncs p s w (.error e) w') :
    p.client.Outcome w (.error e : Except Error Action) w' := by
  have haddress := address_eq hns
  cases hsync with
  | fail e h =>
    rcases h with rfl | rfl | ⟨config, hconfig, rfl⟩
    · exact .kept rfl hbears fun h => absurd h Client.not_attended_error
    · refine .gone ?_ (.inl ((bears_put none).mpr hbears)) fun h =>
        absurd h Client.not_attended_error
      rw [haddress, secrets_put]
    · refine .made config hconfig ?_ (.inr ⟨⟨e, rfl⟩, (bears_put _).mpr hbears⟩) fun h =>
        absurd h Client.not_attended_error
      rw [haddress]
      exact holds_secret config (secrets_put _)

theorem exec_run (hs : s.state = p.client.stateOrActive)
    (hexec : (p.run s).run.Exec Serves w r w') : p.client.Outcome w r w' := by
  have hname := secretName_eq hnamed hreceipt
  rw [run_eq] at hexec
  split at hexec
  · next hactive =>
    have hactive : p.client.stateOrActive = .active := hs.symm.trans hactive
    rcases Attempt.exec_bind.mp hexec with ⟨s', w₁, hsync, hrest⟩ | ⟨e, hsync, rfl⟩
    · exact outcome_of_syncs hns hnamed hreceipt hbears hactive (exec_syncSecret hname hsync) hrest
    · exact outcome_of_fails hns hbears (exec_syncSecret hname hsync)
  · next hactive =>
    have hactive : p.client.stateOrActive ≠ .active := hs ▸ hactive
    obtain ⟨hbears', hleaves⟩ := exec_storing hname hexec hbears
    rw [hreceipt] at hbears'
    have hbears' := hbears'.elim id And.right
    have hlost : ¬ p.client.Attended r := fun h => hactive h.active
    rcases hleaves with hsame | ⟨-, hnone⟩
    · exact .kept (by rw [address_eq hns, hsame]) hbears' fun h => absurd h hlost
    · exact .gone (by rw [address_eq hns, hnone]) (.inl hbears') fun h => absurd h hlost

end ClientPass

namespace Client

open ClientStore

variable {x : Client} {w w' : ClientStore} {config : OperatorConfig} {r : Except Error Action}

theorem bears_found (hx : w.client = some x) : Bears x x.receipt w := by
  intro c hc
  rw [hx] at hc
  cases hc
  exact ⟨⟨rfl, rfl⟩, rfl⟩

theorem exec_ensureFinalizer {namespaceName : String} {v : Except Error Unit}
    {ρ : Option String × Option String} (h : Bears x ρ w)
    (hexec : (x.ensureFinalizer namespaceName).run.Exec ClientStore.Serves w v w') :
    Bears x ρ w' ∧ w'.secrets = w.secrets := by
  unfold ensureFinalizer at hexec
  split at hexec
  · obtain rfl | ⟨-, rfl⟩ := Prog.exec_perform.mp hexec
    · exact ⟨h.amended (fun _ => rfl) fun _ => rfl, rfl⟩
    · exact ⟨h, rfl⟩
  · obtain ⟨-, rfl⟩ := Attempt.exec_pure.mp hexec
    exact ⟨h, rfl⟩

variable (hx : w.client = some x) (hnamed : x.Named)

include hx hnamed

theorem exec_passFrom {status : ClientWork ClientStatus}
    (hstatus : ∀ {v w₁ w₂}, status.run.Exec ClientStore.Serves w₁ v w₂ → w₂ = w₁ ∧
      ∃ s, v = .ok s ∧ s.state = x.stateOrActive ∧ s.receipt = x.receipt)
    (hexec : (x.passFrom config status).run.Exec ClientStore.Serves w r w') : x.Outcome w r w' := by
  have hbears := bears_found hx
  unfold passFrom at hexec
  cases hns : x.metadata.namespaceName with
  | none =>
    rw [hns] at hexec
    obtain ⟨rfl, rfl⟩ := Prog.exec_pure.mp hexec
    exact .kept rfl hbears fun h => absurd h not_attended_error
  | some namespaceName =>
    rw [hns] at hexec
    rcases Attempt.exec_bind.mp hexec with ⟨u, w₁, hclaim, hrest⟩ | ⟨e, hclaim, rfl⟩
    · obtain ⟨hbears₁, hsecrets⟩ := exec_ensureFinalizer hbears hclaim
      rcases Attempt.exec_bind.mp hrest with ⟨s, w₂, hfrom, hrun⟩ | ⟨e, hfrom, rfl⟩
      · obtain ⟨rfl, s, hok, hs, hreceipt⟩ := hstatus hfrom
        cases hok
        exact (ClientPass.exec_run (p := ⟨config, x, namespaceName⟩) hns hnamed hreceipt hbears₁ hs
          hrun).of_secrets hsecrets
      · obtain ⟨-, s, hs, -⟩ := hstatus hfrom
        cases hs
    · obtain ⟨hbears₁, hsecrets⟩ := exec_ensureFinalizer hbears hclaim
      exact .kept (by rw [hsecrets]) hbears₁ fun h => absurd h not_attended_error

omit hnamed in
theorem exec_remove (hdeleted : x.metadata.deletionTimestamp.isSome)
    (hexec : x.remove.run.Exec ClientStore.Serves w r w') : x.Outcome w r w' := by
  have hlost : ¬ x.Attended r := by
    rintro ⟨hlive, -, -⟩
    rw [hlive] at hdeleted
    cases hdeleted
  have hbears := bears_found hx
  suffices h : Bears x x.receipt w' ∧ w'.secrets = w.secrets from
    .kept (by rw [h.2]) h.1 fun hr => absurd hr hlost
  unfold remove at hexec
  cases hns : x.metadata.namespaceName with
  | none =>
    rw [hns] at hexec
    obtain ⟨-, rfl⟩ := Attempt.exec_pure.mp hexec
    exact ⟨hbears, rfl⟩
  | some namespaceName =>
    rw [hns] at hexec
    dsimp only at hexec
    split at hexec
    · obtain ⟨-, rfl⟩ := Attempt.exec_pure.mp hexec
      exact ⟨hbears, rfl⟩
    · obtain ⟨v, w₁, hbridges, hrest⟩ := Attempt.exec_outcome_bind.mp hexec
      obtain rfl : w₁ = w := Prog.exec_perform.mp hbridges
      obtain ⟨v, w₂, hrelease, hreturn⟩ := Attempt.exec_outcome_bind.mp hrest
      obtain rfl : w' = w₂ := by
        cases v <;> exact (Attempt.exec_pure.mp hreturn).2
      obtain rfl | ⟨-, rfl⟩ := Prog.exec_perform.mp hrelease
      · exact ⟨hbears.amended (fun _ => rfl) fun _ => rfl, rfl⟩
      · exact ⟨hbears, rfl⟩

/-- What becomes of the secret and its receipt when a client is reconciled. -/
theorem exec_reconcile (hexec : (x.reconcile config).run.Exec ClientStore.Serves w r w') :
    x.Outcome w r w' := by
  unfold reconcile at hexec
  split at hexec
  · next hdeleted => exact exec_remove hx hdeleted hexec
  · split at hexec
    · next hnew =>
      have hnone := Option.isNone_iff_eq_none.mp hnew
      refine exec_passFrom hx hnamed (fun hstatus => ?_) hexec
      obtain ⟨t, _, hnow, hreturn⟩ := Attempt.exec_always_bind.mp hstatus
      obtain ⟨rfl, rfl⟩ := Attempt.exec_pure.mp hreturn
      refine ⟨Prog.exec_perform.mp hnow, _, rfl, (stateOrActive_of_new hnone).symm, ?_⟩
      rw [receipt, hnone]
      rfl
    · refine exec_passFrom hx hnamed (fun hstatus => ?_) hexec
      obtain ⟨rfl, rfl⟩ := Attempt.exec_pure.mp hstatus
      exact ⟨rfl, _, rfl, x.state_found, rfl⟩

end Client
end BridgeOperator
