import BridgeOperator.Client.Reconcile
import BridgeOperator.Proofs.Program

/-!
How a pass over a client keeps to a protocol, whatever the protocol is. For every part of the pass
there is one lemma, which asks of the protocol what the part asks of the outside, call by call. What
a pass writes, when it may delete and what becomes of the secret are protocols of their own, and
they go through the program by these lemmas.
-/

namespace BridgeOperator

namespace Client

variable {c : Client}

theorem stateOrActive_of_new (h : c.status = none) : c.stateOrActive = .active := by
  rw [stateOrActive, state, h]
  rfl

/-- A client is as far as the status says that a pass starts from. -/
theorem state_found (c : Client) : (c.status.getD .initial).state = c.stateOrActive := by
  unfold stateOrActive state
  cases c.status <;> rfl

end Client

namespace ClientPass

/-- What is left of a pass once its status is stored: the sunset is looked at. -/
def watching (p : ClientPass) (s : ClientStatus) : ClientWork Action := do
  let now ← ClientWork.now
  match ← p.supervise s now with
  | .delete => return .awaitChange
  | .moveToWaiting deadline => return requeueUntil (some deadline) now p.config.clientInterval
  | .keep =>
    return requeueUntil (p.client.nextCheck p.config.clientGrace) now p.config.clientInterval

/-- What is left of a pass once the secret is in line with the config. -/
def storing (p : ClientPass) (s : ClientStatus) : ClientWork Action := do
  if p.client.status ≠ some s then p.record s
  p.watching s

variable {Φ : Type} {does : Protocol ClientCall Φ} {φ : Φ} {p : ClientPass} {s s' : ClientStatus}

theorem run_eq : p.run s = (do
    let s ← if s.state = .active then p.syncSecret s else pure s
    p.storing s) := rfl

/-- Looking after the secret changes no more of a status than its receipt. -/
inductive Receipted (p : ClientPass) (s : ClientStatus) : ClientStatus → Prop
  | same : Receipted p s s
  | dropped : Receipted p s { s with secretName := none, secretSource := none }
  | made (config : SortedMap String) : Receipted p s { s with
      secretName := some (connectionSecretName p.client.name)
      secretSource := some (configFingerprint config) }

theorem Receipted.state (h : Receipted p s s') : s'.state = s.state := by
  cases h <;> rfl

theorem Receipted.stateTransitions (h : Receipted p s s') :
    s'.stateTransitions = s.stateTransitions := by
  cases h <;> rfl

/-- A client may come to its end: the secret goes, and once it is gone the client. -/
def MayEnd (does : Protocol ClientCall Φ) (p : ClientPass) (s : ClientStatus) (φ : Φ) : Prop :=
  ∀ r, ∃ φ', does φ (.deleteSecret p.namespaceName (p.secretName s)) r φ' ∧
    ∀ existed, r = .ok existed →
      ∀ r', ∃ φ'', does φ' (.deleteClient p.namespaceName p.client.name) r' φ''

theorem now_keeps {Q : Except Error Instant → Φ → Prop}
    (h : ∀ t : Instant, ∃ φ', does φ .now t φ' ∧ Q (.ok t) φ') :
    ClientWork.now.run.Keeps does φ Q :=
  (Attempt.keeps_always _ Q).mpr h

section

variable (hpublish : ∀ φ n r, does φ (.publish n) r φ)

include hpublish

theorem tell_keeps {c : Client} {reason note : String} {Q : Except Error Unit → Φ → Prop}
    (h : Q (.ok ()) φ) : (c.tell reason note).run.Keeps does φ Q :=
  (Attempt.keeps_always _ Q).mpr fun r => ⟨φ, hpublish φ _ r, h⟩

theorem syncSecret_keeps (hget : ∀ name r, does φ (.getSecret p.namespaceName name) r φ)
    (hdrop : ∀ name r, does φ (.deleteSecret p.namespaceName name) r φ)
    (hmake : ∀ config r, does φ (.createSecret p.namespaceName
      (connectionSecret p.client.name p.namespaceName config p.client.owner)) r φ)
    {Q : Except Error ClientStatus → Φ → Prop} (hok : ∀ s', Receipted p s s' → Q (.ok s') φ)
    (herr : ∀ e, Q (.error e) φ) : (p.syncSecret s).run.Keeps does φ Q := by
  have hcreate : ∀ config, (p.createSecret s config).run.Keeps does φ Q := by
    intro config
    unfold createSecret
    rw [Attempt.keeps_bind]
    refine fun r => ⟨φ, hmake config r, ?_⟩
    cases r with
    | error e => exact herr e
    | ok u =>
      show (_ >>= _ : ClientWork ClientStatus).run.Keeps _ _ _
      rw [Attempt.keeps_bind]
      exact tell_keeps hpublish (hok _ (.made config))
  unfold syncSecret
  cases p.client.spec.providerConfig.filter (!·.isEmpty) with
  | none =>
    show (p.dropSecret s).run.Keeps _ _ _
    unfold dropSecret
    cases s.secretName with
    | none => exact hok s .same
    | some name =>
      show (_ >>= _ : ClientWork ClientStatus).run.Keeps _ _ _
      rw [Attempt.keeps_bind]
      refine fun r => ⟨φ, hdrop name r, ?_⟩
      cases r with
      | error e => exact herr e
      | ok existed => exact hok _ .dropped
  | some config =>
    show (_ >>= _ : ClientWork ClientStatus).run.Keeps _ _ _
    rw [Attempt.keeps_bind]
    refine fun r => ⟨φ, hget _ r, ?_⟩
    cases r with
    | error e => exact herr e
    | ok existing =>
      show (if existing.isSome then _ else _ : ClientWork ClientStatus).run.Keeps _ _ _
      split
      · split
        · exact hok s .same
        · show (_ >>= _ : ClientWork ClientStatus).run.Keeps _ _ _
          rw [Attempt.keeps_bind]
          refine fun r => ⟨φ, hdrop _ r, ?_⟩
          cases r with
          | error e => exact herr e
          | ok existed => exact hcreate config
      · exact hcreate config

theorem moveToWaiting_keeps {deadline : Instant}
    (hwait : ∀ message t, ∃ φ', does φ .now t φ' ∧ ∀ r, ∃ φ'', does φ'
      (.patchStatus p.namespaceName p.client.name (s.transition .waiting message t)) r φ'') :
    (p.moveToWaiting s deadline).run.Keeps does φ fun _ _ => True := by
  unfold moveToWaiting
  rw [Attempt.keeps_bind]
  refine now_keeps fun t => ?_
  obtain ⟨φ', hnow, hrecord⟩ := hwait _ t
  refine ⟨φ', hnow, ?_⟩
  show (_ >>= _ : ClientWork Unit).run.Keeps _ _ _
  rw [Attempt.keeps_bind]
  intro r
  obtain ⟨φ'', hdoes⟩ := hrecord r
  refine ⟨φ'', hdoes, ?_⟩
  cases r with
  | error e => exact trivial
  | ok u => exact tell_keeps hpublish trivial

theorem delete_keeps (hexpired : s.state = .expired → MayEnd does p s φ)
    (hexpire : s.state ≠ .expired → ∀ message t, ∃ φ', does φ .now t φ' ∧ ∀ r, ∃ φ'', does φ'
      (.patchStatus p.namespaceName p.client.name (s.transition .expired message t)) r φ'' ∧
        MayEnd does p s φ'') :
    (p.delete s).run.Keeps does φ fun _ _ => True := by
  have hend : ∀ {φ}, MayEnd does p s φ → (do
      let _ ← ClientWork.deleteSecret p.namespaceName (p.secretName s)
      let _ ← ClientWork.deleteClient p.namespaceName p.client.name :
        ClientWork Unit).run.Keeps does φ fun _ _ => True := by
    intro φ hend
    rw [Attempt.keeps_bind]
    intro r
    obtain ⟨φ', hdoes, hgone⟩ := hend r
    refine ⟨φ', hdoes, ?_⟩
    cases r with
    | error e => exact trivial
    | ok existed =>
      show (_ >>= _ : ClientWork Unit).run.Keeps _ _ _
      rw [Attempt.keeps_bind]
      intro r'
      obtain ⟨φ'', hdoes'⟩ := hgone existed rfl r'
      refine ⟨φ'', hdoes', ?_⟩
      cases r' <;> exact trivial
  unfold delete
  split
  · next hstate =>
    show (_ >>= _ : ClientWork Unit).run.Keeps _ _ _
    rw [Attempt.keeps_bind]
    refine now_keeps fun t => ?_
    obtain ⟨φ', hnow, hrecord⟩ := hexpire hstate _ t
    refine ⟨φ', hnow, ?_⟩
    show (_ >>= _ : ClientWork Unit).run.Keeps _ _ _
    rw [Attempt.keeps_bind]
    intro r
    obtain ⟨φ'', hdoes, hdiscard⟩ := hrecord r
    refine ⟨φ'', hdoes, ?_⟩
    cases r with
    | error e => exact trivial
    | ok u =>
      show (_ >>= _ : ClientWork Unit).run.Keeps _ _ _
      rw [Attempt.keeps_bind]
      exact tell_keeps hpublish (hend hdiscard)
  · next hstate => exact hend (hexpired (Classical.not_not.mp hstate))

end

/-- By what the sunset calls for. -/
theorem supervise_keeps {now : Instant}
    (hwait : ∀ deadline, p.client.evaluate now p.config.clientGrace = .moveToWaiting deadline →
      (p.moveToWaiting s deadline).run.Keeps does φ fun _ _ => True)
    (hdelete : p.client.evaluate now p.config.clientGrace = .delete →
      (p.delete s).run.Keeps does φ fun _ _ => True) :
    (p.supervise s now).run.Keeps does φ fun _ _ => True := by
  unfold supervise
  cases hdecision : p.client.evaluate now p.config.clientGrace with
  | keep => exact trivial
  | moveToWaiting deadline =>
    show (_ >>= _ : ClientWork Client.Decision).run.Keeps _ _ _
    rw [Attempt.keeps_bind]
    exact (hwait deadline hdecision).mono fun r φ' _ => by cases r <;> exact trivial
  | delete =>
    show (_ >>= _ : ClientWork Client.Decision).run.Keeps _ _ _
    rw [Attempt.keeps_bind]
    exact (hdelete hdecision).mono fun r φ' _ => by cases r <;> exact trivial

theorem watching_keeps (hlook : ∀ now, ∃ φ', does φ .now now φ' ∧
    (p.supervise s now).run.Keeps does φ' fun _ _ => True) :
    (p.watching s).run.Keeps does φ fun _ _ => True := by
  unfold watching
  rw [Attempt.keeps_bind]
  refine now_keeps fun now => ?_
  obtain ⟨φ', hnow, hsupervise⟩ := hlook now
  refine ⟨φ', hnow, ?_⟩
  show (_ >>= _ : ClientWork Action).run.Keeps _ _ _
  rw [Attempt.keeps_bind]
  refine hsupervise.mono fun r φ' _ => ?_
  rcases r with e | _ | _ | _ <;> exact trivial

theorem storing_keeps
    (hrecord : p.client.status ≠ some s → ∀ r, ∃ φ',
      does φ (.patchStatus p.namespaceName p.client.name s) r φ' ∧
        (r = .ok () → (p.watching s).run.Keeps does φ' fun _ _ => True))
    (hfound : p.client.status = some s → (p.watching s).run.Keeps does φ fun _ _ => True) :
    (p.storing s).run.Keeps does φ fun _ _ => True := by
  unfold storing
  split
  · next hother =>
    show (_ >>= _ : ClientWork Action).run.Keeps _ _ _
    rw [Attempt.keeps_bind]
    intro r
    obtain ⟨φ', hdoes, hstored⟩ := hrecord hother r
    refine ⟨φ', hdoes, ?_⟩
    cases r with
    | error e => exact trivial
    | ok u => exact hstored rfl
  · next hsame => exact hfound (Classical.not_not.mp hsame)

/-- Only an active client has its secret looked after. -/
theorem run_keeps
    (hsync : s.state = .active → (p.syncSecret s).run.Keeps does φ fun r φ' =>
      ∀ s', r = .ok s' → (p.storing s').run.Keeps does φ' fun _ _ => True)
    (hstore : s.state ≠ .active → (p.storing s).run.Keeps does φ fun _ _ => True) :
    (p.run s).run.Keeps does φ fun _ _ => True := by
  rw [run_eq]
  split
  · next hactive =>
    rw [Attempt.keeps_bind]
    refine (hsync hactive).mono fun r φ' hr => ?_
    cases r with
    | error e => exact trivial
    | ok s' => exact hr s' rfl
  · next hactive => exact hstore hactive

end ClientPass

namespace Client

variable {Φ : Type} {does : Protocol ClientCall Φ} {φ : Φ} {c : Client} {config : OperatorConfig}

/-- A pass may claim its client before it goes on from a status. -/
theorem passFrom_keeps {status : ClientWork ClientStatus}
    (hclaim : ∀ namespaceName r, does φ (.addFinalizer namespaceName c.name) r φ)
    (hpass : ∀ namespaceName, c.metadata.namespaceName = some namespaceName →
      status.run.Keeps does φ fun r φ' => ∀ s, r = .ok s →
        (ClientPass.run ⟨config, c, namespaceName⟩ s).run.Keeps does φ' fun _ _ => True) :
    (c.passFrom config status).run.Keeps does φ fun _ _ => True := by
  unfold passFrom
  cases hns : c.metadata.namespaceName with
  | none => exact trivial
  | some namespaceName =>
    have hrest : (do ClientPass.run ⟨config, c, namespaceName⟩ (← status) :
        ClientWork Action).run.Keeps does φ fun _ _ => True := by
      rw [Attempt.keeps_bind]
      refine (hpass namespaceName hns).mono fun r φ' hr => ?_
      cases r with
      | error e => exact trivial
      | ok s => exact hr s rfl
    show (_ >>= _ : ClientWork Action).run.Keeps _ _ _
    rw [Attempt.keeps_bind]
    unfold ensureFinalizer
    split
    · refine fun r => ⟨φ, hclaim namespaceName r, ?_⟩
      cases r with
      | error e => exact trivial
      | ok u => exact hrest
    · exact hrest

theorem remove_keeps
    (hbridges : ∀ namespaceName r, does φ (.deleteBridgesOf namespaceName c.name) r φ)
    (hrelease : ∀ namespaceName r, does φ (.removeFinalizer namespaceName c.name) r φ) :
    c.remove.run.Keeps does φ fun _ _ => True := by
  unfold remove
  cases c.metadata.namespaceName with
  | none => exact trivial
  | some namespaceName =>
    show (if _ then _ else _ : ClientWork Action).run.Keeps _ _ _
    split
    · exact trivial
    · show (_ >>= _ : ClientWork Action).run.Keeps _ _ _
      rw [Attempt.keeps_bind, Attempt.keeps_outcome]
      refine fun r => ⟨φ, hbridges namespaceName r, ?_⟩
      show (_ >>= _ : ClientWork Action).run.Keeps _ _ _
      rw [Attempt.keeps_bind, Attempt.keeps_outcome]
      refine fun r => ⟨φ, hrelease namespaceName r, ?_⟩
      cases r <;> exact trivial

/-- A new client is dated before its first pass, and one that is known goes on from its status. -/
theorem reconcile_keeps
    (hclaim : ∀ namespaceName r, does φ (.addFinalizer namespaceName c.name) r φ)
    (hbridges : ∀ namespaceName r, does φ (.deleteBridgesOf namespaceName c.name) r φ)
    (hrelease : ∀ namespaceName r, does φ (.removeFinalizer namespaceName c.name) r φ)
    (hnew : c.status = none → ∀ namespaceName, c.metadata.namespaceName = some namespaceName →
      ∀ message t, ∃ φ', does φ .now t φ' ∧ (ClientPass.run ⟨config, c, namespaceName⟩
        (ClientStatus.initial.transition .active message t)).run.Keeps does φ' fun _ _ => True)
    (hknown : ∀ namespaceName, c.metadata.namespaceName = some namespaceName →
      (ClientPass.run ⟨config, c, namespaceName⟩ (c.status.getD .initial)).run.Keeps does φ
        fun _ _ => True) :
    (c.reconcile config).run.Keeps does φ fun _ _ => True := by
  unfold reconcile
  split
  · exact remove_keeps hbridges hrelease
  · split
    · next hstatus =>
      refine passFrom_keeps hclaim fun namespaceName hns => ?_
      rw [Attempt.keeps_bind]
      refine ClientPass.now_keeps fun t => ?_
      obtain ⟨φ', hnow, hpass⟩ := hnew (Option.isNone_iff_eq_none.mp hstatus) namespaceName hns _ t
      refine ⟨φ', hnow, ?_⟩
      rintro s ⟨⟩
      exact hpass
    · refine passFrom_keeps hclaim fun namespaceName hns => ?_
      rintro s ⟨⟩
      exact hknown namespaceName hns

end Client
end BridgeOperator
