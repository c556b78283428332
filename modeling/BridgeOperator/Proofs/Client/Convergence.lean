import BridgeOperator.Proofs.Client.Receipt

/-!
Runs of passes over one client whose config is edited between them, where any call of any pass may
fail. After a pass over the active client that has gone through, its secret is in line with the
config unless the receipt has misled the pass; and then the secret comes from a pass that failed
once it had made it, or two configs have one fingerprint.
-/

namespace BridgeOperator

namespace ClientStore

inductive Event where
  | edited (spec : ClientSpec)
  | amended (metadata : Kube.Metadata)
  | passed (config : OperatorConfig) (r : Except Error Action)

/-- One event. The client keeps its name and its namespace, and nobody but the passes over it writes
its status and its secret. -/
inductive Step : ClientStore → Event → ClientStore → Prop
  | edit {w : ClientStore} {spec : ClientSpec} :
    Step w (.edited spec) (w.modify fun c => some { c with spec })
  | amend {w : ClientStore} {metadata : Kube.Metadata} :
    (∀ c, w.client = some c →
      metadata.anyName = c.name ∧ metadata.namespaceName = c.metadata.namespaceName) →
    Step w (.amended metadata) (w.modify fun c => some { c with metadata })
  | pass {w w' : ClientStore} {x : Client} {config : OperatorConfig} {r : Except Error Action} :
    w.client = some x → (x.reconcile config).run.Exec Serves w r w' →
    Step w (.passed config r) w'

structure Move where
  before : ClientStore
  event : Event
  after : ClientStore

/-- A run from a store; the newest move stands first. -/
inductive Run (start : ClientStore) : List Move → ClientStore → Prop
  | start : Run start [] start
  | move {trail : List Move} {w w' : ClientStore} {e : Event} :
    Run start trail w → Step w e w' → Run start (⟨w, e, w'⟩ :: trail) w'

/-- A pass has failed once it had made a secret from the config. -/
def Move.Strands (m : Move) (config : SortedMap String) : Prop :=
  ∃ settings e x, m.event = .passed settings (.error e) ∧ m.before.client = some x ∧
    x.config? = some config ∧ m.after.Holds x.secretAddress config

/-- The receipt `ρ` is for nothing or for the secret of some config, and the secret of `x` is the
one it is for, or one that was left by a failed pass. -/
structure Explains (trail : List Move) (x : Client) (ρ : Option String × Option String)
    (secret : Option Kube.Secret) : Prop where
  receipt : ρ = (none, none) ∨ ∃ config, ρ = x.receiptFor config
  secret : ∀ s, secret = some s → ∃ config, s.decoded? = some config.toList ∧
    (ρ = x.receiptFor config ∨ ∃ m ∈ trail, m.Strands config)

/-- The secret of the stored client is explained by its receipt or by the moves so far. -/
def Accounted (trail : List Move) (w : ClientStore) : Prop :=
  ∀ x, w.client = some x → Explains trail x x.receipt (w.secrets x.secretAddress)

variable {trail : List Move} {m : Move} {w w' : ClientStore} {e : Event} {x : Client}
  {ρ : Option String × Option String} {secret : Option Kube.Secret}

theorem Explains.later (h : Explains trail x ρ secret) : Explains (m :: trail) x ρ secret where
  receipt := h.receipt
  secret s hs := by
    obtain ⟨config, hdecoded, hfrom⟩ := h.secret s hs
    exact ⟨config, hdecoded, hfrom.imp_right fun ⟨m', hm', hstrands⟩ => ⟨m', .tail _ hm', hstrands⟩⟩

theorem Explains.gone (h : ρ = (none, none) ∨ ∃ config, ρ = x.receiptFor config) :
    Explains trail x ρ none := ⟨h, fun _ => nofun⟩

theorem Accounted.of_bears (hbears : Bears x ρ w)
    (h : Explains trail x ρ (w.secrets x.secretAddress)) : Accounted trail w := by
  intro c hc
  obtain ⟨hfollows, rfl⟩ := hbears c hc
  rw [hfollows.secretAddress]
  refine ⟨?_, ?_⟩
  · rw [hfollows.receiptFor]
    exact h.receipt
  · rw [hfollows.receiptFor]
    exact h.secret

theorem Explains.named (h : Explains trail x x.receipt secret) : x.Named := by
  rcases h.receipt with h | ⟨config, h⟩
  · exact .inl (by rw [h])
  · exact .inr (by rw [h]; rfl)

/-- A pass leaves a secret that is explained. -/
theorem Accounted.passed {settings : OperatorConfig} {r : Except Error Action}
    (h : Accounted trail w) (hx : w.client = some x)
    (hexec : (x.reconcile settings).run.Exec Serves w r w') :
    Accounted (⟨w, .passed settings r, w'⟩ :: trail) w' := by
  have hexplains := h x hx
  cases Client.exec_reconcile hx hexplains.named hexec with
  | kept hsecret hreceipt =>
    refine .of_bears hreceipt ?_
    rw [hsecret]
    exact hexplains.later
  | gone hsecret hreceipt =>
    rcases hreceipt with hreceipt | hreceipt
    · refine .of_bears hreceipt ?_
      rw [hsecret]
      exact .gone hexplains.receipt
    · refine .of_bears hreceipt ?_
      rw [hsecret]
      exact .gone (.inl rfl)
  | made config hconfig hsecret hreceipt =>
    have hholds := hsecret
    obtain ⟨s, hs, hdecoded⟩ := hsecret
    rcases hreceipt with hreceipt | ⟨⟨e, rfl⟩, hreceipt⟩
    · refine .of_bears hreceipt ⟨.inr ⟨config, rfl⟩, fun t ht => ⟨config, ?_, .inl rfl⟩⟩
      rw [hs] at ht
      cases ht
      exact hdecoded
    · refine .of_bears hreceipt ⟨hexplains.receipt, fun t ht => ⟨config, ?_, .inr
        ⟨_, .head _, settings, e, x, rfl, hx, hconfig, hholds⟩⟩⟩
      rw [hs] at ht
      cases ht
      exact hdecoded

/-- The client is changed in something else than its status and the place of its secret. -/
theorem Accounted.modified (h : Accounted trail w) {f : Client → Client}
    (hfollows : ∀ c, w.client = some c → (f c).Follows c) (hstatus : ∀ c, (f c).status = c.status) :
    Accounted (m :: trail) (w.modify fun c => some (f c)) := by
  intro c hc
  obtain ⟨x, hx, hmodified⟩ := Option.bind_eq_some_iff.mp hc
  have hbears : Bears x x.receipt (w.modify fun c => some (f c)) := by
    intro c' hc'
    rw [hc] at hc'
    cases hc'
    cases hmodified
    exact ⟨hfollows x hx, by rw [Client.receipt, hstatus]; rfl⟩
  exact Accounted.of_bears hbears (h x hx).later c hc

theorem Accounted.step (h : Accounted trail w) (hstep : Step w e w') :
    Accounted (⟨w, e, w'⟩ :: trail) w' := by
  cases hstep with
  | edit => exact h.modified (fun _ _ => ⟨rfl, rfl⟩) fun _ => rfl
  | amend hsame => exact h.modified (fun c hc => ⟨(hsame c hc).1, (hsame c hc).2⟩) fun _ => rfl
  | pass hx hexec => exact h.passed hx hexec

theorem Accounted.run {start : Client} {secrets : Address → Option Kube.Secret}
    (hstatus : start.status = none) (hsecret : secrets start.secretAddress = none)
    (h : Run ⟨some start, secrets⟩ trail w) : Accounted trail w := by
  induction h with
  | start =>
    intro x hx
    cases hx
    refine ⟨.inl ?_, fun s hs => ?_⟩
    · rw [Client.receipt, hstatus]
      rfl
    · cases hsecret.symm.trans hs
  | move _ hstep ih => exact ih.step hstep

end ClientStore

namespace Client

open ClientStore

/-- The connection secret is there exactly if there is something to hand out, and then it holds
that. -/
structure InLine (x : Client) (w : ClientStore) : Prop where
  exists_iff : (w.secrets x.secretAddress).isSome ↔
    ∃ config, x.spec.providerConfig = some config ∧ config.isEmpty = false
  holds : ∀ config, x.spec.providerConfig = some config → config.isEmpty = false →
    w.Holds x.secretAddress config

/-- By its receipt there is nothing to be done about the secret, but there is one that does not
hold the config. -/
def Misled (x : Client) (w : ClientStore) : Prop :=
  x.Satisfied w ∧ ∃ s, w.secrets x.secretAddress = some s ∧
    ∀ config, x.config? = some config → s.decoded? ≠ some config.toList

variable {x : Client} {w w' : ClientStore} {r : Except Error Action}

theorem config?_eq_some {config : SortedMap String} :
    x.config? = some config ↔ x.spec.providerConfig = some config ∧ config.isEmpty = false := by
  unfold config?
  rw [Option.filter_eq_some_iff, Bool.not_eq_true']

theorem inLine_iff : x.InLine w ↔
    ((w.secrets x.secretAddress).isSome → ∃ config, x.config? = some config) ∧
      ∀ config, x.config? = some config → w.Holds x.secretAddress config := by
  constructor
  · rintro ⟨hiff, hholds⟩
    refine ⟨fun hs => ?_, fun config hconfig => ?_⟩
    · obtain ⟨config, hconfig⟩ := hiff.mp hs
      exact ⟨config, config?_eq_some.mpr hconfig⟩
    · obtain ⟨hprovided, hfull⟩ := config?_eq_some.mp hconfig
      exact hholds config hprovided hfull
  · rintro ⟨hsome, hholds⟩
    refine ⟨⟨fun hs => ?_, ?_⟩, fun config hprovided hfull => ?_⟩
    · obtain ⟨config, hconfig⟩ := hsome hs
      exact ⟨config, config?_eq_some.mp hconfig⟩
    · rintro ⟨config, hconfig⟩
      obtain ⟨s, hs, -⟩ := hholds config (config?_eq_some.mpr hconfig)
      rw [hs]
      rfl
    · exact hholds config (config?_eq_some.mpr ⟨hprovided, hfull⟩)

theorem inLine_congr (h : w'.secrets x.secretAddress = w.secrets x.secretAddress) :
    x.InLine w' ↔ x.InLine w := by
  simp only [inLine_iff, Holds, h]

/-- Where nothing is done about the secret, it is in line unless it holds something else. -/
theorem Satisfied.inLine_iff (hsat : x.Satisfied w) : x.InLine w ↔ ¬ x.Misled w := by
  rw [Client.inLine_iff]
  constructor
  · rintro ⟨hsome, hholds⟩ ⟨-, s, hs, hother⟩
    obtain ⟨config, hconfig⟩ := hsome (by rw [hs]; rfl)
    obtain ⟨t, ht, hdecoded⟩ := hholds config hconfig
    rw [hs] at ht
    cases ht
    exact hother config hconfig hdecoded
  · intro hright
    have hdecoded : ∀ s, w.secrets x.secretAddress = some s →
        ∃ config, x.config? = some config ∧ s.decoded? = some config.toList := by
      intro s hs
      by_contra hother
      exact hright ⟨hsat, s, hs, fun config hconfig hsame => hother ⟨config, hconfig, hsame⟩⟩
    refine ⟨fun hs => ?_, fun config hconfig => ?_⟩
    · obtain ⟨s, hs⟩ := Option.isSome_iff_exists.mp hs
      obtain ⟨config, hconfig, -⟩ := hdecoded s hs
      exact ⟨config, hconfig⟩
    · rcases hsat with ⟨hnone, -⟩ | ⟨_, _, hsome, -⟩
      · rw [hconfig] at hnone
        cases hnone
      · obtain ⟨s, hs⟩ := Option.isSome_iff_exists.mp hsome
        obtain ⟨config', hconfig', hsame⟩ := hdecoded s hs
        rw [hconfig] at hconfig'
        cases hconfig'
        exact ⟨s, hs, hsame⟩

theorem Outcome.inLine_iff (h : x.Outcome w r w') (hr : x.Attended r) :
    x.InLine w' ↔ ¬ x.Misled w := by
  cases h with
  | kept hsecret _ hwhy =>
    rw [inLine_congr hsecret]
    exact (hwhy hr).inLine_iff
  | gone hsecret _ hwhy =>
    obtain ⟨hconfig, hunsat⟩ := hwhy hr
    rw [Client.inLine_iff]
    refine iff_of_true ⟨fun hs => ?_, fun config hsome => ?_⟩ fun h => hunsat h.1
    · rw [hsecret] at hs
      cases hs
    · rw [hconfig] at hsome
      cases hsome
  | made config hconfig hsecret _ hwhy =>
    rw [Client.inLine_iff]
    refine iff_of_true ⟨fun _ => ⟨config, hconfig⟩, fun config' hsome => ?_⟩ fun h => hwhy hr h.1
    rw [hconfig] at hsome
    cases hsome
    exact hsecret

end Client

namespace ClientStore

variable {trail : List Move} {w w' : ClientStore} {x : Client}

/-- What has misled the pass is the secret of another config. -/
theorem Accounted.stranded (htrail : Accounted trail w) (hx : w.client = some x)
    (h : x.Misled w) :
    ∃ config, w.Holds x.secretAddress config ∧ x.config? ≠ some config ∧
      ((∃ m ∈ trail, m.Strands config) ∨ ∃ config', x.config? = some config' ∧
        configFingerprint config' = configFingerprint config) := by
  obtain ⟨hsat, s, hs, hother⟩ := h
  obtain ⟨config, hdecoded, hfrom⟩ := (htrail x hx).secret s hs
  refine ⟨config, ⟨s, hs, hdecoded⟩, fun hconfig => hother config hconfig hdecoded, ?_⟩
  rcases hfrom with hreceipt | hstrands
  · unfold Client.Satisfied at hsat
    rw [hreceipt] at hsat
    rcases hsat with ⟨-, hname⟩ | ⟨config', hconfig', -, hsource⟩
    · cases hname
    · exact .inr ⟨config', hconfig', (Option.some.inj hsource).symm⟩
  · exact .inl hstrands

/-- After a pass that has gone through the secret is in line with the config, exactly unless the
receipt has misled the pass. -/
theorem in_line_iff_not_misled {start : Client} {secrets : Address → Option Kube.Secret}
    {settings : OperatorConfig} {a : Action}
    (hstatus : start.status = none) (hsecret : secrets start.secretAddress = none)
    (hrun : Run ⟨some start, secrets⟩ trail w) (hx : w.client = some x)
    (hlive : x.metadata.deletionTimestamp = none) (hactive : x.stateOrActive = .active)
    (hpass : (x.reconcile settings).run.Exec Serves w (.ok a) w') :
    (x.InLine w' ↔ ¬ x.Misled w) ∧
      (x.Misled w → ∃ config, w.Holds x.secretAddress config ∧ x.config? ≠ some config ∧
        ((∃ m ∈ trail, m.Strands config) ∨ ∃ config', x.config? = some config' ∧
          configFingerprint config' = configFingerprint config)) := by
  have htrail := Accounted.run hstatus hsecret hrun
  have hout := Client.exec_reconcile hx (htrail x hx).named hpass
  exact ⟨hout.inLine_iff ⟨hlive, hactive, a, rfl⟩, htrail.stranded hx⟩

namespace Sample

/-- What the client is to be handed. -/
def endpoint : SortedMap String := .ofList [("endpoint", "10.0.0.1")]

/-- A client that is claimed already. -/
def carol : Client where
  metadata := { Kube.Metadata.empty with
    name := some "carol"
    namespaceName := some "gefyra"
    finalizers := some [Client.finalizer] }
  spec := ⟨ClientSpec.defaultProvider, none, some endpoint⟩
  status := none

/-- The client once its config has been taken back. -/
def barred : Client := { carol with spec := { carol.spec with providerConfig := none } }

def someday : Instant := ⟨0, 0⟩

/-- The one secret is the one for `carol`. -/
def handedOut : Address → Option Kube.Secret :=
  Function.update (fun _ => none) carol.secretAddress
    (some (connectionSecret "carol" "gefyra" endpoint carol.owner))

def lost : Error := .internal "store" "lost"

/-- The secret is made, and its receipt is lost. -/
theorem exec_carol : (carol.reconcile .default).run.Exec Serves ⟨some carol, fun _ => none⟩
    (.error lost) ⟨some carol, handedOut⟩ := by
  refine .next rfl (r := someday) rfl ?_
  refine .next rfl (r := .ok none) ⟨rfl, fun s hs => (Except.ok.inj hs).symm⟩ ?_
  refine .next rfl (r := .ok ()) (.inl rfl) ?_
  refine .next rfl (r := ()) rfl ?_
  exact .next rfl (r := .error lost) (.inr ⟨⟨_, rfl⟩, rfl⟩) (.done _ _)

/-- The pass after that finds neither a config nor a receipt, and leaves the secret alone. -/
theorem exec_barred : (barred.reconcile .default).run.Exec Serves ⟨some barred, handedOut⟩
    (.ok (.requeue OperatorConfig.default.clientInterval))
    ⟨patched (ClientStatus.initial.transition .active (some "client active") someday) barred,
      handedOut⟩ := by
  refine .next rfl (r := someday) rfl ?_
  refine .next rfl (r := .ok ()) (.inl rfl) ?_
  exact .next rfl (r := someday) rfl (.done _ _)

/-- A secret outlives the config it was made from. -/
theorem outlives : ∃ trail w w' x a,
    Run ⟨some carol, fun _ => none⟩ trail w ∧ w.client = some x ∧
    x.metadata.deletionTimestamp = none ∧ x.stateOrActive = .active ∧
    (x.reconcile .default).run.Exec Serves w (.ok a) w' ∧ ¬ x.InLine w' := by
  have hfailed : Run ⟨some carol, fun _ => none⟩ _ _ := .move .start (.pass rfl exec_carol)
  have hedited : Run ⟨some carol, fun _ => none⟩ _ ⟨some barred, handedOut⟩ := hfailed.move .edit
  refine ⟨_, _, _, barred, _, hedited, rfl, rfl, rfl, exec_barred, fun h => ?_⟩
  obtain ⟨config, hconfig, -⟩ := h.exists_iff.mp rfl
  cases hconfig

end Sample

open BridgeOperator.ClientStore.Sample in
/-- The pass over `carol` without a config is misled by the receipt that was lost. -/
theorem in_line_iff_not_misled_carol : ∃ trail w w' x a,
    carol.status = none ∧ Run ⟨some carol, fun _ => none⟩ trail w ∧ w.client = some x ∧
    x.metadata.deletionTimestamp = none ∧ x.stateOrActive = .active ∧
    (x.reconcile .default).run.Exec Serves w (.ok a) w' ∧ ¬ x.InLine w' ∧ x.Misled w ∧
    ∃ config, w.Holds x.secretAddress config ∧ x.config? ≠ some config := by
  obtain ⟨trail, w, w', x, a, hrun, hx, hlive, hactive, hpass, hout⟩ := outlives
  obtain ⟨hiff, hwhy⟩ := in_line_iff_not_misled rfl rfl hrun hx hlive hactive hpass
  have hmisled : x.Misled w := not_not.mp fun h => hout (hiff.mpr h)
  obtain ⟨config, hholds, hother, -⟩ := hwhy hmisled
  exact ⟨trail, w, w', x, a, rfl, hrun, hx, hlive, hactive, hpass, hout, hmisled, config, hholds,
    hother⟩

open BridgeOperator.ClientStore.Sample in
/-- A pass that goes through may leave a secret that is not in line with the config. -/
theorem not_always_in_line : ¬ ∀ (start : Client) (secrets : Address → Option Kube.Secret)
    (trail : List Move) (w w' : ClientStore) (x : Client) (settings : OperatorConfig) (a : Action),
    start.status = none → secrets start.secretAddress = none →
    Run ⟨some start, secrets⟩ trail w → w.client = some x →
    x.metadata.deletionTimestamp = none → x.stateOrActive = .active →
    (x.reconcile settings).run.Exec Serves w (.ok a) w' → x.InLine w' := by
  intro hall
  obtain ⟨trail, w, w', x, a, hrun, hx, hlive, hactive, hpass, hout⟩ := outlives
  exact hout (hall carol _ trail w w' x .default a rfl rfl hrun hx hlive hactive hpass)

end ClientStore
end BridgeOperator
