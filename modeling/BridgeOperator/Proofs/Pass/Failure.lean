import BridgeOperator.Proofs.Pass.Shape

/-!
What errors mean for a bridge. A provider that cannot be built, a validation, an install and a
readiness check may each fail for good or for now, and which of the two it is depends on the error
and on the state the bridge is in. A pass writes ERROR exactly for what only a changed spec can
mend, and leaves the state as it is for everything else (`discerns_errors`).
-/

namespace BridgeOperator

/-- What an answer means for a bridge. -/
inductive Severity where
  | fine
  /-- It may go well at the next try, in the same pass. -/
  | again
  /-- It may go well in a later pass. -/
  | later
  /-- Only a changed spec can mend it. -/
  | fatal
  deriving DecidableEq

def Error.severity (e : Error) : Severity := if e.isRetryable then .later else .fatal

theorem Error.severity_eq_fatal {e : Error} : e.severity = .fatal ↔ e.isRetryable = false := by
  unfold severity
  cases e.isRetryable <;> simp

namespace BridgeCall

/-- A provider is asked about what is to be, or is, installed. -/
def consults : BridgeCall → Bool
  | validate .. | install _ | ready .. => true
  | _ => false

/-- What an answer means for a bridge that is stored in a state. -/
def severity : BridgeState → (c : BridgeCall) → Answer c → Severity
  | .requested, validate .., .error e => e.severity
  | .installing, install _, .error e => e.severity
  | .installing, ready .., .finished _ (.error e) => if e.isRetryable then .again else .fatal
  | .installing, ready .., .late => .later
  | .active, ready .., .finished _ (.error _) => .later
  | .active, ready .., .late => .later
  | _, _, _ => .fine

theorem severity_of_not_consults {c : BridgeCall} (hc : c.consults = false) (x : BridgeState)
    (r : Answer c) : c.severity x r = .fine := by
  cases c with
  | validate => cases hc
  | install => cases hc
  | ready => cases hc
  | _ => cases x <;> rfl

theorem consults_of_severity {x : BridgeState} {c : BridgeCall} {r : Answer c}
    (h : c.severity x r ≠ .fine) : c.consults = true :=
  (Bool.not_eq_false _).mp fun hc => h (severity_of_not_consults hc x r)

theorem writes?_of_consults {c : BridgeCall} (hc : c.consults = true) : c.writes? = none := by
  cases c <;> first | rfl | cases hc

end BridgeCall

namespace Log

/-- The log has the entry `e`, made while `y` was stored, and `after` behind it, if `x` is stored
at first. -/
def Meets (x : BridgeState) (w : Log BridgeCall) (y : BridgeState) (e : Σ c : BridgeCall, Answer c)
    (after : Log BridgeCall) : Prop :=
  ∃ before : Log BridgeCall, w = before ++ e :: after ∧ before.last x = y

/-- An answer means `v` for the bridge in the state that is stored when it is given. -/
def Gets (x : BridgeState) (w : Log BridgeCall) (v : Severity) : Prop :=
  ∃ y e after, Meets x w y e after ∧ e.1.severity y e.2 = v

/-- What is done before a provider is asked again. -/
def unasked (w : Log BridgeCall) : Log BridgeCall := w.takeWhile fun e => !e.1.consults

/-- Every status that was to be stored was stored. -/
def Stored (w : Log BridgeCall) : Prop :=
  ∀ e ∈ w, e.1.writes? ≠ none → e.1.succeeds e.2 = true

variable {x y : BridgeState} {w after : Log BridgeCall} {e e' : Σ c : BridgeCall, Answer c}

theorem written_cons : written (e :: w) = e.1.writes?.toList ++ w.written := by
  unfold written
  cases h : e.1.writes? <;> simp [h]

theorem last_cons : last x (e :: w) = last (e.1.writes?.getD x) w := by
  unfold last
  rw [written_cons]
  cases e.1.writes? with
  | none => rfl
  | some z => exact List.getLastD_cons

theorem last_append_eq {w w' : Log BridgeCall} : last x (w ++ w') = last (last x w) w' := by
  induction w generalizing x with
  | nil => rfl
  | cons e w ih => rw [List.cons_append, last_cons, last_cons, ih]

theorem last_eq_self (h : ∀ z ∈ written w, z = x) : last x w = x := by
  have hmem : last x w ∈ x :: written w := List.getLastD_mem_cons
  rcases List.mem_cons.mp hmem with hlast | hlast
  · exact hlast
  · exact h _ hlast

theorem unasked_cons (h : e.1.consults = false) : unasked (e :: w) = e :: unasked w :=
  List.takeWhile_cons_of_pos (by simp [h])

theorem unasked_cons_of_consults (h : e.1.consults = true) : unasked (e :: w) = [] :=
  List.takeWhile_cons_of_neg (by simp [h])

theorem mem_written_of_unasked (h : x ∈ written (unasked w)) : x ∈ written w :=
  ((List.takeWhile_sublist _).filterMap _).subset h

theorem meets_cons : Meets x (e :: w) y e' after ↔
    (y = x ∧ e' = e ∧ after = w) ∨ Meets (e.1.writes?.getD x) w y e' after := by
  constructor
  · rintro ⟨before, hw, hlast⟩
    rcases List.cons_eq_append_iff.mp hw with ⟨rfl, hcons⟩ | ⟨before, rfl, rfl⟩
    · cases hcons
      exact .inl ⟨hlast.symm, rfl, rfl⟩
    · rw [last_cons] at hlast
      exact .inr ⟨before, rfl, hlast⟩
  · rintro (⟨rfl, rfl, rfl⟩ | ⟨before, rfl, hlast⟩)
    · exact ⟨[], rfl, rfl⟩
    · exact ⟨e :: before, rfl, last_cons.trans hlast⟩

theorem gets_cons {v : Severity} : Gets x (e :: w) v ↔
    e.1.severity x e.2 = v ∨ Gets (e.1.writes?.getD x) w v := by
  unfold Gets
  constructor
  · rintro ⟨y, e', after, hmeets, hv⟩
    rcases meets_cons.mp hmeets with ⟨rfl, rfl, rfl⟩ | hmeets
    · exact .inl hv
    · exact .inr ⟨y, e', after, hmeets, hv⟩
  · rintro (hv | ⟨y, e', after, hmeets, hv⟩)
    · exact ⟨x, e, w, meets_cons.mpr (.inl ⟨rfl, rfl, rfl⟩), hv⟩
    · exact ⟨y, e', after, meets_cons.mpr (.inr hmeets), hv⟩

theorem not_meets_nil : ¬ Meets x [] y e after := by
  rintro ⟨before, hw, -⟩
  cases before <;> cases hw

theorem not_stored_of_error {ns name : String} {s : BridgeStatus} {e : Error} :
    ¬ Stored (⟨.patchStatus ns name s, .error e⟩ :: w) :=
  fun h => Bool.noConfusion (h _ (.head _) (Option.some_ne_none _))

/-- Where no provider is asked nothing goes wrong for good. -/
theorem not_gets_of_quiet (h : ∀ e ∈ w, e.1.consults = false) : ¬ Gets x w .fatal := by
  rintro ⟨y, e, after, ⟨before, rfl, -⟩, hfatal⟩
  rw [BridgeCall.severity_of_not_consults (h e (by simp))] at hfatal
  cases hfatal

theorem Stored.tail (h : Stored (e :: w)) : Stored w := fun e' he' => h e' (.tail _ he')

end Log

namespace BridgePass

variable (p : BridgePass)

/-- What building the provider means for a bridge in a state that needs it. -/
def built (x : BridgeState) : Severity :=
  match p.bridge.provider p.context with
  | .ok _ => .fine
  | .error e =>
    match x with
    | .requested | .installing => e.severity
    | .active => .later
    | _ => .fine

/-- The pass takes the bridge up in a state: the one it was stored in, unless its spec has been
changed, and every one that is written. -/
def Takes (w : Log BridgeCall) (x : BridgeState) : Prop :=
  x ∈ w.written ∨ ¬ p.Superseded ∧ x = p.bridge.state

/-- The state that is stored, and what is known of it by the last answer. -/
inductive Standing where
  | over
  | at (x : BridgeState) (v : Severity)

/-- How a pass goes on after an answer. -/
inductive Weighs : Protocol BridgeCall Standing
  | aside (φ : Standing) (c : BridgeCall) (r : Answer c) (hc : c.consults = false)
      (hw : c.writes? = none) : Weighs φ c r φ
  | consult (x : BridgeState) (v : Severity) (c : BridgeCall) (r : Answer c)
      (hc : c.consults = true) (hv : v = .fine ∨ v = .again) :
      Weighs (.at x v) c r (.at x (c.severity x r))
  | proceed (x : BridgeState) (ns name : String) (s : BridgeStatus) (hs : s.state ≠ .error) :
      Weighs (.at x .fine) (.patchStatus ns name s) (.ok ()) (.at s.state (p.built s.state))
  | settle (x : BridgeState) (v : Severity) (ns name : String) (s : BridgeStatus) (hv : v ≠ .fine)
      (hs : s.state = if v = .fatal then .error else x)
      (hx : v ≠ .fatal → x ≠ .error ∧ p.built x ≠ .fatal) :
      Weighs (.at x v) (.patchStatus ns name s) (.ok ()) .over
  | lose (φ : Standing) (ns name : String) (s : BridgeStatus) (e : Error) :
      Weighs φ (.patchStatus ns name s) (.error e) .over

/-- What cannot be mended has been recorded. -/
def Standing.Settled (φ : Standing) : Prop := ∀ x, φ ≠ .at x .fatal

namespace Weighs

variable {p} {φ : Standing} {x state : BridgeState} {v : Severity} {s : BridgeStatus} {e : Error}

theorem built_ok {q : BoundProvider} (hq : p.bridge.provider p.context = .ok q) (x : BridgeState) :
    p.built x = .fine := by
  unfold built
  rw [hq]

/-- Where a provider is needed to get on, its error decides. -/
theorem built_error (hq : p.bridge.provider p.context = .error e)
    (hx : x = .requested ∨ x = .installing) : p.built x = e.severity := by
  unfold built
  rw [hq]
  rcases hx with rfl | rfl <;> rfl

theorem settled_of_ne (hv : v ≠ .fatal) : (Standing.at x v).Settled := by
  rintro y ⟨⟩
  exact hv rfl

theorem settled_over : Standing.over.Settled := nofun

theorem keeps_aside {c : BridgeCall} (hc : c.consults = false) (hw : c.writes? = none)
    {Q : Answer c → Standing → Prop} (h : ∀ r, Q r φ) :
    (Prog.perform c).Keeps (Weighs p) φ Q :=
  fun r => ⟨φ, .aside φ c r hc hw, h r⟩

theorem keeps_publish {n : Kube.Notice} {Q : Except Error Unit → Standing → Prop}
    (h : Q (.ok ()) φ) : (BridgeWork.publish n).run.Keeps (Weighs p) φ Q :=
  (Attempt.keeps_always _ Q).mpr (keeps_aside rfl rfl fun _ => h)

theorem keeps_record {Q : Except Error Unit → Standing → Prop} {φ' : Standing}
    (hok : ∀ ns name, Weighs p φ (.patchStatus ns name s) (.ok ()) φ') (h : Q (.ok ()) φ')
    (herr : ∀ e, Q (.error e) .over) : (p.record s).run.Keeps (Weighs p) φ Q := by
  intro r
  cases r with
  | ok u => exact ⟨φ', hok _ _, h⟩
  | error e => exact ⟨_, .lose φ _ _ s e, herr e⟩

theorem keeps_enter {message : Option String} {Q : Except Error BridgeStatus → Standing → Prop}
    {φ' : Standing}
    (hok : ∀ s' ns name, s'.state = state → Weighs p φ (.patchStatus ns name s') (.ok ()) φ')
    (h : ∀ s', s'.state = state → Q (.ok s') φ') (herr : ∀ e, Q (.error e) .over) :
    (p.enter s state message).run.Keeps (Weighs p) φ Q := by
  unfold enter
  rw [Attempt.keeps_bind]
  refine (Attempt.keeps_always _ _).mpr (keeps_aside rfl rfl fun now => ?_)
  show (_ >>= _ : BridgeWork BridgeStatus).run.Keeps _ _ _
  rw [Attempt.keeps_bind]
  exact keeps_record (fun ns name => hok _ ns name rfl) (h _ rfl) herr

/-- A state other than ERROR is entered, and the pass goes on from it. -/
theorem keeps_proceed {message : Option String} {Q : Except Error BridgeStatus → Standing → Prop}
    (hne : state ≠ .error) (h : ∀ s', s'.state = state → Q (.ok s') (.at state (p.built state)))
    (herr : ∀ e, Q (.error e) .over) :
    (p.enter s state message).run.Keeps (Weighs p) (.at x .fine) Q := by
  refine keeps_enter (fun s' ns name hs' => ?_) h herr
  subst hs'
  exact .proceed x ns name s' hne

/-- What a step leaves: it has entered the next state, or it has ended with everything recorded. -/
def Leads (p : BridgePass) (state : BridgeState) : Except Error Step → Standing → Prop
  | .ok (.next s), φ => φ = .at state (p.built state) ∧ s.state = state
  | .ok (.done _), φ => φ.Settled
  | .error _, φ => φ.Settled

theorem keeps_fail {reason : String} :
    (p.fail s reason e).run.Keeps (Weighs p) (.at x .fatal) (Leads p state) := by
  unfold fail
  rw [Attempt.keeps_bind]
  refine keeps_enter (fun s' ns name hs' => .settle x .fatal ns name s' nofun hs' (absurd rfl)) ?_
    fun _ => settled_over
  intro s' _
  show (_ >>= _ : BridgeWork Step).run.Keeps _ _ _
  rw [Attempt.keeps_bind]
  exact keeps_publish settled_over

/-- What has failed is given up if only a changed spec can mend it, and else left as it is. -/
theorem keeps_sorted {reason : String} {last : BridgeWork Step}
    (hv : v = .fatal ↔ e.isRetryable = false)
    (hlast : v ≠ .fatal → last.run.Keeps (Weighs p) (.at x v) (Leads p state)) :
    (if e.isRetryable then last else p.fail s reason e : BridgeWork Step).run.Keeps
      (Weighs p) (.at x v) (Leads p state) := by
  cases he : e.isRetryable with
  | true => exact hlast fun hfatal => Bool.noConfusion (he.symm.trans (hv.mp hfatal))
  | false =>
    rw [hv.mpr he]
    exact keeps_fail

theorem keeps_validated {kind : ProviderKind} : (p.validated s kind).run.Keeps (Weighs p)
    (.at .requested .fine) (Leads p .installing) := by
  unfold validated
  rw [Attempt.keeps_bind]
  refine keeps_publish ?_
  show (_ >>= _ : BridgeWork Step).run.Keeps _ _ _
  rw [Attempt.keeps_bind]
  refine keeps_proceed nofun (fun s' hs' => ?_) fun _ => settled_over
  show (_ >>= _ : BridgeWork Step).run.Keeps _ _ _
  rw [Attempt.keeps_bind]
  exact keeps_publish ⟨rfl, hs'⟩

theorem keeps_throw (hv : v ≠ .fatal) :
    (throw e : BridgeWork Step).run.Keeps (Weighs p) (.at x v) (Leads p state) := settled_of_ne hv

theorem keeps_requested : (p.requested s).run.Keeps (Weighs p)
    (.at .requested (p.built .requested)) (Leads p .installing) := by
  unfold requested
  cases hq : p.bridge.provider p.context with
  | error e =>
    rw [built_error hq (.inl rfl)]
    exact keeps_sorted Error.severity_eq_fatal keeps_throw
  | ok q =>
    rw [built_ok hq]
    show (_ >>= _ : BridgeWork Step).run.Keeps _ _ _
    rw [Attempt.keeps_bind]
    refine keeps_aside rfl rfl fun r => ?_
    cases r with
    | error e => exact settled_of_ne nofun
    | ok peers =>
      show (_ >>= _ : BridgeWork Step).run.Keeps _ _ _
      rw [Attempt.keeps_bind, Attempt.keeps_outcome]
      refine fun r => ⟨_, .consult _ _ _ r rfl (.inl rfl), ?_⟩
      cases r with
      | ok u => exact keeps_validated
      | error e => exact keeps_sorted Error.severity_eq_fatal keeps_throw

/-- What is left by waiting for readiness: the last answer, unless the time has run out. -/
def Awaited : Waited → Standing → Prop
  | .ended (.ok ()), φ => φ = .at .installing .fine
  | .ended (.error e), φ => ∃ v, φ = .at .installing v ∧ (v = .fatal ↔ e.isRetryable = false)
  | .overflowed, φ => φ.Settled

theorem keeps_pollFor {q : BoundProvider} {interval timeout : Nat} {expired : Error}
    (hexp : expired.isRetryable = true) (fuel elapsed : Nat) (hv : v = .fine ∨ v = .again) :
    (pollFor (BridgeWork.checkReady q) BridgeWork.sleep interval expired timeout fuel
      elapsed).Keeps (Weighs p) (.at .installing v) Awaited := by
  have hexpired : ∀ {v}, v ≠ .fatal → Awaited (.ended (.error expired)) (.at .installing v) :=
    fun hv => ⟨_, rfl, iff_of_false hv (by simp [hexp])⟩
  induction fuel generalizing elapsed v with
  | zero => exact hexpired (by rintro rfl; simp at hv)
  | succ fuel ih =>
    have hagain : ∀ {v : Severity} (ended : Nat), v = .fine ∨ v = .again →
        (pollAgain BridgeWork.sleep interval expired timeout
          (pollFor (BridgeWork.checkReady q) BridgeWork.sleep interval expired timeout fuel)
          ended).Keeps (Weighs p) (.at .installing v) Awaited := by
      intro v ended hv
      have hmild : v ≠ .fatal := by
        rintro rfl
        simp at hv
      exact pollAgain_elim (motive := fun again => again.Keeps _ _ _) _ _ _ _ _ _
        (settled_of_ne hmild) (hexpired hmild) fun resumed r => ⟨_, .aside _ _ r rfl rfl, ih _ hv⟩
    intro r
    refine ⟨_, .consult _ _ _ r rfl hv, ?_⟩
    rcases r with _ | ⟨took, e | _ | _⟩
    · exact hexpired nofun
    · show Prog.Keeps _ (if e.isRetryable then _ else _) (Standing.at .installing
        (if e.isRetryable then .again else .fatal)) _
      cases he : e.isRetryable with
      | true => exact hagain _ (.inr rfl)
      | false => exact ⟨_, rfl, iff_of_true rfl he⟩
    · exact hagain _ (.inl rfl)
    · rfl

theorem keeps_note {message : String} {a : Action} (hs : s.state = .installing) (hv : v ≠ .fatal)
    (hbuilt : p.built .installing = .fine) :
    (p.note s message >>= fun _ => pure (.done a) : BridgeWork Step).run.Keeps (Weighs p)
      (.at .installing v) (Leads p state) := by
  have hfound : BridgeState.installing ≠ .error ∧ p.built .installing ≠ .fatal := by
    rw [hbuilt]
    exact ⟨nofun, nofun⟩
  rw [Attempt.keeps_bind]
  unfold note
  split
  · cases v with
    | fine =>
      refine keeps_record (fun ns name => .proceed _ ns name _ ?_) ?_ fun _ => settled_over
      · show s.state ≠ .error
        rw [hs]
        nofun
      · show (Standing.at s.state (p.built s.state)).Settled
        rw [hs, hbuilt]
        exact settled_of_ne nofun
    | fatal => exact absurd rfl hv
    | again =>
      exact keeps_record (fun ns name => .settle _ _ ns name _ nofun hs fun _ => hfound)
        settled_over fun _ => settled_over
    | later =>
      exact keeps_record (fun ns name => .settle _ _ ns name _ nofun hs fun _ => hfound)
        settled_over fun _ => settled_over
  · exact settled_of_ne hv

theorem keeps_installing (hs : s.state = .installing) : (p.installing s).run.Keeps (Weighs p)
    (.at .installing (p.built .installing)) (Leads p .installed) := by
  unfold installing
  cases hq : p.bridge.provider p.context with
  | error e =>
    rw [built_error hq (.inr rfl)]
    exact keeps_sorted Error.severity_eq_fatal keeps_throw
  | ok q =>
    have hbuilt := built_ok hq .installing
    rw [hbuilt]
    show (_ >>= _ : BridgeWork Step).run.Keeps _ _ _
    rw [Attempt.keeps_bind, Attempt.keeps_outcome]
    refine fun r => ⟨_, .consult _ _ _ r rfl (.inl rfl), ?_⟩
    cases r with
    | error e => exact keeps_sorted Error.severity_eq_fatal fun hv => keeps_note hs hv hbuilt
    | ok u =>
      show (_ >>= _ : BridgeWork Step).run.Keeps _ _ _
      rw [Attempt.keeps_bind]
      refine (Prog.keeps_bind _ _ _).mpr ((keeps_pollFor rfl _ _ (.inl rfl)).mono ?_)
      intro waited φ hφ
      rcases waited with (e | u) | _
      · obtain ⟨v, rfl, hv⟩ := hφ
        exact keeps_sorted hv fun hv => keeps_note hs hv hbuilt
      · obtain rfl : φ = .at .installing .fine := hφ
        show (_ >>= _ : BridgeWork Step).run.Keeps _ _ _
        rw [Attempt.keeps_bind]
        refine keeps_proceed nofun (fun s' hs' => ?_) fun _ => settled_over
        show (_ >>= _ : BridgeWork Step).run.Keeps _ _ _
        rw [Attempt.keeps_bind]
        exact keeps_publish ⟨rfl, hs'⟩
      · exact hφ

/-- However a pass ends, what cannot be mended has been recorded. -/
def Ends : Except Error Action → Standing → Prop := fun _ φ => φ.Settled

theorem keeps_installed : (p.installed s).run.Keeps (Weighs p)
    (.at .installed (p.built .installed)) Ends := by
  have hbuilt : p.built .installed = .fine := by
    unfold built
    split <;> rfl
  have hactive : p.built .active ≠ .fatal := by
    unfold built
    split <;> nofun
  unfold installed
  rw [hbuilt, Attempt.keeps_bind]
  refine keeps_proceed nofun (fun s' hs' => ?_) fun _ => settled_over
  show (_ >>= _ : BridgeWork Action).run.Keeps _ _ _
  rw [Attempt.keeps_bind]
  exact keeps_publish (settled_of_ne hactive)

theorem keeps_fromInstalling (hs : s.state = .installing) : (p.fromInstalling s).run.Keeps
    (Weighs p) (.at .installing (p.built .installing)) Ends := by
  unfold fromInstalling
  rw [Attempt.keeps_bind]
  refine (keeps_installing hs).mono fun r φ hr => ?_
  rcases r with _ | s' | a
  · exact hr
  · obtain ⟨rfl, hs'⟩ := hr
    exact keeps_installed
  · exact hr

theorem keeps_active : (p.active s).run.Keeps (Weighs p) (.at .active (p.built .active)) Ends := by
  unfold active
  rw [Attempt.keeps_bind]
  cases hq : p.bridge.provider p.context with
  | error e =>
    refine settled_of_ne ?_
    unfold built
    rw [hq]
    nofun
  | ok q =>
    rw [built_ok hq]
    show (_ >>= _ : BridgeWork Action).run.Keeps _ _ _
    rw [Attempt.keeps_bind, Attempt.keeps_outcome]
    refine fun r => ⟨_, .consult _ _ _ r rfl (.inl rfl), ?_⟩
    rcases r with _ | ⟨elapsed, e | _ | _⟩
    · exact settled_of_ne nofun
    · exact settled_of_ne nofun
    · show (_ >>= _ : BridgeWork Action).run.Keeps _ _ _
      rw [Attempt.keeps_bind]
      refine keeps_publish ?_
      show (_ >>= _ : BridgeWork Action).run.Keeps _ _ _
      rw [Attempt.keeps_bind]
      exact keeps_proceed nofun (fun s' hs' => keeps_fromInstalling hs') fun _ => settled_over
    · exact settled_of_ne nofun

/-- What is left by the decision whether to start over. -/
def Started (p : BridgePass) : Except Error BridgeStatus → Standing → Prop
  | .ok s, φ => φ = .at s.state (p.built s.state)
  | .error _, φ => φ.Settled

theorem keeps_starting (hsame : ¬ p.Superseded → v = p.built p.bridge.state)
    (hsuper : p.Superseded → v = .fine) :
    p.starting.run.Keeps (Weighs p) (.at p.bridge.state v) (Started p) := by
  have hreopen : (p.enter p.bridge.statusOrInitial .requested (some "spec changed")).run.Keeps
      (Weighs p) (.at p.bridge.state .fine) (Started p) :=
    keeps_proceed nofun (fun s' hs' => by rw [Started, hs']) fun _ => settled_over
  unfold starting
  by_cases hc : (p.bridge.specChanged && p.bridge.statusOrInitial.state ≠ .requested
      && p.bridge.statusOrInitial.state ≠ .removed) = true
  · simp only [if_pos hc]
    simp only [ne_eq, Bool.and_eq_true, decide_eq_true_eq] at hc
    rw [hsuper ⟨hc.1.1, hc.1.2, hc.2⟩]
    unfold restart
    split
    · show (_ >>= _ : BridgeWork BridgeStatus).run.Keeps _ _ _
      rw [Attempt.keeps_bind, Attempt.keeps_outcome]
      have hwarn : ∀ e : Error, (p.bridge.warn Reason.uninstallFailed
            s!"Previous installation not removed: {e.message}" >>= fun _ =>
          p.enter p.bridge.statusOrInitial .requested (some "spec changed")).run.Keeps
          (Weighs p) (.at p.bridge.state .fine) (Started p) := by
        intro e
        rw [Attempt.keeps_bind]
        exact keeps_publish hreopen
      unfold Bridge.tearDown
      rw [Attempt.keeps_bind]
      cases p.bridge.applied.provider p.context with
      | error e => exact hwarn e
      | ok former =>
        refine keeps_aside rfl rfl fun r => ?_
        cases r with
        | ok u => exact hreopen
        | error e => exact hwarn e
    · exact hreopen
  · simp only [if_neg hc]
    rw [hsame fun hsuper => hc (by simp [hsuper.changed, hsuper.state, hsuper.present]),
      ← Bridge.state_statusOrInitial]
    rfl

theorem keeps_run (hsame : ¬ p.Superseded → v = p.built p.bridge.state)
    (hsuper : p.Superseded → v = .fine) :
    p.run.run.Keeps (Weighs p) (.at p.bridge.state v) Ends := by
  have hended : ∀ x, x.isTerminal = true → p.built x ≠ .fatal := by
    intro x hx
    unfold built
    cases p.bridge.provider p.context with
    | ok q => nofun
    | error e =>
      cases x with
      | error => nofun
      | removed => nofun
      | _ => cases hx
  unfold run
  rw [Attempt.keeps_bind]
  refine (keeps_starting hsame hsuper).mono fun r φ hr => ?_
  cases r with
  | error e => exact hr
  | ok s =>
    obtain rfl : φ = .at s.state (p.built s.state) := hr
    simp only [Attempt.andThen]
    cases hs : s.state with
    | requested =>
      show (_ >>= _ : BridgeWork Action).run.Keeps _ _ _
      rw [Attempt.keeps_bind]
      refine keeps_requested.mono fun r φ hr => ?_
      rcases r with _ | s' | a
      · exact hr
      · obtain ⟨rfl, hs'⟩ := hr
        exact keeps_fromInstalling hs'
      · exact hr
    | installing => exact keeps_fromInstalling hs
    | installed => exact keeps_installed
    | active => exact keeps_active
    | error => exact settled_of_ne (hended _ rfl)
    | removed => exact settled_of_ne (hended _ rfl)

section

variable {w after : Log BridgeCall} {φ' : Standing} {y : BridgeState}
  {e : Σ c : BridgeCall, Answer c}

theorem written_cons_of_none (hc : e.1.writes? = none) : Log.written (e :: w) = w.written := by
  rw [Log.written_cons, hc]
  rfl

/-- Nothing more happens to the bridge once a pass is over. -/
theorem path_over (h : Prog.Path (Weighs p) .over w φ') (hw : w.Stored) :
    w.written = [] ∧ ∀ e ∈ w, e.1.consults = false := by
  generalize hφ : Standing.over = φ at h
  induction h with
  | nil => exact ⟨rfl, List.forall_mem_nil _⟩
  | cons hdoes _ ih =>
    cases hdoes with
    | aside φ c r hc hnone =>
      obtain ⟨hwritten, hquiet⟩ := ih hw.tail hφ
      exact ⟨(written_cons_of_none hnone).trans hwritten, List.forall_mem_cons.mpr ⟨hc, hquiet⟩⟩
    | lose => exact absurd hw Log.not_stored_of_error
    | _ => cases hφ

/-- Behind an answer that was not fine the pass stands as the answer says. -/
theorem path_of_meets (h : Prog.Path (Weighs p) (.at x v) w φ') (hw : w.Stored)
    (hmeets : w.Meets x y e after) (hne : e.1.severity y e.2 ≠ .fine) :
    Prog.Path (Weighs p) (.at y (e.1.severity y e.2)) after φ' ∧ after.Stored := by
  generalize hφ : Standing.at x v = φ at h
  induction h generalizing x v with
  | nil => exact absurd hmeets Log.not_meets_nil
  | @cons φ φ₁ φ' c r w hdoes hrest ih =>
    have hquiet : ∀ {c : BridgeCall} {r : Answer c}, c.consults = false →
        e = ⟨c, r⟩ → False := by
      rintro c r hc rfl
      exact hne (BridgeCall.severity_of_not_consults hc _ _)
    rcases Log.meets_cons.mp hmeets with ⟨rfl, rfl, rfl⟩ | hmeets
    · cases hdoes with
      | consult x v c r hc hv =>
        cases hφ
        exact ⟨hrest, hw.tail⟩
      | aside φ c r hc => exact absurd rfl (hquiet hc)
      | _ => exact absurd rfl (hquiet rfl)
    · cases hdoes with
      | aside φ c r hc hnone =>
        rw [hnone] at hmeets
        exact ih hw.tail hmeets hφ
      | consult x v c r hc hv =>
        cases hφ
        have hnone := BridgeCall.writes?_of_consults hc
        rw [hnone] at hmeets
        exact ih hw.tail hmeets rfl
      | proceed x ns name s hs => exact ih hw.tail hmeets rfl
      | settle x v ns name s hv hs hx =>
        obtain ⟨before, rfl, -⟩ := hmeets
        have hconsults := (path_over hrest hw.tail).2 e (by simp)
        exact absurd rfl (hquiet hconsults)
      | lose => exact absurd hw Log.not_stored_of_error

/-- After an answer that leaves no hope for now nothing is asked any more, and the state stays. -/
theorem path_later (h : Prog.Path (Weighs p) (.at x .later) w φ') (hw : w.Stored) :
    (∀ e ∈ w, e.1.consults = false) ∧ ∀ z ∈ w.written, z = x := by
  generalize hφ : Standing.at x .later = φ at h
  induction h with
  | nil => exact ⟨List.forall_mem_nil _, List.forall_mem_nil _⟩
  | cons hdoes hrest ih =>
    cases hdoes with
    | aside φ c r hc hnone =>
      obtain ⟨hquiet, hstays⟩ := ih hw.tail hφ
      rw [written_cons_of_none hnone]
      exact ⟨List.forall_mem_cons.mpr ⟨hc, hquiet⟩, hstays⟩
    | consult x v c r hc hv =>
      cases hφ
      rcases hv with hv | hv <;> cases hv
    | settle x v ns name s hv hs hx =>
      cases hφ
      obtain ⟨hwritten, hquiet⟩ := path_over hrest hw.tail
      rw [Log.written_cons, hwritten]
      exact ⟨List.forall_mem_cons.mpr ⟨rfl, hquiet⟩, List.forall_mem_singleton.mpr hs⟩
    | lose => exact absurd hw Log.not_stored_of_error
    | _ => cases hφ

/-- Until the provider is asked again the state stays. -/
theorem path_again (h : Prog.Path (Weighs p) (.at x .again) w φ') (hw : w.Stored) :
    ∀ z ∈ w.unasked.written, z = x := by
  generalize hφ : Standing.at x .again = φ at h
  induction h with
  | nil => exact List.forall_mem_nil _
  | cons hdoes hrest ih =>
    cases hdoes with
    | aside φ c r hc hnone =>
      rw [Log.unasked_cons hc, written_cons_of_none hnone]
      exact ih hw.tail hφ
    | consult x v c r hc hv =>
      rw [Log.unasked_cons_of_consults hc]
      exact List.forall_mem_nil _
    | settle x v ns name s hv hs hx =>
      cases hφ
      have hnone := (path_over hrest hw.tail).1
      rw [Log.unasked_cons rfl, Log.written_cons]
      intro z hz
      rcases List.mem_append.mp hz with hz | hz
      · exact (List.mem_singleton.mp hz).trans hs
      · have hlater := Log.mem_written_of_unasked hz
        rw [hnone] at hlater
        cases hlater
    | lose => exact absurd hw Log.not_stored_of_error
    | _ => cases hφ

/-- A state that the pass cannot go on from is the last one. -/
theorem path_unbuilt (h : Prog.Path (Weighs p) (.at x v) w φ') (hw : w.Stored)
    (hy : y ∈ w.written) (hbuilt : p.built y = .later) : w.last x = y := by
  generalize hφ : Standing.at x v = φ at h
  induction h generalizing x v with
  | nil => cases hy
  | @cons φ φ₁ φ' c r w hdoes hrest ih =>
    rw [Log.written_cons] at hy
    rw [Log.last_cons]
    cases hdoes with
    | aside φ c r hc hnone =>
      rw [hnone] at hy ⊢
      exact ih hw.tail hy hφ
    | consult x v c r hc hv =>
      cases hφ
      have hnone := BridgeCall.writes?_of_consults hc
      rw [hnone] at hy ⊢
      exact ih hw.tail hy rfl
    | proceed x ns name s hs =>
      cases hφ
      rcases List.mem_append.mp hy with hy | hy
      · obtain rfl := List.mem_singleton.mp hy
        rw [hbuilt] at hrest
        exact Log.last_eq_self (path_later hrest hw.tail).2
      · exact ih hw.tail hy rfl
    | settle x v ns name s hv hs hx =>
      cases hφ
      have hnone := (path_over hrest hw.tail).1
      rw [hnone, List.append_nil] at hy
      obtain rfl := List.mem_singleton.mp hy
      rw [Log.last, hnone]
      rfl
    | lose => exact absurd hw Log.not_stored_of_error

/-- ERROR is written for what only a changed spec can mend, and for nothing else. -/
theorem path_error_iff (h : Prog.Path (Weighs p) (.at x v) w φ') (hw : w.Stored)
    (hφ' : φ'.Settled) : .error ∈ w.written ↔
      v = .fatal ∨ (∃ y ∈ w.written, p.built y = .fatal) ∨ w.Gets x .fatal := by
  generalize hφ : Standing.at x v = φ at h
  induction h generalizing x v with
  | nil =>
    subst hφ
    refine iff_of_false List.not_mem_nil ?_
    rintro (rfl | ⟨y, hy, -⟩ | ⟨y, e, after, hmeets, -⟩)
    · exact hφ' x rfl
    · cases hy
    · exact Log.not_meets_nil hmeets
  | @cons φ φ₁ φ' c r w hdoes hrest ih =>
    rw [Log.written_cons, Log.gets_cons]
    cases hdoes with
    | aside φ c r hc hnone =>
      rw [hnone, BridgeCall.severity_of_not_consults hc]
      simpa using ih hw.tail hφ' hφ
    | consult x v c r hc hv =>
      cases hφ
      have hnone := BridgeCall.writes?_of_consults hc
      have hv : v ≠ .fatal := by
        rintro rfl
        simp at hv
      rw [hnone]
      have hrest := ih hw.tail hφ' rfl
      simp only [Option.toList_none, List.nil_append, Option.getD_none, hv, false_or] at hrest ⊢
      rw [hrest]
      exact or_left_comm
    | proceed x ns name s hs =>
      cases hφ
      have hrest := ih hw.tail hφ' rfl
      have hwrites : BridgeCall.writes? (.patchStatus ns name s) = some s.state := rfl
      have hfine := BridgeCall.severity_of_not_consults (c := .patchStatus ns name s) rfl x (.ok ())
      simp [hwrites, hfine, hrest, hs.symm, or_assoc]
    | settle x v ns name s hv hs hx =>
      cases hφ
      obtain ⟨hwritten, hquiet⟩ := path_over hrest hw.tail
      have hwrites : BridgeCall.writes? (.patchStatus ns name s) = some s.state := rfl
      have hfine := BridgeCall.severity_of_not_consults (c := .patchStatus ns name s) rfl x (.ok ())
      have hnot := Log.not_gets_of_quiet (x := s.state) hquiet
      by_cases hfatal : v = .fatal
      · simp [hwrites, hfatal, hs]
      · rw [if_neg hfatal] at hs
        obtain ⟨hne, hbuilt⟩ := hx hfatal
        rw [hs] at hnot
        simp [hwrites, hfine, hwritten, hfatal, hs, hne.symm, hbuilt, hnot]
    | lose => exact absurd hw Log.not_stored_of_error

end

end Weighs

/-- A pass tells the errors of its provider apart: those that only a changed spec can mend lead to
ERROR, and no others do; these leave the state as it is. -/
structure Discerns (w : Log BridgeCall) : Prop where
  error_iff : .error ∈ w.written ↔
    (∃ x, p.Takes w x ∧ p.built x = .fatal) ∨ w.Gets p.bridge.state .fatal
  again : ∀ x e after, w.Meets p.bridge.state x e after → e.1.severity x e.2 = .again →
    ∀ y ∈ after.unasked.written, y = x
  later : ∀ x e after, w.Meets p.bridge.state x e after → e.1.severity x e.2 = .later →
    (∀ e' ∈ after, e'.1.consults = false) ∧ w.last p.bridge.state = x
  unbuilt : ∀ x, p.Takes w x → p.built x = .later → w.last p.bridge.state = x

variable {p} {v : Severity} {w : Log BridgeCall} {φ : Standing}

theorem Takes.of_same (h : ¬ p.Superseded) {x : BridgeState} :
    p.Takes w x ↔ x = p.bridge.state ∨ x ∈ w.written := by
  simp [Takes, h, or_comm]

theorem Takes.of_superseded (h : p.Superseded) {x : BridgeState} :
    p.Takes w x ↔ x ∈ w.written := by
  simp [Takes, h]

theorem Discerns.of_path (hpath : Prog.Path (Weighs p) (.at p.bridge.state v) w φ)
    (hw : w.Stored) (hφ : φ.Settled) (hsame : ¬ p.Superseded → v = p.built p.bridge.state)
    (hsuper : p.Superseded → v = .fine) : p.Discerns w where
  error_iff := by
    rw [Weighs.path_error_iff hpath hw hφ]
    by_cases h : p.Superseded
    · simp [hsuper h, Takes.of_superseded h]
    · simp [hsame h, Takes.of_same h, or_assoc]
  again x e after hmeets hagain := by
    obtain ⟨hrest, hafter⟩ := Weighs.path_of_meets hpath hw hmeets (by simp [hagain])
    rw [hagain] at hrest
    exact Weighs.path_again hrest hafter
  later x e after hmeets hlater := by
    obtain ⟨hrest, hafter⟩ := Weighs.path_of_meets hpath hw hmeets (by simp [hlater])
    rw [hlater] at hrest
    obtain ⟨hquiet, hstays⟩ := Weighs.path_later hrest hafter
    obtain ⟨before, rfl, hbefore⟩ := hmeets
    have hne : e.1.severity x e.2 ≠ .fine := by simp [hlater]
    have hnone := BridgeCall.writes?_of_consults (BridgeCall.consults_of_severity hne)
    refine ⟨hquiet, ?_⟩
    rw [Log.last_append_eq, hbefore, Log.last_cons, hnone]
    exact Log.last_eq_self hstays
  unbuilt x hx hbuilt := by
    by_cases h : p.Superseded
    · exact Weighs.path_unbuilt hpath hw ((Takes.of_superseded h).mp hx) hbuilt
    · rcases (Takes.of_same h).mp hx with rfl | hx
      · rw [hsame h, hbuilt] at hpath
        exact Log.last_eq_self (Weighs.path_later hpath hw).2
      · exact Weighs.path_unbuilt hpath hw hx hbuilt

/-- **Transient errors are never fatal, and permanent ones never silent**, as long as the status
can be stored. -/
theorem discerns_errors (p : BridgePass) : p.run.run.Yields fun _ w => w.Stored → p.Discerns w := by
  obtain ⟨v, hsame, hsuper⟩ : ∃ v : Severity, (¬ p.Superseded → v = p.built p.bridge.state) ∧
      (p.Superseded → v = .fine) := by
    by_cases h : p.Superseded
    · exact ⟨.fine, absurd h, fun _ => rfl⟩
    · exact ⟨_, fun _ => rfl, fun h' => absurd h' h⟩
  refine (Weighs.keeps_run hsame hsuper).yields.mono fun r w ⟨φ, hpath, hφ⟩ hw => ?_
  exact .of_path hpath hw hφ hsame hsuper

end BridgePass
end BridgeOperator
