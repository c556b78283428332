import BridgeOperator.Proofs.Client.Issuance
import BridgeOperator.Proofs.Time.Spellings

/-!
When a client is looked at again. A pass is made again after the interval, or by the boundary at
which the supervisor would decide otherwise if that is closer. The boundary is the one that the
client has once the pass is over (`yields_reconcile_resumes`). What the wait for it comes to is a
matter of the clock: the span to a boundary in a leap second counts that second, which the clock
does not show, so that such a wait may be too long, and no other is (`wakes_in_time_iff`).
-/

namespace BridgeOperator

namespace Instant

variable {a b now t : Instant} {d most n : Nat}

theorem notAfter_iff_not_before : a.notAfter b = true ↔ ¬ b.before a = true := by
  rw [notAfter, Bool.not_eq_true', Bool.not_eq_true]

theorem before_iff : a.before b = true ↔
    a.seconds < b.seconds ∨ a.seconds = b.seconds ∧ a.nanos < b.nanos := by
  simp [before]

theorem not_before_self : ¬ t.before t = true := by
  rw [before_iff]
  omega

/-- Instants with the same ones before them are the same. -/
theorem eq_of_before_iff (h : ∀ t : Instant, t.before a = true ↔ t.before b = true) : a = b := by
  have hab : ¬ a.before b = true := fun hlt => not_before_self ((h a).mpr hlt)
  have hba : ¬ b.before a = true := fun hlt => not_before_self ((h b).mp hlt)
  rw [before_iff] at hab hba
  obtain ⟨s, n⟩ := a
  obtain ⟨s', n'⟩ := b
  rw [Instant.mk.injEq]
  dsimp only at hab hba
  omega

/-- So many nanoseconds later, as the clock counts them. -/
def later (t : Instant) (n : Nat) : Instant :=
  ⟨(t.sinceEpoch + n) / 1000000000, ((t.sinceEpoch + n) % 1000000000).toNat⟩

/-- After a second or more this is the sum of the two. -/
theorem add?_eq_later (hn : 1000000000 ≤ n) : t.add? (n / 1000000000) (n % 1000000000) =
    if (t.later n).notAfter last then some (t.later n) else none := by
  have hcarry : ∀ total : Nat, (total : Int) = t.sinceEpoch - t.seconds * 1000000000 +
      (n % 1000000000 : Nat) → (⟨t.seconds + (n / 1000000000 : Nat) + (total / 1000000000 : Nat),
        total % 1000000000⟩ : Instant) = t.later n := by
    intro total htotal
    unfold later
    rw [Instant.mk.injEq]
    omega
  unfold add?
  split
  · next hleap =>
    have hlong : 0 < n / 1000000000 ∨ 2000000000 ≤ t.nanos + n % 1000000000 := .inl (by omega)
    dsimp only
    rw [if_pos hlong, hcarry _ ?_]
    unfold sinceEpoch
    rw [if_neg (Nat.not_lt.mpr hleap)]
    omega
  · next hordinary =>
    dsimp only
    rw [hcarry _ ?_]
    unfold sinceEpoch
    rw [if_pos (Nat.not_le.mp hordinary)]
    omega

theorem later_notAfter_iff : (t.later n).notAfter b = true ↔
    t.sinceEpoch + n ≤ b.seconds * 1000000000 + min b.nanos 999999999 := by
  rw [notAfter_iff]
  unfold later
  dsimp only
  omega

/-- The span from `a` to `b` counts the leap second that `b` is in. -/
structure Counts (a b : Instant) : Prop where
  leap : 1000000000 ≤ b.nanos
  earlier : a.seconds.fmod 86400 < b.seconds.fmod 86400 ∨
    a.seconds.fmod 86400 = b.seconds.fmod 86400 ∧ a.Ordinary

theorem nanosBetween_of_counts (h : a.Counts b) :
    a.nanosBetween b = b.sinceEpoch - a.sinceEpoch + 1000000000 := by
  obtain ⟨hleap, hearlier⟩ := h
  unfold Ordinary at hearlier
  unfold nanosBetween sinceEpoch
  dsimp only
  repeat' split
  all_goals omega

theorem nanosBetween_le (h : ¬ a.Counts b) :
    a.nanosBetween b ≤ b.sinceEpoch - a.sinceEpoch := by
  have hnot : ¬ (1000000000 ≤ b.nanos ∧ (a.seconds.fmod 86400 < b.seconds.fmod 86400 ∨
      a.seconds.fmod 86400 = b.seconds.fmod 86400 ∧ a.nanos < 1000000000)) :=
    fun hcounts => h ⟨hcounts.1, hcounts.2⟩
  unfold nanosBetween sinceEpoch
  dsimp only
  repeat' split
  all_goals omega

/-- A wait from `now` for `b`, and for at most `most` nanoseconds, goes on after `b`. -/
structure Oversleeps (now b : Instant) (most : Nat) : Prop where
  counts : now.Counts b
  reached : (b.seconds + 1) * 1000000000 ≤ now.sinceEpoch + most

/-- A wait that is not cut short ends no later than what it is for, unless it goes by a leap
second that the clock leaves out. -/
theorem later_notAfter_boundary (hb : b.nanos < 2000000000)
    (hd : d = max (min (now.nanosBetween b).toNat most) 1000000000) (hlong : 1000000000 < d) :
    (now.later d).notAfter b = true ↔ ¬ now.Oversleeps b most := by
  rw [later_notAfter_iff]
  by_cases hcounts : now.Counts b
  -- The span is a second more than the clock shows of it, so the wait ends in time only if the
  -- interval cuts it short.
  · have hspan := nanosBetween_of_counts hcounts
    have hleap := hcounts.leap
    have hepoch : b.sinceEpoch = b.seconds * 1000000000 + b.nanos - 1000000000 := by
      unfold sinceEpoch
      rw [if_neg (Nat.not_lt.mpr hleap)]
      omega
    have hiff : now.Oversleeps b most ↔
        (b.seconds + 1) * 1000000000 ≤ now.sinceEpoch + most :=
      ⟨fun h => h.reached, fun h => ⟨hcounts, h⟩⟩
    rw [hiff]
    omega
  · have hspan := nanosBetween_le hcounts
    have hepoch : b.sinceEpoch ≤ b.seconds * 1000000000 + min b.nanos 999999999 := by
      unfold sinceEpoch
      split <;> omega
    constructor
    · exact fun _ h => hcounts h.counts
    · intro _
      omega

/-- A wait that is not cut short begins before what it is for. -/
theorem notAfter_boundary (hb : b.nanos < 2000000000)
    (hd : d = max (min (now.nanosBetween b).toNat most) 1000000000) (hlong : 1000000000 < d) :
    now.notAfter b = true := by
  have hspan : 1000000000 < now.nanosBetween b := by omega
  rw [notAfter_iff]
  unfold nanosBetween at hspan
  dsimp only at hspan
  repeat' split at hspan
  all_goals omega

end Instant

namespace ClientCall

/-- The status that the client has from then on. -/
def writes? : (c : ClientCall) → Answer c → Option ClientStatus
  | patchStatus _ _ s, .ok _ => some s
  | _, _ => none

/-- The call is answered with an error. -/
def fails : (c : ClientCall) → Answer c → Bool
  | patchStatus .., .error _ | addFinalizer .., .error _ | removeFinalizer .., .error _
  | deleteClient .., .error _ | getSecret .., .error _ | createSecret .., .error _
  | deleteSecret .., .error _ | deleteBridgesOf .., .error _ => true
  | _, _ => false

end ClientCall

namespace Log

variable {w w' : Log ClientCall}

/-- The statuses that are stored, in order. -/
def statuses (w : Log ClientCall) : List ClientStatus := w.filterMap fun e => e.1.writes? e.2

def ErrorFree (w : Log ClientCall) : Prop := ∀ e ∈ w, e.1.fails e.2 = false

@[simp] theorem readings_append : (w ++ w').readings = w.readings ++ w'.readings :=
  List.filterMap_append

@[simp] theorem statuses_append : (w ++ w').statuses = w.statuses ++ w'.statuses :=
  List.filterMap_append

end Log

namespace Client

variable {c : Client} {grace : Nat} {b t : Instant}

/-! ## Boundaries -/

/-- A decision is put off until the boundary. -/
theorem ite_eq_keep_iff {decision : Decision} (h : decision ≠ .keep) :
    (if b.notAfter t then decision else .keep) = .keep ↔ t.before b = true := by
  rw [ite_eq_right_iff, Instant.notAfter_iff_not_before]
  constructor
  · intro hdue
    by_contra hlate
    exact h (hdue hlate)
  · exact fun hearly hlate => absurd hearly hlate

theorem evaluate_eq_keep_iff (h : c.nextCheck grace = some b) :
    c.evaluate t grace = .keep ↔ t.before b = true := by
  obtain ⟨sunset, hsunset, hb⟩ := Option.map_eq_some_iff.mp h
  unfold evaluate
  rw [hsunset]
  dsimp only
  cases hstate : c.stateOrActive with
  | active =>
    rw [hstate] at hb
    obtain rfl : sunset = b := hb
    exact ite_eq_keep_iff nofun
  | _ =>
    rw [hstate] at hb
    subst hb
    exact ite_eq_keep_iff nofun

theorem evaluate_eq_keep (h : c.nextCheck grace = none) : c.evaluate t grace = .keep := by
  unfold evaluate
  rw [Option.map_eq_none_iff.mp h]

/-- The boundary is the instant from which on a client is not kept any more. -/
theorem nextCheck_eq_some_iff : c.nextCheck grace = some b ↔
    ∀ t, c.evaluate t grace = .keep ↔ t.before b = true := by
  constructor
  · exact fun h t => evaluate_eq_keep_iff h
  · intro h
    cases hcheck : c.nextCheck grace with
    | none => exact absurd ((h b).mp (evaluate_eq_keep hcheck)) Instant.not_before_self
    | some b' =>
      have hsame : ∀ t : Instant, t.before b' = true ↔ t.before b = true := fun t =>
        (evaluate_eq_keep_iff hcheck).symm.trans (h t)
      rw [Instant.eq_of_before_iff hsame]

theorem nextCheck_eq_none_iff : c.nextCheck grace = none ↔
    ∀ t, c.evaluate t grace = .keep := by
  constructor
  · exact fun h t => evaluate_eq_keep h
  · intro h
    cases hcheck : c.nextCheck grace with
    | none => rfl
    | some b => exact absurd ((evaluate_eq_keep_iff hcheck).mp (h b)) Instant.not_before_self

theorem nextCheck_congr {c' : Client} (hspec : c'.spec = c.spec)
    (hstate : c'.stateOrActive = c.stateOrActive) : c'.nextCheck grace = c.nextCheck grace := by
  unfold nextCheck sunset?
  rw [hspec, hstate]

/-- Once the client waits, its boundary is the deadline. -/
theorem nextCheck_waiting {now deadline : Instant} {s : ClientStatus} (hs : s.state = .waiting)
    (h : c.evaluate now grace = .moveToWaiting deadline) :
    ({ c with status := some s } : Client).nextCheck grace = some deadline := by
  have hstate : ({ c with status := some s } : Client).stateOrActive = .waiting := hs
  have hsame : ({ c with status := some s } : Client).sunset? = c.sunset? := rfl
  obtain ⟨hactive, hsunset⟩ := evaluate_eq_moveToWaiting h
  obtain ⟨sunset, hsunset⟩ := Option.ne_none_iff_exists'.mp hsunset
  unfold nextCheck
  rw [hstate, hsame, hsunset]
  simp only [evaluate, hsunset, hactive] at h
  split at h
  · cases h
    rfl
  · cases h

/-! ## Passes -/

/-- The client, found with the status `st`, as it is stored after these calls. -/
def left (c : Client) (st : Option ClientStatus) (w : Log ClientCall) : Client :=
  { c with status := w.statuses.getLast?.or st }

/-- The pass is made again by the boundary that the client is left with, as seen from the `k`th
reading of the clock. -/
def Resumes (c : Client) (config : OperatorConfig) (k : Nat) (st : Option ClientStatus)
    (r : Except Error Action) (w : Log ClientCall) : Prop :=
  ∀ d, r = .ok (.requeue d) → ∃ now, w.readings[k]? = some now ∧
    ClientPass.requeueUntil ((c.left st w).nextCheck config.clientGrace) now
      config.clientInterval = .requeue d

section

variable {config : OperatorConfig} {k : Nat} {st : Option ClientStatus} {s : ClientStatus}
  {r : Except Error Action} {w w' : Log ClientCall}

/-- What is done before writes nothing, but the clock may have been read. -/
theorem Resumes.before (h : c.Resumes config k st r w') (hwrites : w.statuses = []) :
    c.Resumes config (w.readings.length + k) st r (w ++ w') := by
  unfold Resumes left at h ⊢
  rwa [Log.readings_append, Log.statuses_append, hwrites, List.nil_append,
    List.getElem?_append_right (Nat.le_add_right _ _), Nat.add_sub_cancel_left]

theorem Resumes.recorded {ns name : String} {u : Unit} (h : c.Resumes config k (some s) r w) :
    c.Resumes config k st r (⟨.patchStatus ns name s, .ok u⟩ :: w) := by
  have hlast : (s :: w.statuses).getLast?.or st = w.statuses.getLast?.or (some s) := by
    rw [List.getLast?_cons]
    cases w.statuses.getLast? <;> rfl
  have hleft : c.left st (⟨.patchStatus ns name s, .ok u⟩ :: w) = c.left (some s) w :=
    congrArg (fun status => { c with status }) hlast
  unfold Resumes
  rw [hleft]
  exact h

end

end Client

namespace ClientPass

variable {p : ClientPass} {s : ClientStatus}

/-- Neither has the clock been read nor a status stored, and the state is the one of `s`. -/
structure Unmoved (s : ClientStatus) (r : Except Error ClientStatus) (w : Log ClientCall) :
    Prop where
  readings : w.readings = []
  statuses : w.statuses = []
  state : ∀ s', r = .ok s' → s'.state = s.state

/-- Calls that have to do with neither the clock nor the stored client leave no trace of either. -/
theorem unmoved_of_path {φ φ' : Unit} {w : Log ClientCall}
    (h : Prog.Path (fun _ c _ _ => c.isAside = true) φ w φ') :
    w.readings = [] ∧ w.statuses = [] := by
  induction h with
  | nil => exact ⟨rfl, rfl⟩
  | @cons _ _ _ c r w haside _ ih =>
    cases c with
    | now => cases haside
    | patchStatus => cases haside
    | _ => exact ih

theorem yields_syncSecret_unmoved : (p.syncSecret s).run.Yields (Unmoved s) := by
  have haside : (p.syncSecret s).run.Keeps (fun (_ : Unit) c _ _ => c.isAside = true) ()
      fun r _ => ∀ s', r = .ok s' → s'.state = s.state := by
    refine syncSecret_keeps (fun _ _ _ => rfl) (fun _ _ => rfl) (fun _ _ => rfl) (fun _ _ => rfl)
      (fun s' hs' => ?_) fun e => nofun
    rintro _ ⟨⟩
    exact hs'.state
  refine haside.yields.mono fun r w ⟨φ, hpath, hstate⟩ => ?_
  obtain ⟨hreads, hwrites⟩ := unmoved_of_path hpath
  exact ⟨hreads, hwrites, hstate⟩

theorem yields_watching (hs : s.state = p.client.stateOrActive) :
    (p.watching s).run.Yields (p.client.Resumes p.config 0 (some s)) := by
  unfold watching
  rw [Attempt.yields_bind]
  intro now
  show (_ >>= _ : ClientWork Action).run.Yields _
  rw [Attempt.yields_bind]
  unfold supervise
  cases hdecision : p.client.evaluate now p.config.clientGrace with
  | keep =>
    intro d hd
    have hsame : ({ p.client with status := some s } : Client).nextCheck p.config.clientGrace =
        p.client.nextCheck p.config.clientGrace := Client.nextCheck_congr rfl hs
    refine ⟨now, rfl, Eq.trans ?_ (Except.ok.inj hd)⟩
    exact congrArg (requeueUntil · now p.config.clientInterval) hsame
  | moveToWaiting deadline =>
    show (_ >>= _ : ClientWork Client.Decision).run.Yields _
    rw [Attempt.yields_bind]
    unfold moveToWaiting
    rw [Attempt.yields_bind]
    intro t
    rintro (e | u)
    · exact nofun
    · intro _ d hd
      refine ⟨now, rfl, Eq.trans ?_ (Except.ok.inj hd)⟩
      exact congrArg (requeueUntil · now p.config.clientInterval)
        (Client.nextCheck_waiting rfl hdecision)
  | delete =>
    show (_ >>= _ : ClientWork Client.Decision).run.Yields _
    rw [Attempt.yields_bind]
    refine (Prog.yields_ends _).mono fun r w _ => ?_
    rcases r with e | u <;> exact nofun

theorem yields_storing_resumes (hs : s.state = p.client.stateOrActive) :
    (p.storing s).run.Yields (p.client.Resumes p.config 0 p.client.status) := by
  unfold storing
  split
  · rw [Attempt.yields_bind]
    rintro (e | u)
    · exact nofun
    · exact (yields_watching hs).mono fun r w hw => hw.recorded
  · next hsame =>
    have hstatus : p.client.status = some s := not_not.mp hsame
    rw [hstatus]
    exact yields_watching hs

theorem yields_run_resumes (hs : s.state = p.client.stateOrActive) :
    (p.run s).run.Yields (p.client.Resumes p.config 0 p.client.status) := by
  rw [run_eq]
  split
  · rw [Attempt.yields_bind]
    refine yields_syncSecret_unmoved.mono fun r w ⟨hreads, hwrites, hstate⟩ => ?_
    cases r with
    | error e => exact nofun
    | ok s' =>
      refine (yields_storing_resumes ((hstate s' rfl).trans hs)).mono fun r w' hw' => ?_
      have hwhole := hw'.before hwrites
      rwa [hreads] at hwhole
  · exact yields_storing_resumes hs

end ClientPass

namespace Client

variable {c : Client} {config : OperatorConfig}

theorem yields_passFrom_resumes {status : ClientWork ClientStatus} {k : Nat}
    (hstatus : status.run.Yields fun r w => w.readings.length = k ∧ w.statuses = [] ∧
      ∃ s, r = .ok s ∧ s.state = c.stateOrActive) :
    (c.passFrom config status).run.Yields (c.Resumes config k c.status) := by
  unfold passFrom
  cases c.metadata.namespaceName with
  | none => exact nofun
  | some ns =>
    have hpass : (do ClientPass.run ⟨config, c, ns⟩ (← status) : ClientWork Action).run.Yields
        (c.Resumes config k c.status) := by
      rw [Attempt.yields_bind]
      refine hstatus.mono fun r w ⟨hreads, hwrites, s, hr, hs⟩ => ?_
      subst hr
      refine (ClientPass.yields_run_resumes (p := ⟨config, c, ns⟩) hs).mono fun r w' hw' => ?_
      have hwhole := hw'.before hwrites
      rwa [hreads] at hwhole
    show (_ >>= _ : ClientWork Action).run.Yields _
    rw [Attempt.yields_bind]
    unfold ensureFinalizer
    split
    · rintro (e | u)
      · exact nofun
      · exact hpass.mono fun r w hw => hw
    · exact hpass

/-- A pass over a client that is seen for the first time reads the clock once before it looks at
the sunset. -/
def looks (c : Client) : Nat := if c.status.isNone then 1 else 0

theorem yields_remove_requeue : c.remove.run.Yields fun r w =>
    w.ErrorFree → ∀ d, r ≠ .ok (.requeue d) := by
  unfold remove
  cases c.metadata.namespaceName with
  | none => exact fun _ => nofun
  | some ns =>
    dsimp only
    split
    · exact fun _ => nofun
    · rw [Attempt.yields_bind, Attempt.yields_outcome]
      intro r
      show (_ >>= _ : ClientWork Action).run.Yields _
      rw [Attempt.yields_bind, Attempt.yields_outcome]
      rintro (e | u)
      · intro hfree
        cases hfree ⟨.removeFinalizer ns c.name, .error e⟩ (.tail _ (.head _))
      · exact fun _ => nofun

theorem yields_reconcile_resumes (c : Client) (config : OperatorConfig) :
    (c.reconcile config).run.Yields fun r w =>
      w.ErrorFree → c.Resumes config c.looks c.status r w := by
  unfold reconcile
  split
  · exact yields_remove_requeue.mono fun r w hw hfree d hd => absurd hd (hw hfree d)
  · unfold looks
    split
    · next hnew =>
      refine (yields_passFrom_resumes ?_).mono fun r w hw _ => hw
      have hactive := stateOrActive_of_new (Option.isNone_iff_eq_none.mp hnew)
      exact fun t => ⟨rfl, rfl, _, rfl, hactive.symm⟩
    · refine (yields_passFrom_resumes ?_).mono fun r w hw _ => hw
      exact ⟨rfl, rfl, _, rfl, c.state_found⟩

/-! ## Waits -/

theorem nanos_lt_of_nextCheck {grace : Nat} {b : Instant} (h : c.nextCheck grace = some b) :
    b.nanos < 2000000000 := by
  obtain ⟨sunset, hsunset, hb⟩ := Option.map_eq_some_iff.mp h
  obtain ⟨raw, -, hraw⟩ := Option.bind_eq_some_iff.mp hsunset
  have hdeadline : (deletionDeadline sunset grace).nanos < 2000000000 := by
    obtain ⟨sum, hsmall, -, hadd⟩ :=
      Instant.add?_eq (t := sunset) (grace / 1000000000) (grace % 1000000000)
    unfold deletionDeadline
    rw [hadd]
    split
    · exact hsmall
    · exact Nat.lt_trans Instant.ordinary_last (by decide)
  subst hb
  cases c.stateOrActive with
  | active => exact Instant.nanos_lt_of_parseSunset? hraw
  | _ => exact hdeadline

/-- Nothing but keeping is decided from `now` on for `d` nanoseconds. -/
def Quiet (c : Client) (grace : Nat) (now : Instant) (d : Nat) : Prop :=
  ∀ t, now.notAfter t = true → t.before (now.later d) = true → c.evaluate t grace = .keep

section

variable {grace d most : Nat} {now b : Instant}

theorem quiet_of_nextCheck_none (h : c.nextCheck grace = none) : c.Quiet grace now d :=
  fun _ _ _ => evaluate_eq_keep h

theorem quiet_iff (h : c.nextCheck grace = some b) (hnow : now.notAfter b = true) :
    c.Quiet grace now d ↔ (now.later d).notAfter b = true := by
  rw [Instant.notAfter_iff_not_before]
  constructor
  · intro hquiet hlater
    exact Instant.not_before_self ((evaluate_eq_keep_iff h).mp (hquiet b hnow hlater))
  · intro hend t _ hbefore
    refine (evaluate_eq_keep_iff h).mpr ?_
    rw [Instant.before_iff] at hend hbefore ⊢
    omega

end

/-- **A pass wakes up in time.** -/
theorem wakes_in_time_iff (c : Client) (config : OperatorConfig)
    (hinterval : Duration.seconds 1 ≤ config.clientInterval) :
    (∀ b, c.nextCheck config.clientGrace = some b ↔
      ∀ t, c.evaluate t config.clientGrace = .keep ↔ t.before b = true) ∧
    (c.nextCheck config.clientGrace = none ↔ ∀ t, c.evaluate t config.clientGrace = .keep) ∧
    (c.reconcile config).run.Yields fun r w => w.ErrorFree → ∀ d, r = .ok (.requeue d) →
      ∃ now, w.readings[c.looks]? = some now ∧ 1000000000 ≤ d ∧
        d ≤ config.clientInterval ∧ (1000000000 < d →
          ((c.left c.status w).Quiet config.clientGrace now d ↔
            ∀ b, (c.left c.status w).nextCheck config.clientGrace = some b →
              ¬ now.Oversleeps b config.clientInterval)) := by
  refine ⟨fun b => nextCheck_eq_some_iff, nextCheck_eq_none_iff, ?_⟩
  have hsecond : 1000000000 ≤ config.clientInterval := hinterval
  refine (yields_reconcile_resumes c config).mono fun r w hw hfree d hd => ?_
  obtain ⟨now, hnow, hwait⟩ := hw hfree d hd
  refine ⟨now, hnow, ?_⟩
  cases hcheck : (c.left c.status w).nextCheck config.clientGrace with
  | none =>
    rw [hcheck] at hwait
    cases hwait
    refine ⟨by omega, Nat.le_refl _, fun _ => ⟨fun _ => nofun, fun _ => ?_⟩⟩
    exact quiet_of_nextCheck_none hcheck
  | some b =>
    rw [hcheck] at hwait
    have hd : max (min (now.nanosBetween b).toNat config.clientInterval) 1000000000 =
        d := Action.requeue.inj hwait
    refine ⟨by omega, by omega, fun hlong => ?_⟩
    have hb := nanos_lt_of_nextCheck hcheck
    rw [quiet_iff hcheck (Instant.notAfter_boundary hb hd.symm hlong),
      Instant.later_notAfter_boundary hb hd.symm hlong]
    constructor
    · rintro h b' ⟨⟩
      exact h
    · exact fun h => h b rfl

namespace Sample

def daily : OperatorConfig :=
  { OperatorConfig.default with clientInterval := Duration.seconds 86400 }

/-- So many seconds before 2026. -/
def before (n : Nat) : Instant := ⟨1767225600 - n, 0⟩

/-- The client once it is active. -/
def known : Client := { alice with status := some .initial }

/-- A client whose sunset is in a leap second at the end of 2025. -/
def leaping : Client :=
  { known with spec := { known.spec with sunset := some "2025-12-31T23:59:60.5Z" } }

theorem errorFree_now (t : Instant) : Log.ErrorFree [⟨ClientCall.now, t⟩] :=
  List.forall_mem_singleton.mpr rfl

end Sample

open BridgeOperator.Client.Sample in
/-- An hour before the sunset, a pass is made again in an hour. -/
theorem wakes_in_time_iff_known : ∃ w,
    (known.reconcile daily).run.Ends (.ok (.requeue (3600 * 1000000000))) w ∧ w.ErrorFree ∧
      (known.left known.status w).Quiet daily.clientGrace (before 3600) (3600 * 1000000000) := by
  obtain ⟨-, -, hyields⟩ := wakes_in_time_iff known daily (by decide)
  have hfree := errorFree_now (before 3600)
  obtain ⟨now, hnow, -, -, hiff⟩ := hyields (before 3600) hfree (3600 * 1000000000) rfl
  obtain rfl : before 3600 = now := Option.some.inj hnow
  have hends := (known.reconcile daily).run.yields_ends (before 3600)
  refine ⟨_, hends, hfree, (hiff (by decide)).mpr ?_⟩
  intro b hb hover
  obtain rfl : seconds 0 = b := Option.some.inj hb
  exact absurd hover.counts.leap (by decide)

open BridgeOperator.Client.Sample in
/-- Fourteen hours before the leap second that a sunset is in, a pass is put off until the day
after it. -/
theorem not_always_in_time : ¬ ∀ (c : Client) (config : OperatorConfig),
    Duration.seconds 1 ≤ config.clientInterval → (c.reconcile config).run.Yields fun r w =>
      w.ErrorFree → ∀ d, r = .ok (.requeue d) → ∃ now, w.readings[c.looks]? = some now ∧
        1000000000 ≤ d ∧ d ≤ config.clientInterval ∧
        (1000000000 < d → (c.left c.status w).Quiet config.clientGrace now d) := by
  intro h
  obtain ⟨now, hnow, -, -, hquiet⟩ :=
    h leaping daily (by decide) (before 50400) (errorFree_now _) 50400500000000 rfl
  obtain rfl : before 50400 = now := Option.some.inj hnow
  have hkept : leaping.evaluate ⟨1767225599, 1500000000⟩ daily.clientGrace = .keep :=
    hquiet (by decide) ⟨1767225599, 1500000000⟩ (by decide) (by decide)
  cases hkept

end Client

end BridgeOperator
