import BridgeOperator.Proofs.Carrier.RoundTrip
import BridgeOperator.Proofs.World.Basic
import BridgeOperator.Provider.Sidecar

/-!
Going over the sidecars of a target. An install and an uninstall both take one pod after the other,
compare the configuration that is there with the one that should be, and write where they differ.
What such a sweep leaves, and what it leaves if it fails on the way, depends on the plan alone: the
pods before the failure are as planned, and those after it as they were (`Sweeps.ok`,
`Sweeps.error`).
-/

namespace BridgeOperator

open Kube (Pod)

/-- The configuration files of the sidecars, and which sidecars were written to, the latest
first. -/
structure Sidecars where
  files : ContainerId → Option String
  written : List ContainerId

namespace Sidecars

/-- What is configured in a sidecar. A file that cannot be read counts as none. -/
def config? (s : Sidecars) (id : ContainerId) : Option Carrier.Config :=
  (s.files id).bind Carrier.Config.ofYaml?

def put (s : Sidecars) (id : ContainerId) (document : String) : Sidecars :=
  ⟨Function.update s.files id (some document), id :: s.written⟩

/-- Since `s` only sidecars with the property have been written to. -/
def WritesOnly (s s' : Sidecars) (P : ContainerId → Prop) : Prop :=
  ∃ w, s'.written = w ++ s.written ∧ ∀ id ∈ w, P id

variable {s s' : Sidecars} {id id' : ContainerId} {document : String} {c : Carrier.Config}

theorem config?_congr (h : s'.files id = s.files id) : s'.config? id = s.config? id := by
  unfold config?
  rw [h]

theorem config?_of_files (h : s.files id = some c.toYaml) : s.config? id = some c := by
  rw [config?, h, Option.bind_some, Carrier.Config.ofYaml?, Carrier.Config.parse_toYaml,
    Option.bind_some, Carrier.Config.read_toJson Yaml.mirrors_node]

@[simp] theorem files_put : (s.put id document).files id = some document := Function.update_self ..

theorem files_put_of_ne (h : id' ≠ id) : (s.put id document).files id' = s.files id' :=
  Function.update_of_ne h ..

theorem WritesOnly.refl (s : Sidecars) (P : ContainerId → Prop) : WritesOnly s s P :=
  ⟨[], rfl, fun _ => nofun⟩

theorem WritesOnly.of_put {P : ContainerId → Prop} (hid : P id)
    (h : WritesOnly (s.put id document) s' P) : WritesOnly s s' P := by
  obtain ⟨w, hw, hP⟩ := h
  refine ⟨w ++ [id], by rw [hw, List.append_assoc]; rfl, fun id' hid' => ?_⟩
  rcases List.mem_append.mp hid' with hid' | hid'
  · exact hP id' hid'
  · rw [List.mem_singleton.mp hid']
    exact hid

theorem WritesOnly.mono {P Q : ContainerId → Prop} (h : WritesOnly s s' P)
    (hPQ : ∀ id, P id → Q id) : WritesOnly s s' Q := by
  obtain ⟨w, hw, hP⟩ := h
  exact ⟨w, hw, fun id hid => hPQ id (hP id hid)⟩

end Sidecars

/-- The call is one of a sidecar. -/
def TargetCall.isSidecar : TargetCall → Bool
  | .readConfig _ | .applyConfig .. | .processAlive _ => true
  | _ => false

/-- A place where nothing changes but the files of its sidecars: what is answered to every other
call, and which of the processes are alive. -/
structure Site where
  answers : (c : TargetCall) → Answer c
  alive : ContainerId → Bool

namespace Site

variable (t : Site)

/-- How calls are answered as long as none fails. -/
def answer : (c : TargetCall) → Sidecars → Answer c × Sidecars
  | .readConfig id, s => (.ok (s.files id), s)
  | .applyConfig id document _, s => (.ok (), s.put id document)
  | .processAlive id, s => (.ok (t.alive id), s)
  | c, s => (t.answers c, s)

/-- How calls are answered if those of sidecars may fail, with or without effect. -/
def Serves : (c : TargetCall) → Sidecars → Answer c → Sidecars → Prop
  | .readConfig id, s, r, s' => s' = s ∧ ∀ v, r = .ok v → v = s.files id
  | .applyConfig id document _, s, r, s' => Settles (s.put id document) s r s'
  | .processAlive id, s, r, s' => s' = s ∧ ∀ v, r = .ok v → v = t.alive id
  | c, s, r, s' => s' = s ∧ r = t.answers c

variable {t} {s s' : Sidecars} {α : Type}

/-- Without calls of sidecars there is nothing that could fail. -/
theorem run_of_exec {p : Prog TargetCall α} {a : α} {Q : α → Unit → Prop}
    (hp : p.Keeps (fun _ c _ _ => c.isSidecar = false) () Q) (h : p.Exec t.Serves s a s') :
    p.run t.answer s = (a, s') := by
  induction h with
  | done => rfl
  | @call c next s s' s'' r a hserve _ ih =>
    obtain ⟨φ, hc, hnext⟩ := hp r
    have hanswer : t.answer c s = (r, s') := by
      cases c with
      | readConfig => cases hc
      | applyConfig => cases hc
      | processAlive => cases hc
      | _ =>
        obtain ⟨rfl, rfl⟩ := hserve
        rfl
    rw [Prog.run, hanswer]
    exact ih hnext

end Site

/-- What is gone on with after a first part that has succeeded. -/
theorem Attempt.run_ok {C σ α β : Type} [Calls C] {answer : (c : C) → σ → Answer c × σ}
    {x : Attempt C α} {f : α → Attempt C β} {a : α} {s s' : σ}
    (h : x.run.run answer s = (.ok a, s')) :
    (x >>= f).run.run answer s = (f a).run.run answer s' :=
  Prog.exec_run.mp (Attempt.exec_ok (Prog.exec_run.mpr h) (Prog.exec_run.mpr rfl))

namespace Site

variable {t : Site} {b : Binding} {pod : Pod} {s s' : Sidecars}

theorem exec_currentConfig {r : Except Error (Option Carrier.Config)}
    (h : (b.currentConfig pod).run.Exec t.Serves s r s') :
    s' = s ∧ ∀ v, r = .ok v → v = s.config? (b.sidecar pod) := by
  rcases Attempt.exec_bind.mp h with ⟨file, s₁, hread, hrest⟩ | ⟨e, hread, rfl⟩
  · obtain ⟨rfl, hfile⟩ := Prog.exec_perform.mp hread
    obtain ⟨rfl, rfl⟩ := Attempt.exec_pure.mp hrest
    refine ⟨rfl, fun v hv => ?_⟩
    cases hv
    rw [hfile file rfl]
    rfl
  · exact ⟨(Prog.exec_perform.mp hread).1, nofun⟩

theorem exec_publish_bind {n : Kube.Notice} {f : Unit → Work Unit} {r : Except Error Unit} :
    (Work.publish n >>= f).run.Exec t.Serves s r s' ↔ (f ()).run.Exec t.Serves s r s' := by
  refine Attempt.exec_always_bind.trans
    ⟨?_, fun h => ⟨(), s, Prog.exec_perform.mpr ⟨rfl, rfl⟩, h⟩⟩
  rintro ⟨told, s₁, htell, hrest⟩
  obtain ⟨rfl, -⟩ := Prog.exec_perform.mp htell
  exact hrest

end Site

/-- Which configuration a pod should get instead of the one it has; `none` if it may keep that. -/
abbrev Plan : Type := Pod → Option Carrier.Config → Option Carrier.Config

/-- A sweep over pods writes where the plan says so, until it fails at one of them. -/
inductive Sweeps (b : Binding) (plan : Plan) :
    List Pod → Sidecars → Except Error Unit → Sidecars → Prop
  | done (s : Sidecars) : Sweeps b plan [] s (.ok ()) s
  | keep {pod : Pod} {rest : List Pod} {s s' : Sidecars} {r : Except Error Unit}
      (hplan : plan pod (s.config? (b.sidecar pod)) = none) (hrest : Sweeps b plan rest s r s') :
      Sweeps b plan (pod :: rest) s r s'
  | write {pod : Pod} {rest : List Pod} {s s' : Sidecars} {r : Except Error Unit}
      {c : Carrier.Config} (hplan : plan pod (s.config? (b.sidecar pod)) = some c)
      (hrest : Sweeps b plan rest (s.put (b.sidecar pod) c.toYaml) r s') :
      Sweeps b plan (pod :: rest) s r s'
  | fail {pod : Pod} {rest : List Pod} {s s' : Sidecars} (e : Error)
      (h : s' = s ∨ ∃ c, plan pod (s.config? (b.sidecar pod)) = some c ∧
        s' = s.put (b.sidecar pod) c.toYaml) : Sweeps b plan (pod :: rest) s (.error e) s'

/-- The plan has been carried out in a pod. -/
def Carried (b : Binding) (plan : Plan) (s s' : Sidecars) (pod : Pod) : Prop :=
  s'.files (b.sidecar pod) =
    ((plan pod (s.config? (b.sidecar pod))).map (·.toYaml)).or (s.files (b.sidecar pod))

section

variable {b : Binding} {plan : Plan} {pod q : Pod} {pods rest : List Pod} {s s' : Sidecars}
  {r : Except Error Unit} {c : Carrier.Config} {document : String}

theorem Carried.config? (h : Carried b plan s s' pod) : s'.config? (b.sidecar pod) =
    (plan pod (s.config? (b.sidecar pod))).or (s.config? (b.sidecar pod)) := by
  unfold Carried at h
  cases hplan : plan pod (s.config? (b.sidecar pod)) with
  | none =>
    rw [hplan] at h
    exact Sidecars.config?_congr h
  | some c =>
    rw [hplan] at h
    exact Sidecars.config?_of_files h

theorem carried_of_put (hne : b.sidecar q ≠ b.sidecar pod)
    (h : Carried b plan (s.put (b.sidecar pod) document) s' q) : Carried b plan s s' q := by
  have hfiles : (s.put (b.sidecar pod) document).files (b.sidecar q) = s.files (b.sidecar q) :=
    Sidecars.files_put_of_ne hne
  unfold Carried at h ⊢
  rwa [Sidecars.config?_congr hfiles, hfiles] at h

theorem Binding.sidecar_ne (h : (List.map Pod.name (pod :: rest)).Nodup) (hq : q ∈ rest) :
    b.sidecar q ≠ b.sidecar pod := by
  intro heq
  obtain ⟨hpod, -⟩ := List.nodup_cons.mp h
  have hname : q.name = pod.name := congrArg ContainerId.pod heq
  exact hpod (hname ▸ List.mem_map_of_mem hq)

namespace Sweeps

/-- What is no sidecar of the pods keeps its file. -/
theorem files_of_ne (h : Sweeps b plan pods s r s') {id : ContainerId}
    (hid : ∀ pod ∈ pods, b.sidecar pod ≠ id) : s'.files id = s.files id := by
  induction h with
  | done => rfl
  | keep _ _ ih => exact ih fun pod hpod => hid pod (.tail _ hpod)
  | write _ _ ih =>
    rw [ih fun pod hpod => hid pod (.tail _ hpod)]
    exact Sidecars.files_put_of_ne (hid _ (.head _)).symm
  | fail e h =>
    rcases h with rfl | ⟨c, -, rfl⟩
    · rfl
    · exact Sidecars.files_put_of_ne (hid _ (.head _)).symm

theorem head_of_keep (hplan : plan pod (s.config? (b.sidecar pod)) = none)
    (hrest : Sweeps b plan rest s r s') (hnodup : (List.map Pod.name (pod :: rest)).Nodup) :
    Carried b plan s s' pod := by
  unfold Carried
  rw [hplan]
  exact hrest.files_of_ne fun q hq => Binding.sidecar_ne hnodup hq

theorem head_of_write (hplan : plan pod (s.config? (b.sidecar pod)) = some c)
    (hrest : Sweeps b plan rest (s.put (b.sidecar pod) c.toYaml) r s')
    (hnodup : (List.map Pod.name (pod :: rest)).Nodup) : Carried b plan s s' pod := by
  unfold Carried
  rw [hplan, hrest.files_of_ne fun q hq => Binding.sidecar_ne hnodup hq]
  exact Sidecars.files_put

/-- A sweep that succeeds carries the plan out in every pod. -/
theorem ok (h : Sweeps b plan pods s (.ok ()) s') (hnodup : (pods.map Pod.name).Nodup) :
    ∀ pod ∈ pods, Carried b plan s s' pod := by
  generalize hr : Except.ok () = r at h
  induction h with
  | done => exact fun _ => nofun
  | keep hplan hrest ih =>
    exact List.forall_mem_cons.mpr
      ⟨head_of_keep hplan hrest hnodup, ih (List.nodup_cons.mp hnodup).2 hr⟩
  | write hplan hrest ih =>
    refine List.forall_mem_cons.mpr ⟨head_of_write hplan hrest hnodup, fun q hq => ?_⟩
    exact carried_of_put (Binding.sidecar_ne hnodup hq) (ih (List.nodup_cons.mp hnodup).2 hr q hq)
  | fail => cases hr

/-- A sweep that fails has carried the plan out up to some pod, and not come any further. -/
theorem error {e : Error} (h : Sweeps b plan pods s (.error e) s')
    (hnodup : (pods.map Pod.name).Nodup) : ∃ before pod after, pods = before ++ pod :: after ∧
      (∀ q ∈ before, Carried b plan s s' q) ∧
      s.WritesOnly s' (fun id => ∃ q ∈ before ++ [pod], id = b.sidecar q) ∧
      ∀ q ∈ after, s'.files (b.sidecar q) = s.files (b.sidecar q) := by
  generalize hr : Except.error e = r at h
  induction h with
  | done => cases hr
  | @keep pod rest s s' r hplan hrest ih =>
    obtain ⟨before, at', after, rfl, hbefore, hwrites, hafter⟩ :=
      ih (List.nodup_cons.mp hnodup).2 hr
    refine ⟨pod :: before, at', after, rfl,
      List.forall_mem_cons.mpr ⟨head_of_keep hplan hrest hnodup, hbefore⟩, hwrites.mono ?_, hafter⟩
    rintro id ⟨q, hq, hid⟩
    exact ⟨q, .tail _ hq, hid⟩
  | @write pod rest s s' r c hplan hrest ih =>
    obtain ⟨before, at', after, rfl, hbefore, hwrites, hafter⟩ :=
      ih (List.nodup_cons.mp hnodup).2 hr
    have hne : ∀ q ∈ before ++ at' :: after, b.sidecar q ≠ b.sidecar pod :=
      fun q hq => Binding.sidecar_ne hnodup hq
    refine ⟨pod :: before, at', after, rfl, List.forall_mem_cons.mpr
      ⟨head_of_write hplan hrest hnodup, fun q hq => ?_⟩,
      .of_put ⟨pod, .head _, rfl⟩ (hwrites.mono ?_), fun q hq => ?_⟩
    · exact carried_of_put (hne q (List.mem_append_left _ hq)) (hbefore q hq)
    · rintro id ⟨q, hq, hid⟩
      exact ⟨q, .tail _ hq, hid⟩
    · rw [hafter q hq]
      exact Sidecars.files_put_of_ne (hne q (List.mem_append_right _ (.tail _ hq)))
  | @fail pod rest s s' e' h =>
    refine ⟨[], pod, rest, rfl, fun _ => nofun, ?_, fun q hq => ?_⟩
    · rcases h with rfl | ⟨c, -, rfl⟩
      · exact .refl _ _
      · exact .of_put ⟨pod, .head _, rfl⟩ (.refl _ _)
    · rcases h with rfl | ⟨c, -, rfl⟩
      · rfl
      · exact Sidecars.files_put_of_ne (Binding.sidecar_ne hnodup hq)

/-- However it ends, a sweep leaves a pod as it was or as planned. -/
theorem each (h : Sweeps b plan pods s r s') (hnodup : (pods.map Pod.name).Nodup) :
    ∀ pod ∈ pods, s'.files (b.sidecar pod) = s.files (b.sidecar pod) ∨
      Carried b plan s s' pod := by
  induction h with
  | done => exact fun _ => nofun
  | keep hplan hrest ih =>
    exact List.forall_mem_cons.mpr
      ⟨.inr (head_of_keep hplan hrest hnodup), ih (List.nodup_cons.mp hnodup).2⟩
  | write hplan hrest ih =>
    refine List.forall_mem_cons.mpr ⟨.inr (head_of_write hplan hrest hnodup), fun q hq => ?_⟩
    have hne := Binding.sidecar_ne (b := b) hnodup hq
    rcases ih (List.nodup_cons.mp hnodup).2 q hq with hfile | hcarried
    · exact .inl (hfile.trans (Sidecars.files_put_of_ne hne))
    · exact .inr (carried_of_put hne hcarried)
  | @fail pod rest s s' e h =>
    refine List.forall_mem_cons.mpr ⟨?_, fun q hq => .inl ?_⟩
    · rcases h with rfl | ⟨c, hplan, rfl⟩
      · exact .inl rfl
      · refine .inr ?_
        unfold Carried
        rw [hplan]
        exact Sidecars.files_put
    · rcases h with rfl | ⟨c, -, rfl⟩
      · rfl
      · exact Sidecars.files_put_of_ne (Binding.sidecar_ne hnodup hq)

/-- Where nothing is planned nothing is written. -/
theorem idle (h : Sweeps b plan pods s r s')
    (hplan : ∀ pod ∈ pods, plan pod (s.config? (b.sidecar pod)) = none) : s' = s := by
  induction h with
  | done => rfl
  | keep _ _ ih => exact ih fun pod hpod => hplan pod (.tail _ hpod)
  | write hsome =>
    rw [hplan _ (.head _)] at hsome
    cases hsome
  | fail e h =>
    rcases h with rfl | ⟨c, hsome, -⟩
    · rfl
    · rw [hplan _ (.head _)] at hsome
      cases hsome

end Sweeps

end

end BridgeOperator
