import BridgeOperator.Proofs.Pass.Conformance
import BridgeOperator.Proofs.World.Basic

/-!
Runs of any number of passes against one world. Passes of different bridges overlap as they like,
call by call, and between the calls bridges come, are edited and go. A run is the same whether its
passes are taken as the programs they are or as they stand in the table of passes
(`Run.tabulated`), so what is proved from the table holds of the programs.
-/

namespace BridgeOperator

open Kube (Metadata)

/-- How passes proceed: where the pass over a bridge begins, and where a call and its answer
lead. -/
structure Machine where
  State : Type
  opens : Bridge → State
  goes : Bridge → State → (c : BridgeCall) → Answer c → State → Prop

namespace Machine

/-- What is left to do of a program after a call. -/
inductive Next {α : Type} :
    Prog BridgeCall α → (c : BridgeCall) → Answer c → Prog BridgeCall α → Prop
  | call (c : BridgeCall) (next : Answer c → Prog BridgeCall α) (r : Answer c) :
    Next (.call c next) c r (next r)

/-- Passes as programs. -/
abbrev programs (ctx : BridgeContext) : Machine where
  State := Prog BridgeCall (Except Error Action)
  opens b := (b.reconcile ctx).run
  goes _ := Next

/-- Passes by the table of what they may do. -/
def table (ctx : BridgeContext) : Machine where
  State := BridgePass.Moment
  opens b := ⟨(BridgePass.ofBridge ctx b).entry, none⟩
  goes b := BridgePass.Does (BridgePass.ofBridge ctx b)

end Machine

/-- A world with passes in flight, each over the bridge as it was stored when the pass began. -/
structure Scene (m : Machine) where
  world : World
  passes : Address → Option (Bridge × m.State)

namespace Scene

def quiet (m : Machine) (w : World) : Scene m := ⟨w, fun _ => none⟩

/-- The bridges that are passed over. -/
def bridges {m : Machine} (s : Scene m) (a : Address) : Option Bridge := (s.passes a).map (·.1)

end Scene

inductive Event where
  | created (b : Bridge)
  | edited (a : Address) (spec : BridgeSpec)
  | amended (a : Address) (metadata : Metadata)
  | vanished (a : Address)
  | began (a : Address)
  | answered (a : Address) (c : BridgeCall) (r : Answer c)
  /-- A pass is through, or the operator stops in the middle of it. -/
  | ended (a : Address)

/-- What never changes about an object. -/
structure Kube.Metadata.SameObject (m m' : Metadata) : Prop where
  name : m'.name = m.name
  generateName : m'.generateName = m.generateName
  namespaceName : m'.namespaceName = m.namespaceName
  uid : m'.uid = m.uid
  creationTimestamp : m'.creationTimestamp = m.creationTimestamp

/-- The bridge is none that was seen before. -/
structure World.Fresh (w : World) (b : Bridge) : Prop where
  vacant : w.store b.address = none
  uid : ∀ a c u, w.store a = some c → c.metadata.uid = some u → b.metadata.uid ≠ some u
  writer : ∀ f, w.estate f ≠ some b.writer

/-- One event. -/
inductive Step (m : Machine) : Scene m → Event → Scene m → Prop
  | create {s : Scene m} {b : Bridge} :
    s.world.Fresh b → s.passes b.address = none → b.status = none →
    Step m s (.created b)
      { s with world.store := Function.update s.world.store b.address (some b) }
  | edit {s : Scene m} {a : Address} {spec : BridgeSpec} :
    Step m s (.edited a spec) { s with world := s.world.modify a fun b => some { b with spec } }
  | amend {s : Scene m} {a : Address} {b : Bridge} {metadata : Metadata} :
    s.world.store a = some b → b.metadata.SameObject metadata →
    Step m s (.amended a metadata)
      { s with world := s.world.modify a fun b => some { b with metadata } }
  | vanish {s : Scene m} {a : Address} :
    Step m s (.vanished a) { s with world := s.world.modify a fun _ => none }
  | take {s : Scene m} {a : Address} {b : Bridge} :
    s.world.store a = some b → s.passes a = none →
    Step m s (.began a) { s with passes := Function.update s.passes a (some (b, m.opens b)) }
  | answer {s : Scene m} {a : Address} {b : Bridge} {p p' : m.State} {c : BridgeCall}
      {r : Answer c} {w : World} :
    s.passes a = some (b, p) → m.goes b p c r p' → s.world.Serves b c r w →
    Step m s (.answered a c r) ⟨w, Function.update s.passes a (some (b, p'))⟩
  | leave {s : Scene m} {a : Address} :
    Step m s (.ended a) { s with passes := Function.update s.passes a none }

/-- What an event found and what it left. -/
structure Move where
  before : World
  /-- The bridges that were passed over. -/
  passes : Address → Option Bridge
  event : Event
  after : World

/-- Which events may happen. -/
abbrev Rule : Type := World → (Address → Option Bridge) → Event → Prop

/-- A run by a rule from a world without passes in flight; the newest move stands first. -/
inductive Run (m : Machine) (rule : Rule) (start : World) : List Move → Scene m → Prop
  | start : Run m rule start [] (.quiet m start)
  | move {trail : List Move} {s s' : Scene m} {e : Event} :
    Run m rule start trail s → rule s.world s.bridges e → Step m s e s' →
    Run m rule start (⟨s.world, s.bridges, e, s'.world⟩ :: trail) s'

/-- The move that an event makes. -/
def Move.of {m : Machine} (s : Scene m) (e : Event) (s' : Scene m) : Move :=
  ⟨s.world, s.bridges, e, s'.world⟩

namespace Run

variable {m : Machine} {rule : Rule} {start : World} {trail : List Move} {s : Scene m}

/-- Every move was made in the course of the run. -/
theorem of_mem (h : Run m rule start trail s) {mv : Move} (hmv : mv ∈ trail) :
    ∃ rest s₀ e s₁, Run m rule start rest s₀ ∧ (∀ m ∈ rest, m ∈ trail) ∧
      rule s₀.world s₀.bridges e ∧ Step m s₀ e s₁ ∧ mv = .of s₀ e s₁ := by
  induction h with
  | start => cases hmv
  | @move rest s₀ s₁ e hrun hrule hstep ih =>
    rcases List.mem_cons.mp hmv with rfl | hmv
    · exact ⟨rest, s₀, e, s₁, hrun, fun _ => .tail _, hrule, hstep, rfl⟩
    · obtain ⟨rest', s₂, e', s₃, hrun', hsub, h⟩ := ih hmv
      exact ⟨rest', s₂, e', s₃, hrun', fun m hm => .tail _ (hsub m hm), h⟩

/-- What happens by a rule happens by every rule that allows more. -/
theorem mono {rule' : Rule} (h : Run m rule start trail s)
    (hrule : ∀ w passes e, rule w passes e → rule' w passes e) : Run m rule' start trail s := by
  induction h with
  | start => exact .start
  | move _ hallowed hstep ih => exact .move ih (hrule _ _ _ hallowed) hstep

section

variable {P : World → Prop} {bad : Move → Prop} (hstart : P start)
  (hkeep : ∀ {rest s e s'}, Run m rule start rest s → rule s.world s.bridges e →
    Step m s e s' → P s.world → ¬ bad (.of s e s') → P s'.world)

include hstart hkeep

/-- A property of worlds that only a bad move can break. -/
theorem keeps (h : Run m rule start trail s) (hnone : ∀ mv ∈ trail, ¬ bad mv) : P s.world := by
  induction h with
  | start => exact hstart
  | move hrun hrule hstep ih =>
    exact hkeep hrun hrule hstep (ih fun mv hmv => hnone mv (.tail _ hmv)) (hnone _ (.head _))

/-- If every bad move breaks it, then it holds throughout exactly if there is none. -/
theorem throughout_iff (h : Run m rule start trail s)
    (hbreak : ∀ {rest s e s'}, Run m rule start rest s → rule s.world s.bridges e →
      Step m s e s' → bad (.of s e s') → ¬ P s'.world) :
    (∀ mv ∈ trail, P mv.after) ↔ ∀ mv ∈ trail, ¬ bad mv := by
  constructor
  · intro hall mv hmv
    obtain ⟨rest, s₀, e, s₁, hrun, -, hrule, hstep, rfl⟩ := h.of_mem hmv
    exact fun hbad => hbreak hrun hrule hstep hbad (hall _ hmv)
  · intro hnone mv hmv
    obtain ⟨rest, s₀, e, s₁, hrun, hsub, hrule, hstep, rfl⟩ := h.of_mem hmv
    refine keeps hstart hkeep (.move hrun hrule hstep) fun mv' hmv' => ?_
    rcases List.mem_cons.mp hmv' with rfl | hmv'
    · exact hnone _ hmv
    · exact hnone _ (hsub _ hmv')

end

end Run

namespace Scene

variable {ctx : BridgeContext}

/-- Every program that runs has its place in the table. -/
structure Tabulates (s : Scene (.programs ctx)) (t : Scene (.table ctx)) : Prop where
  world : t.world = s.world
  bridges : t.bridges = s.bridges
  keeps : ∀ {a b p φ}, s.passes a = some (b, p) → t.passes a = some (b, φ) →
    p.Keeps (BridgePass.Does (BridgePass.ofBridge ctx b)) φ BridgePass.Ends

variable {s : Scene (.programs ctx)} {t : Scene (.table ctx)} {a : Address}

theorem bridges_eq_none {m : Machine} {s : Scene m} : s.bridges a = none ↔ s.passes a = none := by
  simp [bridges]

theorem bridges_eq_some {m : Machine} {s : Scene m} {b : Bridge} :
    s.bridges a = some b ↔ ∃ p, s.passes a = some (b, p) := by
  simp [bridges]

theorem bridges_update {m : Machine} {s : Scene m} {w : World} {p : Option (Bridge × m.State)} :
    (⟨w, Function.update s.passes a p⟩ : Scene m).bridges =
      Function.update s.bridges a (p.map (·.1)) := by
  funext a'
  by_cases h : a' = a
  · subst h
    simp [bridges]
  · simp [bridges, h]

/-- A place in the table for every program at the other addresses is enough. -/
theorem Tabulates.put (h : s.Tabulates t) (w : World)
    {p : Option (Bridge × (Machine.programs ctx).State)}
    {φ : Option (Bridge × (Machine.table ctx).State)} (hsame : p.map (·.1) = φ.map (·.1))
    (hk : ∀ {b q m}, p = some (b, q) → φ = some (b, m) →
      Prog.Keeps (BridgePass.Does (BridgePass.ofBridge ctx b)) q m BridgePass.Ends) :
    @Tabulates ctx ⟨w, Function.update s.passes a p⟩ ⟨w, Function.update t.passes a φ⟩ where
  world := rfl
  bridges := by rw [bridges_update, bridges_update, h.bridges, hsame]
  keeps := by
    intro a' b' q m hp hφ
    by_cases ha : a' = a
    · subst ha
      simp only [Function.update_self] at hp hφ
      exact hk hp hφ
    · simp only [Function.update_of_ne ha] at hp hφ
      exact h.keeps hp hφ

theorem Tabulates.update (h : s.Tabulates t) (w : World) {b : Bridge}
    {p : Prog BridgeCall (Except Error Action)} {φ : BridgePass.Moment}
    (hk : p.Keeps (BridgePass.Does (BridgePass.ofBridge ctx b)) φ BridgePass.Ends) :
    @Tabulates ctx ⟨w, Function.update s.passes a (some (b, p))⟩
      ⟨w, Function.update t.passes a (some (b, φ))⟩ := by
  refine h.put w rfl ?_
  rintro _ _ _ ⟨⟩ ⟨⟩
  exact hk

/-- Events that are not about passes leave all of them where they are. -/
theorem Tabulates.outside (h : s.Tabulates t) (w : World) :
    @Tabulates ctx ⟨w, s.passes⟩ ⟨w, t.passes⟩ where
  world := rfl
  bridges := h.bridges
  keeps := h.keeps

theorem Tabulates.remove (h : s.Tabulates t) (a : Address) :
    @Tabulates ctx ⟨s.world, Function.update s.passes a none⟩
      ⟨s.world, Function.update t.passes a none⟩ :=
  h.put s.world rfl fun hp _ => nomatch hp

theorem tabulates_quiet (w : World) :
    @Tabulates ctx (.quiet _ w) (.quiet _ w) where
  world := rfl
  bridges := rfl
  keeps := by
    intro a b p φ hp
    cases hp

end Scene

/-- What a scene of programs does, its place in the table does too. -/
theorem Step.tabulated {ctx : BridgeContext} {s s' : Scene (.programs ctx)}
    {t : Scene (.table ctx)} {e : Event} (h : Step (.programs ctx) s e s') (ht : s.Tabulates t) :
    ∃ t', Step (.table ctx) t e t' ∧ s'.Tabulates t' := by
  obtain ⟨w, passes⟩ := t
  obtain rfl : w = s.world := ht.world
  have hnone : ∀ a, s.passes a = none → passes a = none := by
    intro a ha
    rw [← Scene.bridges_eq_none, ← ht.bridges, Scene.bridges_eq_none] at ha
    exact ha
  cases h with
  | create hf hp hs => exact ⟨_, .create hf (hnone _ hp) hs, ht.outside _⟩
  | edit => exact ⟨_, .edit, ht.outside _⟩
  | amend hb hm => exact ⟨_, .amend hb hm, ht.outside _⟩
  | vanish => exact ⟨_, .vanish, ht.outside _⟩
  | @take a b hb hp =>
    exact ⟨_, .take hb (hnone _ hp), ht.update s.world (BridgePass.reconcile_keeps b ctx)⟩
  | @answer a b p p' c r w' hp hgo hserve =>
    obtain ⟨φ, hφ⟩ : ∃ φ, passes a = some (b, φ) := by
      have hb : s.bridges a = some b := Scene.bridges_eq_some.mpr ⟨p, hp⟩
      rw [← ht.bridges] at hb
      exact Scene.bridges_eq_some.mp hb
    have hk := ht.keeps hp hφ
    -- the program keeps to the table, so the table has a place for the answer
    cases hgo with
    | call c next r =>
      obtain ⟨φ', hdoes, hnext⟩ := hk r
      exact ⟨_, .answer hφ hdoes hserve, ht.update w' hnext⟩
  | leave => exact ⟨_, .leave, ht.remove _⟩

/-- A run of programs is a run by the table, with the same moves. -/
theorem Run.tabulated {ctx : BridgeContext} {rule : Rule} {start : World} {trail : List Move}
    {s : Scene (.programs ctx)} (h : Run (.programs ctx) rule start trail s) :
    ∃ t, Run (.table ctx) rule start trail t ∧ s.Tabulates t := by
  induction h with
  | start => exact ⟨_, .start, Scene.tabulates_quiet start⟩
  | move hrun hrule hstep ih =>
    obtain ⟨t, ht, htab⟩ := ih
    obtain ⟨t', hstep', htab'⟩ := hstep.tabulated htab
    refine ⟨t', ?_, htab'⟩
    rw [← htab.world, ← htab.bridges] at hrule ⊢
    rw [← htab'.world]
    exact .move ht hrule hstep'

end BridgeOperator
