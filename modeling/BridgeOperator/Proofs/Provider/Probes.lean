import BridgeOperator.Proofs.Provider.Listeners
import BridgeOperator.Proofs.Provider.Upstreams

/-!
Which probes a sidecar answers. The kubelet sends its HTTP probes to ports that a container gives by
number or by name, and finds a name among the ports that the container declares. The configuration
lists the numbers alone, so a probe by name is answered only if another one gives the same port by
number (`answers_iff_none_overlooked`).
-/

namespace BridgeOperator

open Kube (Container Pod PortRef)

namespace Kube.Container

variable {c : Container} {r : PortRef} {p : UInt16}

/-- The ports of the HTTP probes, as the container gives them. -/
def probeRefs (c : Container) : List PortRef :=
  [c.livenessProbe, c.readinessProbe, c.startupProbe].filterMap
    fun p? => (p?.bind (·.httpGet)).map (·.port)

/-- The number of a port. A name is that of the first declared port that bears it. -/
def resolve? (c : Container) : PortRef → Option Int32
  | .number n => some n
  | .named name => ((c.ports.getD []).find? fun d => d.name = some name).map (·.containerPort)

/-- The cluster takes a probe at this port: its number is from 1 to 65535, or it is the name of a
declared port. -/
inductive Admits (c : Container) : PortRef → Prop
  | number {n : Int32} : 1 ≤ n.toInt → n.toInt ≤ 65535 → Admits c (.number n)
  | named {name : String} {d : ContainerPort} : d ∈ c.ports.getD [] → d.name = some name →
    Admits c (.named name)

/-- The reference leads to the port. -/
def LeadsTo (c : Container) (r : PortRef) (p : UInt16) : Prop :=
  ∃ n, c.resolve? r = some n ∧ n.toInt = p.toNat

/-- The kubelet sends HTTP probes to the port. -/
def Probed (c : Container) (p : UInt16) : Prop := ∃ r ∈ c.probeRefs, c.LeadsTo r p

/-- An HTTP probe gives the port by number. -/
def Numbered (c : Container) (p : UInt16) : Prop :=
  ∃ n : Int32, PortRef.number n ∈ c.probeRefs ∧ n.toInt = p.toNat

/-- An HTTP probe gives the port by name, and none gives it by number. -/
def Overlooked (c : Container) (p : UInt16) : Prop :=
  (∃ name, PortRef.named name ∈ c.probeRefs ∧ c.LeadsTo (.named name) p) ∧ ¬ c.Numbered p

theorem leadsTo_number {n : Int32} : c.LeadsTo (.number n) p ↔ n.toInt = p.toNat := by
  simp [LeadsTo, resolve?]

theorem Numbered.probed (h : c.Numbered p) : c.Probed p := by
  obtain ⟨n, hn, hp⟩ := h
  exact ⟨_, hn, leadsTo_number.mpr hp⟩

/-- What is overlooked is all that is probed and has no probe by number. -/
theorem overlooked_iff : c.Overlooked p ↔ c.Probed p ∧ ¬ c.Numbered p := by
  refine and_congr_left fun hnot => ?_
  constructor
  · rintro ⟨name, hname, hp⟩
    exact ⟨_, hname, hp⟩
  · rintro ⟨r, hr, hp⟩
    cases r with
    | number n => exact absurd ⟨n, hr, leadsTo_number.mp hp⟩ hnot
    | named name => exact ⟨name, hr, hp⟩

end Kube.Container

/-! ## The list of a configuration -/

/-- The number of a port that can be listed. -/
def Kube.PortRef.listed? : PortRef → Option ℕ
  | .number n => if 0 ≤ n.toInt ∧ n.toInt < 65536 then some n.toInt.toNat else none
  | .named _ => none

section

variable {c : Container} {p : UInt16}

theorem httpProbePorts_eq : httpProbePorts c =
    ((c.probeRefs.filterMap (·.listed?)).mergeSort.eraseDups).map UInt16.ofNat := by
  have hrefs : c.probeRefs.filterMap (·.listed?) =
      [c.livenessProbe, c.readinessProbe, c.startupProbe].filterMap fun p? =>
        ((p?.bind (·.httpGet)).map (·.port)).bind (·.listed?) := List.filterMap_filterMap
  rw [hrefs]
  refine congrArg (fun ports : List ℕ => ports.mergeSort.eraseDups.map UInt16.ofNat)
    (congrArg (List.filterMap · _) (funext fun p? => ?_))
  rcases p? with _ | ⟨_ | ⟨_ | _⟩⟩ <;> rfl

theorem listed_eq_some {r : PortRef} {n : ℕ} :
    r.listed? = some n ↔ n < 65536 ∧ ∃ i : Int32, r = .number i ∧ i.toInt = n := by
  cases r with
  | named name => simp [PortRef.listed?]
  | number i =>
    unfold PortRef.listed?
    simp only [PortRef.number.injEq, exists_eq_left']
    split
    · rw [Option.some.injEq]
      omega
    · simp only [reduceCtorEq, false_iff]
      omega

/-- As numbers, the ports of the list are those that probes give by number. -/
theorem toNat_httpProbePorts : (httpProbePorts c).map (·.toNat) =
    (c.probeRefs.filterMap (·.listed?)).mergeSort.eraseDups := by
  rw [httpProbePorts_eq, List.map_map]
  refine (List.map_congr_left fun n hn => ?_).trans (List.map_id _)
  rw [List.mem_eraseDups, List.mem_mergeSort, List.mem_filterMap] at hn
  obtain ⟨r, -, hr⟩ := hn
  exact UInt16.toNat_ofNat_of_lt' (listed_eq_some.mp hr).1

theorem mem_httpProbePorts : p ∈ httpProbePorts c ↔ c.Numbered p := by
  rw [← List.mem_map_of_injective fun _ _ => UInt16.toNat_inj.mp, toNat_httpProbePorts,
    List.mem_eraseDups, List.mem_mergeSort, List.mem_filterMap]
  constructor
  · rintro ⟨r, hr, hp⟩
    obtain ⟨-, n, rfl, hn⟩ := listed_eq_some.mp hp
    exact ⟨n, hr, hn⟩
  · rintro ⟨n, hn, hp⟩
    exact ⟨_, hn, listed_eq_some.mpr ⟨p.toNat_lt, n, rfl, hp⟩⟩

theorem ascending_httpProbePorts (c : Container) : (httpProbePorts c).Pairwise (· < ·) := by
  have hascending := ascending_eraseDups
    (List.pairwise_mergeSort' (· ≤ ·) (c.probeRefs.filterMap (·.listed?)))
  rw [← toNat_httpProbePorts, List.pairwise_map] at hascending
  exact hascending

end

namespace Carrier.Config

variable {c : Config} {P Q : UInt16 → Prop}

def probePorts (c : Config) : List UInt16 := c.probes.getD []

/-- The sidecar answers HTTP probes at these ports. Each is listed once, in ascending order, and the
list is left out if there are none. -/
structure Answers (c : Config) (P : UInt16 → Prop) : Prop where
  listed : ∀ p, p ∈ c.probePorts ↔ P p
  ascending : c.probePorts.Pairwise (· < ·)
  absent : c.probes = none ↔ ∀ p, ¬ P p

theorem Answers.congr (h : c.Answers P) (hPQ : ∀ p, P p ↔ Q p) : c.Answers Q := by
  obtain rfl : P = Q := funext fun p => propext (hPQ p)
  exact h

end Carrier.Config

/-- What is rendered for a pod answers the probes that give their port by number. -/
theorem Binding.answers_renderConfig {b : Binding} {pod : Pod} {address : String}
    {container : Container} (haddress : pod.status.bind (·.podIP) = some address)
    (hcontainer : pod.container? b.container = some container) :
    ∃ c, b.renderConfig pod = .ok c ∧ c.Answers container.Numbered := by
  unfold renderConfig
  rw [haddress, hcontainer]
  refine ⟨_, rfl, ?_⟩
  by_cases hnone : httpProbePorts container = []
  · have hno : ∀ p, ¬ container.Numbered p := fun p hp => by
      rw [← mem_httpProbePorts, hnone] at hp
      cases hp
    simp only [hnone, List.isEmpty_nil, if_true]
    exact ⟨fun p => ⟨nofun, fun hp => absurd hp (hno p)⟩, .nil, fun _ => hno, fun _ => rfl⟩
  · have hsome : (httpProbePorts container).isEmpty = false := List.isEmpty_eq_false_iff.mpr hnone
    simp only [hsome, Bool.false_eq_true, if_false]
    refine ⟨fun p => mem_httpProbePorts, ascending_httpProbePorts container, nofun, fun hno => ?_⟩
    obtain ⟨p, hp⟩ := List.exists_mem_of_ne_nil _ hnone
    exact absurd (mem_httpProbePorts.mp hp) (hno p)

/-- **A sidecar answers every HTTP probe of its container unless one is overlooked.** The list has
the ports that probes give by number, in order and each once, and is left out if there are none.
What it lacks of the ports that the kubelet probes is exactly what probes give by name alone. -/
theorem answers_iff_none_overlooked {b : Binding} {pod : Pod} {address : String}
    {container : Container} (haddress : pod.status.bind (·.podIP) = some address)
    (hcontainer : pod.container? b.container = some container) :
    ∃ c, b.renderConfig pod = .ok c ∧ c.Answers container.Numbered ∧
      (∀ p, container.Probed p ∧ p ∉ c.probePorts ↔ container.Overlooked p) ∧
      (c.Answers container.Probed ↔ ∀ p, ¬ container.Overlooked p) := by
  obtain ⟨c, hc, hanswers⟩ := Binding.answers_renderConfig haddress hcontainer
  refine ⟨c, hc, hanswers, fun p => ?_, fun hall p hover => ?_, fun hnone => ?_⟩
  · rw [hanswers.listed, Container.overlooked_iff]
  · obtain ⟨hprobed, hnot⟩ := Container.overlooked_iff.mp hover
    exact hnot ((hanswers.listed p).mp ((hall.listed p).mpr hprobed))
  · refine hanswers.congr fun p => ⟨Container.Numbered.probed, fun hprobed => ?_⟩
    exact Classical.not_not.mp fun hnot => hnone p (Container.overlooked_iff.mpr ⟨hprobed, hnot⟩)

namespace Sample

/-- A container with a port `http` and probes at these ports. -/
def serving (liveness readiness : Option PortRef) : Container where
  name := "app"
  image := none
  command := none
  args := none
  ports := some [⟨8080, some "http", []⟩]
  livenessProbe := liveness.map fun port => ⟨some ⟨port, []⟩, []⟩
  readinessProbe := readiness.map fun port => ⟨some ⟨port, []⟩, []⟩
  startupProbe := none
  other := []

/-- A pod of the shop with this container. -/
def podOf (container : Container) : Pod where
  metadata := .empty
  spec := some ⟨[container], []⟩
  status := some ⟨none, some "10.0.0.7", none, []⟩

theorem none_overlooked (p : UInt16) :
    ¬ (serving (some (.named "http")) (some (.number 8080))).Overlooked p := by
  rintro ⟨⟨name, hname, n, hn, hp⟩, hnot⟩
  obtain rfl : name = "http" := by simpa [Container.probeRefs, serving] using hname
  obtain rfl : 8080 = n := Option.some.inj hn
  exact hnot ⟨8080, by simp [Container.probeRefs, serving], hp⟩

theorem probeRefs_named : (serving none (some (.named "http"))).probeRefs = [.named "http"] := rfl

/-- The kubelet finds the port by its name. -/
theorem probed_named : (serving none (some (.named "http"))).Probed 8080 :=
  ⟨.named "http", by simp [probeRefs_named], 8080, rfl, rfl⟩

theorem not_numbered_named : ¬ (serving none (some (.named "http"))).Numbered 8080 := by
  rintro ⟨n, hn, -⟩
  simp [probeRefs_named] at hn

end Sample

open Sample

theorem answers_iff_none_overlooked_http : ∃ c,
    (binding mapped "shop").renderConfig
      (podOf (serving (some (.named "http")) (some (.number 8080)))) = .ok c ∧
    c.Answers (serving (some (.named "http")) (some (.number 8080))).Probed := by
  let container := serving (some (.named "http")) (some (.number 8080))
  have haddress : (podOf container).status.bind (·.podIP) = some "10.0.0.7" := rfl
  have hcontainer : (podOf container).container? (binding mapped "shop").container =
      some container := rfl
  obtain ⟨c, hc, -, -, hall⟩ := answers_iff_none_overlooked haddress hcontainer
  exact ⟨c, hc, hall.mpr none_overlooked⟩

/-- A port that is probed by its name is not answered. -/
theorem not_always_answered : ¬ ∀ (b : Binding) (pod : Pod) address container,
    pod.status.bind (·.podIP) = some address → pod.container? b.container = some container →
      (∀ r ∈ container.probeRefs, container.Admits r) →
        ∀ c, b.renderConfig pod = .ok c → c.Answers container.Probed := by
  intro hall
  let container := serving none (some (.named "http"))
  have haddress : (podOf container).status.bind (·.podIP) = some "10.0.0.7" := rfl
  have hcontainer : (podOf container).container? (binding mapped "shop").container =
      some container := rfl
  have hadmits : ∀ r ∈ container.probeRefs, container.Admits r := by
    intro r hr
    obtain rfl : r = .named "http" := List.mem_singleton.mp hr
    exact .named (.head _) rfl
  obtain ⟨c, hc, hanswers⟩ := Binding.answers_renderConfig haddress hcontainer
  have hlisted := (hall _ _ _ _ haddress hcontainer hadmits c hc).listed 8080
  exact not_numbered_named ((hanswers.listed 8080).mp (hlisted.mpr probed_named))

end BridgeOperator
