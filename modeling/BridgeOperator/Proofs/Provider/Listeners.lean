import BridgeOperator.Proofs.Provider.Limits

/-!
Who listens on which port. What serves a bridge is made from one list of mappings three times: the
configuration of a sidecar, that of a copy, and the service in front of the copy. A list that has
been accepted gives each of them one listener for each mapping (`Binding.Listens`,
`Kube.Service.Fronts`), and each listener leads to the local port of its own mapping.
-/

namespace BridgeOperator

open Kube (Container Controller Pod Service ServicePort Workload WorkloadSpec)

namespace Binding

variable {b : Binding} {m : PortMapping} {mappings : List PortMapping} {c : Carrier.Config}
  {pod : Pod} {address : String}

/-! ## Where traffic goes -/

/-- The host that traffic of a mapping goes to. -/
def host (b : Binding) (m : PortMapping) : String :=
  b.parameters.destination.getD
    (Kube.serviceFqdn s!"gefyra-stowaway-proxy-{m.localPort.toNat}" b.config.namespaceName)

theorem endpoint_eq (b : Binding) (m : PortMapping) :
    b.endpoint m = s!"{b.host m}:{m.localPort.toNat}" := by
  unfold endpoint host
  cases b.parameters.destination <;> rfl

/-- Traffic that the bridge takes at the proxy goes to the local port of the mapping. -/
def Intercepts (b : Binding) (m : PortMapping) (p : Carrier.Proxy) : Prop :=
  ∃ route, p.bridges.toList = [(b.bridge, route)] ∧
    route.endpoint = s!"{b.host m}:{m.localPort.toNat}"

/-- All traffic of the proxy goes to the local port of the mapping. -/
def Relays (b : Binding) (m : PortMapping) (p : Carrier.Proxy) : Prop :=
  p.upstreams = some [s!"{b.host m}:{m.localPort.toNat}"] ∧ p.bridges = ∅

/-! ## Configurations -/

/-- There is a proxy for each mapping, in their order. Each listens on the container port of its
mapping and forwards as it should, and no two of them listen on the same port. -/
structure Listens (mappings : List PortMapping) (c : Carrier.Config)
    (forwards : PortMapping → Carrier.Proxy → Prop) : Prop where
  each : List.Forall₂ (fun m p => p.port = some m.containerPort ∧ forwards m p) mappings c.proxies
  distinct : (c.proxies.map (·.port)).Nodup
  nonzero : ∀ p ∈ c.proxies, p.port ≠ some 0

/-- Proxies made one by one from mappings in order. -/
theorem listens_of_map {forwards : PortMapping → Carrier.Proxy → Prop}
    {proxy : PortMapping → Carrier.Proxy} (hproxies : c.proxies = mappings.map proxy)
    (hport : ∀ m, (proxy m).port = some m.containerPort)
    (hforwards : ∀ m ∈ mappings, forwards m (proxy m))
    (hnonzero : ∀ m ∈ mappings, m.containerPort ≠ 0)
    (hdistinct : (mappings.map (·.containerPort)).Nodup) : Listens mappings c forwards where
  each := by
    rw [hproxies, List.forall₂_map_right_iff, List.forall₂_same]
    exact fun m hm => ⟨hport m, hforwards m hm⟩
  distinct := by
    have hports : c.proxies.map (·.port) = (mappings.map (·.containerPort)).map some := by
      rw [hproxies, List.map_map, List.map_map]
      exact List.map_congr_left fun m _ => hport m
    rw [hports]
    exact hdistinct.map (Option.some_injective _)
  nonzero := by
    rw [hproxies, List.forall_mem_map]
    intro m hm hzero
    rw [hport] at hzero
    exact hnonzero m hm (Option.some.inj hzero)

/-- A pod that has an address and the container can be configured. -/
theorem renderConfig_isOk_iff : (∃ c, b.renderConfig pod = .ok c) ↔
    (∃ address, pod.status.bind (·.podIP) = some address) ∧
      ∃ container, pod.container? b.container = some container := by
  unfold renderConfig
  cases pod.status.bind (·.podIP) with
  | none => simp
  | some address => cases pod.container? b.container <;> simp

theorem proxies_of_renderConfig (h : b.renderConfig pod = .ok c) : ∃ address,
    pod.status.bind (·.podIP) = some address ∧
      c.proxies = b.parameters.portMappings.map (b.proxy address) := by
  unfold renderConfig at h
  cases haddress : pod.status.bind (·.podIP) with
  | none =>
    rw [haddress] at h
    cases h
  | some address =>
    cases hcontainer : pod.container? b.container with
    | none =>
      rw [haddress, hcontainer] at h
      cases h
    | some container =>
      rw [haddress, hcontainer] at h
      cases h
      exact ⟨address, rfl, rfl⟩

theorem intercepts_proxy (b : Binding) (address : String) (m : PortMapping) :
    b.Intercepts m (b.proxy address m) := ⟨_, rfl, b.endpoint_eq m⟩

theorem listens_renderConfig (h : b.renderConfig pod = .ok c)
    (hnonzero : ∀ m ∈ b.parameters.portMappings, m.containerPort ≠ 0)
    (hdistinct : (b.parameters.portMappings.map (·.containerPort)).Nodup) :
    Listens b.parameters.portMappings c b.Intercepts := by
  obtain ⟨address, -, hproxies⟩ := proxies_of_renderConfig h
  exact listens_of_map hproxies (fun _ => rfl) (fun m _ => b.intercepts_proxy address m) hnonzero
    hdistinct

theorem listens_cloneConfig (b : Binding) (hnonzero : ∀ m ∈ mappings, m.containerPort ≠ 0)
    (hdistinct : (mappings.map (·.containerPort)).Nodup) :
    Listens mappings (b.cloneConfig mappings) b.Relays :=
  listens_of_map rfl (fun _ => rfl)
    (fun m _ => ⟨congrArg (fun e => some [e]) (b.endpoint_eq m), rfl⟩) hnonzero hdistinct

end Binding

/-! ## Copies -/

/-- The copy's container is started with the configuration. -/
def Binding.Runs (b : Binding) (copy : Workload) (c : Carrier.Config) : Prop :=
  ∃ spec container, copy.spec = some spec ∧
    spec.template.container? b.container = some container ∧
    container.command =
      some (Carrier.shell (Carrier.entrypointScript c.toYaml b.config.carrierLogLevel))

namespace Kube.Service

def portList (s : Service) : List ServicePort := (s.spec.bind (·.ports)).getD []

/-- There is a port for each mapping, in their order. Each passes traffic on to the container port
of its mapping under the same number, and no two of them have the same. -/
structure Fronts (s : Service) (mappings : List PortMapping) : Prop where
  each : List.Forall₂ (fun m p => p.port.toInt = m.containerPort.toNat ∧
    p.targetPort = some (.number p.port)) mappings s.portList
  distinct : (s.portList.map (·.port)).Nodup
  nonzero : ∀ p ∈ s.portList, p.port ≠ 0

end Kube.Service

namespace Duplicate

variable {b : Binding} {c : Controller} {base copy : Workload} {mappings : List PortMapping}

theorem runs_of_clone (h : b.clone c base = .ok (copy, mappings)) :
    b.Runs copy (b.cloneConfig mappings) := by
  obtain ⟨spec, template, -, htemplate, rfl⟩ := clone_eq_ok h
  obtain ⟨pods, container, -, hcontainer, -, rfl⟩ := cloneTemplate_eq_ok htemplate
  obtain ⟨hname, before, after, hpods, hbefore⟩ := List.find?_eq_some_iff_append.mp hcontainer
  have hcopies : Clone.updateFirst (fun c => decide (c.name = b.container))
      (b.cloneContainer mappings) pods.containers =
        before ++ b.cloneContainer mappings container :: after := by
    rw [hpods]
    exact Clone.updateFirst_append (by simpa using hbefore) hname
  refine ⟨_, b.cloneContainer mappings container, rfl, ?_, rfl⟩
  show List.find? _ (Clone.updateFirst _ _ pods.containers) = _
  rw [hcopies]
  exact List.find?_eq_some_iff_append.mpr ⟨hname, before, after, rfl, hbefore⟩

theorem portList_cloneService : (b.cloneService copy mappings).portList = mappings.map fun m =>
    { name := some s!"port-{m.containerPort.toNat}"
      port := Int32.ofNat m.containerPort.toNat
      targetPort := some (.number (Int32.ofNat m.containerPort.toNat))
      other := [] } :=
  List.map_map ..

theorem fronts_cloneService (hnonzero : ∀ m ∈ mappings, m.containerPort ≠ 0)
    (hdistinct : (mappings.map (·.containerPort)).Nodup) :
    (b.cloneService copy mappings).Fronts mappings where
  each := by
    rw [portList_cloneService, List.forall₂_map_right_iff, List.forall₂_same]
    exact fun m _ => ⟨toInt_port _, rfl⟩
  distinct := by
    have hports : (b.cloneService copy mappings).portList.map (·.port) =
        (mappings.map (·.containerPort)).map fun p => Int32.ofNat p.toNat := by
      rw [portList_cloneService, List.map_map, List.map_map]
      rfl
    rw [hports]
    exact hdistinct.map fun _ _ => port_injective
  nonzero := by
    rw [portList_cloneService, List.forall_mem_map]
    exact fun m hm hzero => hnonzero m hm (port_injective hzero)

theorem clone_of_container {spec : WorkloadSpec} {container : Container}
    (hspec : base.spec = some spec)
    (hcontainer : spec.template.container? b.container = some container) :
    ∃ copy, b.clone c base = .ok (copy, b.effectiveMappings container) := by
  obtain ⟨copy, mappings, h⟩ := exists_clone c hspec (by rw [hcontainer]; rfl)
  obtain ⟨spec', container', hspec', hcontainer', rfl⟩ := clone_mappings h
  cases hspec.symm.trans hspec'
  cases hcontainer.symm.trans hcontainer'
  exact ⟨copy, h⟩

theorem mem_declaredPorts {container : Container} {p : UInt16} :
    p ∈ container.declaredPorts ↔
      ∃ d ∈ container.ports.getD [], d.containerPort.toInt = p.toNat := by
  unfold Container.declaredPorts
  rw [List.mem_filterMap]
  refine exists_congr fun d => and_congr_right fun _ => ?_
  have hp := p.toNat_lt
  split
  · next hrange =>
    have hlt : d.containerPort.toInt.toNat < UInt16.size := (Int.toNat_lt hrange.1).mpr hrange.2
    rw [Option.some.injEq, ← UInt16.toNat_inj, UInt16.toNat_ofNat_of_lt' hlt]
    omega
  · next hrange =>
    exact ⟨nofun, fun heq => by omega⟩

/-- The ports that a copy serves when none is mapped. -/
theorem mem_ports_declared {container : Container} (h : b.parameters.portMappings = [])
    (p : UInt16) : p ∈ (b.effectiveMappings container).map (·.containerPort) ↔
      ∃ d ∈ container.ports.getD [], d.containerPort.toInt = p.toNat := by
  have hnumber : p ∈ (b.effectiveMappings container).map (·.containerPort) ↔
      p.toNat ∈ (b.effectiveMappings container).map fun m => m.containerPort.toNat := by
    simp [UInt16.toNat_inj]
  rw [hnumber, Binding.ports_declared h, List.mem_eraseDups, List.mem_mergeSort,
    List.mem_map_of_injective fun _ _ => UInt16.toNat_inj.mp, mem_declaredPorts]

/-- When no port is mapped a copy listens on the ports that are declared, in order. -/
theorem listeners_declared {container : Container} (h : b.parameters.portMappings = []) :
    ∃ ports : List UInt16,
      (b.cloneConfig (b.effectiveMappings container)).proxies.map (·.port) = ports.map some ∧
      ((b.cloneService copy (b.effectiveMappings container)).portList.map fun p => p.port.toInt) =
        ports.map (fun p => (p.toNat : Int)) ∧
      ports.Pairwise (· < ·) ∧
      ∀ p, p ∈ ports ↔ ∃ d ∈ container.ports.getD [], d.containerPort.toInt = p.toNat := by
  refine ⟨(b.effectiveMappings container).map (·.containerPort), ?_, ?_, ?_, mem_ports_declared h⟩
  · unfold Binding.cloneConfig
    rw [List.map_map, List.map_map]
    rfl
  · rw [portList_cloneService, List.map_map, List.map_map]
    exact List.map_congr_left fun m _ => toInt_port _
  · have hascending : ((b.effectiveMappings container).map
        fun m => m.containerPort.toNat).Pairwise (· < ·) :=
      Binding.ports_declared h ▸ Binding.ascending_declared container
    rw [List.pairwise_map] at hascending ⊢
    exact hascending

end Duplicate

/-! ## Bridges -/

/-- There is one listener for each mapping, wherever the bridge is mounted. -/
structure Binding.ServesMapped (b : Binding) : Prop where
  sidecar : ∀ (pod : Pod) address container, pod.status.bind (·.podIP) = some address →
    pod.container? b.container = some container →
      ∃ c, b.renderConfig pod = .ok c ∧ Listens b.parameters.portMappings c b.Intercepts
  copy : ∀ controller (base : Workload) spec container, base.spec = some spec →
    spec.template.container? b.container = some container →
      ∃ copy c, b.clone controller base = .ok (copy, b.parameters.portMappings) ∧
        b.Runs copy c ∧ Listens b.parameters.portMappings c b.Relays ∧
        (b.cloneService copy b.parameters.portMappings).Fronts b.parameters.portMappings

/-- A copy listens on the ports that its container declares, on each once and in ascending order,
and its service has the same ports. -/
def Binding.ServesDeclared (b : Binding) : Prop :=
  ∀ controller (base : Workload) spec container, base.spec = some spec →
    spec.template.container? b.container = some container →
      ∃ copy mappings c, b.clone controller base = .ok (copy, mappings) ∧ b.Runs copy c ∧
        ∃ ports : List UInt16, c.proxies.map (·.port) = ports.map some ∧
          ((b.cloneService copy mappings).portList.map fun p => p.port.toInt) =
            ports.map (fun p => (p.toNat : Int)) ∧
          ports.Pairwise (· < ·) ∧
          ∀ p, p ∈ ports ↔ ∃ d ∈ container.ports.getD [], d.containerPort.toInt = p.toNat

namespace Duplicate

variable {b : Binding}

theorem servesMapped (hsome : b.parameters.portMappings ≠ [])
    (hnonzero : ∀ m ∈ b.parameters.portMappings, m.containerPort ≠ 0)
    (hdistinct : (b.parameters.portMappings.map (·.containerPort)).Nodup) : b.ServesMapped where
  sidecar pod address container haddress hcontainer := by
    obtain ⟨c, hc⟩ := Binding.renderConfig_isOk_iff.mpr ⟨⟨_, haddress⟩, _, hcontainer⟩
    exact ⟨c, hc, Binding.listens_renderConfig hc hnonzero hdistinct⟩
  copy controller base spec container hspec hcontainer := by
    obtain ⟨copy, hclone⟩ := clone_of_container (c := controller) hspec hcontainer
    rw [Binding.effectiveMappings_of_mapped hsome] at hclone
    exact ⟨copy, _, hclone, runs_of_clone hclone, b.listens_cloneConfig hnonzero hdistinct,
      fronts_cloneService hnonzero hdistinct⟩

theorem servesDeclared (h : b.parameters.portMappings = []) : b.ServesDeclared := by
  intro controller base spec container hspec hcontainer
  obtain ⟨copy, hclone⟩ := clone_of_container (c := controller) hspec hcontainer
  exact ⟨copy, _, _, hclone, runs_of_clone hclone, listeners_declared h⟩

end Duplicate

/-- **One listener for each mapping.** A list of mappings is accepted if it is not empty where one
is required, no port is zero, and no container port comes up twice. What serves an accepted list has
one listener for each mapping, and each leads to the local port of that mapping. Where no port is
mapped a copy listens on every port that is declared. -/
theorem one_listener_each :
    (∀ bridge mappings requireAny, PortMapping.check bridge mappings requireAny = .ok () ↔
      (requireAny = true → mappings ≠ []) ∧
        (∀ m ∈ mappings, m.containerPort ≠ 0 ∧ m.localPort ≠ 0) ∧
        (mappings.map (·.containerPort)).Nodup) ∧
    (∀ (b : Binding) requireAny,
      PortMapping.check b.bridge b.parameters.portMappings requireAny = .ok () →
        b.parameters.portMappings ≠ [] → b.ServesMapped) ∧
    ∀ b : Binding, b.parameters.portMappings = [] → b.ServesDeclared := by
  refine ⟨fun _ _ _ => PortMapping.check_eq_ok, fun b requireAny hcheck hsome => ?_,
    fun b => Duplicate.servesDeclared⟩
  obtain ⟨-, hports, hdistinct⟩ := PortMapping.check_eq_ok.mp hcheck
  exact Duplicate.servesMapped hsome (fun m hm => (hports m hm).1) hdistinct

open Sample in
theorem one_listener_each_mapped : ∃ copy c,
    PortMapping.check "first" [⟨8080, 80⟩] true = .ok () ∧
      (binding mapped "shop").clone .deployment (selecting byLabel) =
        .ok (copy, [⟨8080, 80⟩]) ∧
      (binding mapped "shop").Runs copy c ∧
      Binding.Listens [⟨8080, 80⟩] c (binding mapped "shop").Relays ∧
      ((binding mapped "shop").cloneService copy [⟨8080, 80⟩]).Fronts [⟨8080, 80⟩] := by
  obtain ⟨hcheck, hmapped, -⟩ := one_listener_each
  have haccepted : PortMapping.check "first" [⟨8080, 80⟩] true = .ok () :=
    (hcheck ..).mpr ⟨fun _ => nofun, by decide, by decide⟩
  obtain ⟨copy, c, hcopy⟩ := (hmapped (binding mapped "shop") true haccepted nofun).copy .deployment
    (selecting byLabel) _ _ rfl rfl
  exact ⟨copy, c, haccepted, hcopy⟩

end BridgeOperator
