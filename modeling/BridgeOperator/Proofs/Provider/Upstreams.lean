import BridgeOperator.Proofs.Network.Authority
import BridgeOperator.Proofs.Provider.Listeners

/-!
Where a configuration sends traffic, as the proxy reads it. An upstream and an endpoint are a host,
a colon and a port. No host is put in brackets, so what is written for an address of version 6 has
no reading (`leads_iff_not_bare`).
-/

namespace BridgeOperator

open Kube (Pod)
open Network (IPv4 IPv6 Leads Name Spells leads_iff portText_toDigits)

namespace Carrier.Proxy

/-- All traffic of the proxy goes to the host and port. -/
def ForwardsTo (p : Proxy) (host : List Char) (port : UInt16) : Prop :=
  ∃ text, p.upstreams = some [text] ∧ Leads text.toList host port

/-- Traffic that the bridge takes at the proxy goes to the host and port. -/
def DivertsTo (p : Proxy) (bridge : String) (host : List Char) (port : UInt16) : Prop :=
  ∃ route, p.bridges.toList = [(bridge, route)] ∧ Leads route.endpoint.toList host port

end Carrier.Proxy

theorem toList_hostPort (host : String) (port : UInt16) :
    s!"{host}:{port.toNat}".toList = host.toList ++ ':' :: Nat.toDigits 10 port.toNat := by
  simp [toString]

namespace Binding

variable {b : Binding}

/-- The destination is a host, and the operator's namespace can be part of one. -/
structure Destined (b : Binding) : Prop where
  destination : ∀ text, b.parameters.destination = some text → ∃ host, Spells text.toList host
  operator : Name b.config.namespaceName.toList

/-- The name of the tunnel's service for a port. -/
theorem name_serviceFqdn {namespaceName : String} (h : Name namespaceName.toList) (port : UInt16) :
    Name (Kube.serviceFqdn s!"gefyra-stowaway-proxy-{port.toNat}" namespaceName).toList := by
  have htext : (Kube.serviceFqdn s!"gefyra-stowaway-proxy-{port.toNat}" namespaceName).toList =
      "gefyra-stowaway-proxy-".toList ++ Nat.toDigits 10 port.toNat ++
        '.' :: (namespaceName.toList ++ ".svc.cluster.local".toList) := by
    simp [Kube.serviceFqdn, toString]
  rw [htext]
  refine ⟨by simp, ?_⟩
  simp only [List.mem_append, List.mem_cons]
  rintro c ((hc | hc) | rfl | hc | hc)
  · exact List.all_eq_true.mp rfl c hc
  · simp [Network.isNameChar, Char.isAlphanum, Json.digits_isDigit c hc]
  · rfl
  · exact h.chars c hc
  · exact List.all_eq_true.mp rfl c hc

theorem Destined.spells_host (h : b.Destined) (m : PortMapping) :
    ∃ host, Spells (b.host m).toList host := by
  unfold host
  cases hdestination : b.parameters.destination with
  | some text => exact h.destination text hdestination
  | none => exact ⟨_, .name (name_serviceFqdn h.operator m.localPort)⟩

theorem forwardsTo_iff {p : Carrier.Proxy} {text : String} {host : List Char} {port : UInt16}
    (hp : p.upstreams = some [s!"{text}:{port.toNat}"]) (h : Spells text.toList host) :
    p.ForwardsTo host port ↔ ¬ IPv6 text.toList := by
  rw [← leads_iff h (portText_toDigits port), ← toList_hostPort]
  constructor
  · rintro ⟨upstream, hupstream, hleads⟩
    cases hp.symm.trans hupstream
    exact hleads
  · exact fun hleads => ⟨_, hp, hleads⟩

theorem divertsTo_iff {p : Carrier.Proxy} {m : PortMapping} {host : List Char}
    (hp : b.Intercepts m p) (h : Spells (b.host m).toList host) :
    p.DivertsTo b.bridge host m.localPort ↔ ¬ IPv6 (b.host m).toList := by
  obtain ⟨route, hroute, hendpoint⟩ := hp
  rw [← leads_iff h (portText_toDigits m.localPort), ← toList_hostPort, ← hendpoint]
  constructor
  · rintro ⟨route', hroute', hleads⟩
    cases hroute.symm.trans hroute'
    exact hleads
  · exact fun hleads => ⟨route, hroute, hleads⟩

end Binding

/-- An address of a pod, as the cluster reports it. -/
def PodAddress (s : List Char) : Prop := IPv4 s ∨ IPv6 s

theorem PodAddress.spells {s : List Char} (h : PodAddress s) : Spells s s :=
  h.elim (fun h => .name h.name) .bare

/-- **Traffic goes where it should unless that is a bare address of version 6.** This holds for the
upstream and the endpoint of each mapping in the configuration of a pod, and for the upstream of
each mapping in that of a copy. -/
theorem leads_iff_not_bare {b : Binding} (hb : b.Destined) :
    (∀ (pod : Pod) address c, pod.status.bind (·.podIP) = some address →
      PodAddress address.toList → b.renderConfig pod = .ok c →
        List.Forall₂ (fun m p => ∃ host, Spells (b.host m).toList host ∧
          (p.ForwardsTo address.toList m.containerPort ↔ ¬ IPv6 address.toList) ∧
          (p.DivertsTo b.bridge host m.localPort ↔ ¬ IPv6 (b.host m).toList))
        b.parameters.portMappings c.proxies) ∧
    ∀ mappings, List.Forall₂ (fun m p => ∃ host, Spells (b.host m).toList host ∧
        (p.ForwardsTo host m.localPort ↔ ¬ IPv6 (b.host m).toList))
      mappings (b.cloneConfig mappings).proxies := by
  refine ⟨fun pod address c haddress hpod hc => ?_, fun mappings => ?_⟩
  · obtain ⟨address', haddress', hproxies⟩ := Binding.proxies_of_renderConfig hc
    cases haddress.symm.trans haddress'
    rw [hproxies, List.forall₂_map_right_iff, List.forall₂_same]
    intro m _
    obtain ⟨host, hhost⟩ := hb.spells_host m
    exact ⟨host, hhost, Binding.forwardsTo_iff rfl hpod.spells,
      Binding.divertsTo_iff (b.intercepts_proxy address m) hhost⟩
  · show List.Forall₂ _ mappings (mappings.map _)
    rw [List.forall₂_map_right_iff, List.forall₂_same]
    intro m _
    obtain ⟨host, hhost⟩ := hb.spells_host m
    exact ⟨host, hhost, Binding.forwardsTo_iff (congrArg (fun e => some [e]) (b.endpoint_eq m))
      hhost⟩

namespace Sample

/-- A pod of the shop that has the address. -/
def podAt (address : String) : Pod where
  metadata := .empty
  spec := some ⟨[⟨"app", none, none, none, none, none, none, none, []⟩], []⟩
  status := some ⟨none, some address, none, []⟩

theorem destined_mapped : (binding mapped "shop").Destined where
  destination _ := nofun
  operator := ⟨nofun, List.all_eq_true.mp rfl⟩

theorem ipv4_pod : IPv4 "10.0.0.7".toList := by
  have hoctet : ∀ c : Char, c.isDigit = true → Nat.ofDigitChars 10 [c] 0 < 256 →
      Network.Octet [c] := fun c hdigit hsmall => ⟨nofun, by simpa using hdigit, hsmall⟩
  have hten : Network.Octet "10".toList := ⟨nofun, List.all_eq_true.mp rfl, by decide⟩
  exact .dotted hten (hoctet '0' rfl (by decide)) (hoctet '0' rfl (by decide))
    (hoctet '7' rfl (by decide))

theorem ipv6_pod : IPv6 "fd00::1".toList := by
  have hfront : Network.Hextet "fd00".toList :=
    ⟨nofun, by decide, List.all_eq_true.mp rfl⟩
  have hback : Network.Hextet "1".toList := ⟨nofun, by decide, List.all_eq_true.mp rfl⟩
  exact .gap (.some (.last hfront)) (by decide) (.some (.last hback)) (by decide)

end Sample

open Sample

theorem leads_iff_not_bare_mapped : ∃ c p,
    (binding mapped "shop").Destined ∧ PodAddress "10.0.0.7".toList ∧
      (binding mapped "shop").renderConfig (podAt "10.0.0.7") = .ok c ∧
      c.proxies = [p] ∧ p.ForwardsTo "10.0.0.7".toList 8080 := by
  have hpod : PodAddress "10.0.0.7".toList := .inl ipv4_pod
  have hall := (leads_iff_not_bare destined_mapped).1 (podAt "10.0.0.7") "10.0.0.7" _ rfl hpod rfl
  obtain ⟨_, -, hforwards, -⟩ := (List.forall₂_cons.mp hall).1
  exact ⟨_, _, destined_mapped, hpod, rfl, rfl, hforwards.mpr ipv4_pod.name.not_ipv6⟩

/-- The upstream in a pod with an address of version 6 has no reading. -/
theorem not_always_leads : ¬ ∀ (b : Binding) (pod : Pod) address c, b.Destined →
    pod.status.bind (·.podIP) = some address → PodAddress address.toList →
      b.renderConfig pod = .ok c →
        List.Forall₂ (fun m p => ∃ host, Spells (b.host m).toList host ∧
          p.ForwardsTo address.toList m.containerPort ∧ p.DivertsTo b.bridge host m.localPort)
        b.parameters.portMappings c.proxies := by
  intro hall
  have hpod : PodAddress "fd00::1".toList := .inr ipv6_pod
  have hleads := hall (binding mapped "shop") (podAt "fd00::1") "fd00::1" _ destined_mapped rfl
    hpod rfl
  obtain ⟨_, -, hforwards, -⟩ := (List.forall₂_cons.mp hleads).1
  exact (Binding.forwardsTo_iff rfl hpod.spells).mp hforwards ipv6_pod

end BridgeOperator
