import BridgeOperator.Carrier.Config
import BridgeOperator.Proofs.Routing
import BridgeOperator.Proofs.Yaml.Mirror

/-!
The document of a sidecar is a faithful record of its configuration, whatever the paths, endpoints,
rules and names in it: what is found in the sidecar is compared with what is wanted by reading it
back.
-/

namespace BridgeOperator

open Json (Plain)
open Readable

namespace Carrier

variable {ν : Type} [Readable ν] {enc : Json → ν}

namespace Route

theorem read_toJson (hm : Mirrors enc) (r : Route) : read (enc r.toJson) = some r := by
  change (record? _ (enc (Json.objOf [("endpoint", some (.str r.endpoint)),
    ("rules", some (.arr (r.rules.map RouteRule.toJson)))]))).bind _ = _
  refine hm.record_objOf (by simp) (by simp) fun f hf => ?_
  simp only [List.forall_mem_cons] at hf
  obtain ⟨hendpoint, hrules, -⟩ := hf
  simp [required_eq hendpoint (hm.text _),
    withDefault_eq hrules (hm.list_eq (RouteRule.read_toJson hm) _)]

theorem plain_toJson (r : Route) (depth : Nat) : Plain (depth + 6) r.toJson := by
  refine .obj _ fun e he => ?_
  simp only [List.mem_cons, List.not_mem_nil, or_false] at he
  rcases he with rfl | rfl
  · exact .str _
  · refine .arr _ fun j hj => ?_
    obtain ⟨r, -, rfl⟩ := List.mem_map.mp hj
    exact r.plain_toJson depth

end Route

namespace Proxy

theorem read_toJson (hm : Mirrors enc) (p : Proxy) : read (enc p.toJson) = some p := by
  refine hm.record_objOf (by simp) (by simp) fun f hf => ?_
  simp only [List.forall_mem_cons] at hf
  obtain ⟨hport, htls, hupstreams, hbridges, -⟩ := hf
  have port := hm.optional_eq hport hm.uint16_eq fun n _ => Json.plain_uint16 n 0
  have tls := hm.optional_eq htls (TlsParameter.read_toJson hm) fun t _ => t.plain_toJson 0
  have upstreams := hm.optional_eq hupstreams (fun l => hm.list_eq hm.text l)
    fun l _ => Json.plain_strings l 0
  simp [port, tls, upstreams, withDefault_eq hbridges (hm.map_eq (Route.read_toJson hm) _)]

theorem plain_toJson (p : Proxy) (depth : Nat) : Plain (depth + 8) p.toJson := by
  refine Json.plain_objOf fun k j hj => ?_
  simp only [List.mem_cons, List.not_mem_nil, Prod.mk.injEq, or_false] at hj
  rcases hj with ⟨-, hj⟩ | ⟨-, hj⟩ | ⟨-, hj⟩ | ⟨-, hj⟩
  · obtain ⟨n, -, rfl⟩ := Option.map_eq_some_iff.mp hj.symm
    exact Json.plain_uint16 n _
  · obtain ⟨t, -, rfl⟩ := Option.map_eq_some_iff.mp hj.symm
    exact t.plain_toJson (depth + 6)
  · obtain ⟨l, -, rfl⟩ := Option.map_eq_some_iff.mp hj.symm
    exact Json.plain_strings l (depth + 6)
  · cases hj
    refine .obj _ fun e he => ?_
    obtain ⟨e', -, rfl⟩ := List.mem_map.mp he
    exact e'.2.plain_toJson depth

end Proxy

namespace Config

theorem read_probesToJson (hm : Mirrors enc) (ports : List UInt16) :
    readProbes (enc (probesToJson ports)) = some ports := by
  change (record? _ (enc (Json.objOf [("httpGet",
    some (.arr (ports.map fun n => .int n.toNat)))]))).bind _ = _
  refine hm.record_objOf (by simp) (by simp) fun f hf => ?_
  simp only [List.forall_mem_cons] at hf
  exact required_eq hf.1 (hm.list_eq hm.uint16_eq _)

theorem plain_probesToJson (ports : List UInt16) (depth : Nat) :
    Plain (depth + 2) (probesToJson ports) := by
  refine .obj _ fun e he => ?_
  obtain rfl := List.mem_singleton.mp he
  refine .arr _ fun j hj => ?_
  obtain ⟨n, -, rfl⟩ := List.mem_map.mp hj
  exact Json.plain_uint16 n depth

theorem read_toJson (hm : Mirrors enc) (c : Config) : read (enc c.toJson) = some c := by
  refine hm.record_objOf (by simp) (by simp) fun f hf => ?_
  simp only [List.forall_mem_cons] at hf
  obtain ⟨hversion, hthreads, herror, hpid, hupgrade, hpool, hprobes, hproxies, -⟩ := hf
  have probes := hm.optional_eq hprobes (read_probesToJson hm) fun l _ => plain_probesToJson l 0
  simp [withDefault_eq hversion (hm.uint32_eq _), withDefault_eq hthreads (hm.uint32_eq _),
    withDefault_eq herror (hm.text _), withDefault_eq hpid (hm.text _),
    withDefault_eq hupgrade (hm.text _), withDefault_eq hpool (hm.uint32_eq _), probes,
    withDefault_eq hproxies (hm.list_eq (Proxy.read_toJson hm) _)]

theorem plain_toJson (c : Config) (depth : Nat) : Plain (depth + 10) c.toJson := by
  refine Json.plain_objOf fun k j hj => ?_
  simp only [List.mem_cons, List.not_mem_nil, Prod.mk.injEq, or_false] at hj
  rcases hj with ⟨-, hj⟩ | ⟨-, hj⟩ | ⟨-, hj⟩ | ⟨-, hj⟩ | ⟨-, hj⟩ | ⟨-, hj⟩ | ⟨-, hj⟩ | ⟨-, hj⟩
  · cases hj
    exact Json.plain_uint32 _ _
  · cases hj
    exact Json.plain_uint32 _ _
  · cases hj
    exact .str _
  · cases hj
    exact .str _
  · cases hj
    exact .str _
  · cases hj
    exact Json.plain_uint32 _ _
  · obtain ⟨l, -, rfl⟩ := Option.map_eq_some_iff.mp hj.symm
    exact plain_probesToJson l (depth + 7)
  · cases hj
    refine .arr _ fun j hj => ?_
    obtain ⟨p, -, rfl⟩ := List.mem_map.mp hj
    exact p.plain_toJson depth

theorem parse_toYaml (c : Config) : Yaml.Node.parse? c.toYaml = some (.ofJson c.toJson) :=
  Yaml.parse_render (c.plain_toJson 0) (by simp)

/-- The document of a configuration reads back as that configuration. -/
theorem ofYaml_toYaml (c : Config) : ofYaml? c.toYaml = some c := by
  rw [ofYaml?, parse_toYaml, Option.bind_some, read_toJson Yaml.mirrors_node]

end Config
end Carrier
end BridgeOperator
