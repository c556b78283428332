import BridgeOperator.Proofs.Readable
import BridgeOperator.Routing

/-!
Port mappings, match rules and TLS settings are read back as they were written, from JSON and from
any tree that mirrors it.
-/

namespace BridgeOperator

open Json (Plain)
open Readable

variable {ν : Type} [Readable ν] {enc : Json → ν}

theorem Json.plain_objOf {fields : List (String × Option Json)} {depth : Nat}
    (h : ∀ k j, (k, some j) ∈ fields → Plain depth j) : Plain (depth + 1) (Json.objOf fields) := by
  refine .obj _ fun e he => ?_
  obtain ⟨⟨k, v⟩, hmem, hv⟩ := List.mem_filterMap.mp he
  obtain ⟨j, rfl, rfl⟩ := Option.map_eq_some_iff.mp hv
  exact h k j hmem

theorem Json.plain_uint16 (n : UInt16) (depth : Nat) : Plain depth (.int n.toNat) :=
  .nat _ (Nat.lt_trans n.toNat_lt (by decide))

theorem Json.plain_uint32 (n : UInt32) (depth : Nat) : Plain depth (.int n.toNat) :=
  .nat _ (Nat.lt_trans n.toNat_lt (by decide))

namespace PortMapping

theorem read_toJson (hm : Mirrors enc) (m : PortMapping) : read (enc m.toJson) = some m := by
  change (record? _ (enc (Json.objOf [("containerPort", some (.int m.containerPort.toNat)),
    ("localPort", some (.int m.localPort.toNat))]))).bind _ = _
  refine hm.record_objOf (by simp) (by simp) fun f hf => ?_
  simp only [List.forall_mem_cons] at hf
  obtain ⟨hcontainer, hlocal, -⟩ := hf
  simp [required_eq hcontainer (hm.uint16_eq _), required_eq hlocal (hm.uint16_eq _)]

theorem plain_toJson (m : PortMapping) (depth : Nat) : Plain (depth + 1) m.toJson := by
  refine .obj _ fun e he => ?_
  simp only [List.mem_cons, List.not_mem_nil, or_false] at he
  rcases he with rfl | rfl <;> exact Json.plain_uint16 _ depth

end PortMapping

theorem MatchType.read_text (hm : Mirrors enc) (t : MatchType) :
    MatchType.read (enc (.str t.text)) = some t := by
  rw [MatchType.read, hm.variant]
  cases t <;> rfl

namespace HeaderMatch

theorem read_toJson (hm : Mirrors enc) (m : HeaderMatch) : read (enc m.toJson) = some m := by
  change (record? _ (enc (Json.objOf [("name", some (.str m.name)), ("value", some (.str m.value)),
    ("type", some (.str m.kind.text))]))).bind _ = _
  refine hm.record_objOf (by simp) (by simp) fun f hf => ?_
  simp only [List.forall_mem_cons] at hf
  obtain ⟨hname, hvalue, hkind, -⟩ := hf
  simp [required_eq hname (hm.text _), required_eq hvalue (hm.text _),
    withDefault_eq hkind (MatchType.read_text hm _)]

theorem plain_toJson (m : HeaderMatch) (depth : Nat) : Plain (depth + 1) m.toJson := by
  refine .obj _ fun e he => ?_
  simp only [List.mem_cons, List.not_mem_nil, or_false] at he
  rcases he with rfl | rfl | rfl <;> exact .str _

end HeaderMatch

namespace PathMatch

theorem read_toJson (hm : Mirrors enc) (m : PathMatch) : read (enc m.toJson) = some m := by
  change (record? _ (enc (Json.objOf [("path", some (.str m.path)),
    ("type", some (.str m.kind.text))]))).bind _ = _
  refine hm.record_objOf (by simp) (by simp) fun f hf => ?_
  simp only [List.forall_mem_cons] at hf
  obtain ⟨hpath, hkind, -⟩ := hf
  simp [required_eq hpath (hm.text _), withDefault_eq hkind (MatchType.read_text hm _)]

theorem plain_toJson (m : PathMatch) (depth : Nat) : Plain (depth + 1) m.toJson := by
  refine .obj _ fun e he => ?_
  simp only [List.mem_cons, List.not_mem_nil, or_false] at he
  rcases he with rfl | rfl <;> exact .str _

end PathMatch

namespace MatchClause

theorem read_toJson (hm : Mirrors enc) (c : MatchClause) : read (enc c.toJson) = some c := by
  refine hm.record_objOf (by simp) (by simp) fun f hf => ?_
  simp only [List.forall_mem_cons] at hf
  obtain ⟨hheader, hpath, -⟩ := hf
  have header := hm.optional_eq hheader (HeaderMatch.read_toJson hm) fun h _ => h.plain_toJson 0
  have path := hm.optional_eq hpath (PathMatch.read_toJson hm) fun p _ => p.plain_toJson 0
  simp [header, path]

theorem plain_toJson (c : MatchClause) (depth : Nat) : Plain (depth + 2) c.toJson := by
  refine Json.plain_objOf fun k j hj => ?_
  simp only [List.mem_cons, List.not_mem_nil, Prod.mk.injEq, or_false] at hj
  rcases hj with ⟨-, hj⟩ | ⟨-, hj⟩
  · obtain ⟨h, -, rfl⟩ := Option.map_eq_some_iff.mp hj.symm
    exact h.plain_toJson depth
  · obtain ⟨p, -, rfl⟩ := Option.map_eq_some_iff.mp hj.symm
    exact p.plain_toJson depth

end MatchClause

namespace RouteRule

theorem read_toJson (hm : Mirrors enc) (r : RouteRule) : read (enc r.toJson) = some r := by
  change (record? _ (enc (Json.objOf [("match",
    some (.arr (r.clauses.map MatchClause.toJson)))]))).bind _ = _
  refine hm.record_objOf (by simp) (by simp) fun f hf => ?_
  simp only [List.forall_mem_cons] at hf
  simp [required_eq hf.1 (hm.list_eq (MatchClause.read_toJson hm) _)]

theorem plain_toJson (r : RouteRule) (depth : Nat) : Plain (depth + 4) r.toJson := by
  refine .obj _ fun e he => ?_
  obtain rfl := List.mem_singleton.mp he
  refine .arr _ fun j hj => ?_
  obtain ⟨c, -, rfl⟩ := List.mem_map.mp hj
  exact c.plain_toJson depth

end RouteRule

namespace TlsParameter

theorem read_toJson (hm : Mirrors enc) (t : TlsParameter) : read (enc t.toJson) = some t := by
  refine hm.record_objOf (by simp) (by simp) fun f hf => ?_
  simp only [List.forall_mem_cons] at hf
  obtain ⟨hcertificate, hkey, hsni, -⟩ := hf
  have sni := hm.optional_eq hsni hm.text fun s _ => (Plain.str s : Plain 0 _)
  simp [required_eq hcertificate (hm.text _), required_eq hkey (hm.text _), sni]

theorem plain_toJson (t : TlsParameter) (depth : Nat) : Plain (depth + 1) t.toJson := by
  refine Json.plain_objOf fun k j hj => ?_
  simp only [List.mem_cons, List.not_mem_nil, Prod.mk.injEq, or_false] at hj
  rcases hj with ⟨-, hj⟩ | ⟨-, hj⟩ | ⟨-, hj⟩
  · cases hj
    exact .str _
  · cases hj
    exact .str _
  · obtain ⟨s, -, rfl⟩ := Option.map_eq_some_iff.mp hj.symm
    exact .str s

end TlsParameter

namespace ProviderParameter

/-- Rules are left out when there are none, and read as none when they are left out. -/
theorem read_toJson (hm : Mirrors enc) (p : ProviderParameter) : read (enc p.toJson) = some p := by
  refine hm.record_objOf (by simp) (by simp) fun f hf => ?_
  simp only [List.forall_mem_cons] at hf
  obtain ⟨hports, hdestination, hrules, htls, -⟩ := hf
  have destination := hm.optional_eq hdestination hm.text fun s _ => (Plain.str s : Plain 0 _)
  have tls := hm.optional_eq htls (TlsParameter.read_toJson hm) fun t _ => t.plain_toJson 0
  have rules : withDefault f "rules" [] (list? RouteRule.read) = some p.rules := by
    cases h : p.rules with
    | nil =>
      rw [h] at hrules
      rw [withDefault, hrules]
      rfl
    | cons r rest =>
      rw [h] at hrules
      exact withDefault_eq hrules (hm.list_eq (RouteRule.read_toJson hm) _)
  simp [withDefault_eq hports (hm.list_eq (PortMapping.read_toJson hm) _), destination, rules, tls]

theorem plain_toJson (p : ProviderParameter) (depth : Nat) : Plain (depth + 6) p.toJson := by
  refine Json.plain_objOf fun k j hj => ?_
  simp only [List.mem_cons, List.not_mem_nil, Prod.mk.injEq, or_false] at hj
  rcases hj with ⟨-, hj⟩ | ⟨-, hj⟩ | ⟨-, hj⟩ | ⟨-, hj⟩
  · cases hj
    refine .arr _ fun j hj => ?_
    obtain ⟨m, -, rfl⟩ := List.mem_map.mp hj
    exact m.plain_toJson (depth + 3)
  · obtain ⟨s, -, rfl⟩ := Option.map_eq_some_iff.mp hj.symm
    exact .str s
  · split at hj
    · cases hj
    · cases hj
      refine .arr _ fun j hj => ?_
      obtain ⟨r, -, rfl⟩ := List.mem_map.mp hj
      exact r.plain_toJson depth
  · obtain ⟨t, -, rfl⟩ := Option.map_eq_some_iff.mp hj.symm
    exact t.plain_toJson (depth + 4)

end ProviderParameter
end BridgeOperator
