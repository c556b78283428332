import BridgeOperator.Proofs.Client.Secret
import BridgeOperator.Proofs.Readable

/-!
Connection material on its way into a secret. Every leaf of a JSON value is encoded in base64 where
it stands (`Conveys`), and a secret is read from the JSON that results, so what a client is given
can be decoded to its config (`material_survives`).
-/

namespace BridgeOperator

/-! ## Leaves -/

/-- Objects in objects, with strings as leaves. -/
inductive Json.Textual : Json → Prop
  | str (s : String) : Textual (.str s)
  | obj (fields : List (String × Json)) : (∀ e ∈ fields, Textual e.2) → Textual (.obj fields)

/-- The second value has the keys of the first, and what is decoded from its leaves are the leaves
of the first. -/
inductive Conveys : Json → Json → Prop
  | leaf {s code : String} : Base64.decode? code = some s → Conveys (.str s) (.str code)
  | done : Conveys (.obj []) (.obj [])
  | field {k : String} {j code : Json} {rest codes : List (String × Json)} : Conveys j code →
    Conveys (.obj rest) (.obj codes) → Conveys (.obj ((k, j) :: rest)) (.obj ((k, code) :: codes))

theorem conveys_encodeFields (fields : List (String × Json))
    (h : ∀ e ∈ fields, Conveys e.2 (encodeLeaves e.2)) :
    Conveys (.obj fields) (.obj (encodeLeaves.encodeFields fields)) := by
  induction fields with
  | nil => exact .done
  | cons e rest ih =>
    obtain ⟨he, hrest⟩ := List.forall_mem_cons.mp h
    exact .field he (ih hrest)

theorem conveys_encodeLeaves {j : Json} (h : j.Textual) : Conveys j (encodeLeaves j) := by
  induction h with
  | str s => exact .leaf (Base64.decode?_encode s)
  | obj fields _ ih => exact conveys_encodeFields fields ih

/-- A map of texts is encoded value by value. -/
theorem encodeLeaves_ofStringMap (m : SortedMap String) :
    encodeLeaves (Json.ofStringMap m) = Json.ofStringMap (m.mapValues Base64.encode) := by
  have hfields : ∀ l : List (String × String),
      encodeLeaves.encodeFields (l.map fun e => (e.1, Json.str e.2)) =
        (l.map fun e => (e.1, Base64.encode e.2)).map fun e => (e.1, Json.str e.2) := by
    intro l
    induction l with
    | nil => rfl
    | cons e rest ih =>
      rw [List.map_cons, encodeLeaves.encodeFields, ih]
      rfl
  exact congrArg Json.obj (hfields m.toList)

/-! ## The secret -/

namespace Kube.Secret

/-- The bytes that the base64 text stands for; `none` if some of it is malformed. -/
def bytes? (s : Secret) : Option (List (String × List UInt8)) :=
  (s.data.getD ∅).toList.mapM fun e => (Base64.decodeBytes? e.2.toList).map (e.1, ·)

theorem encodedText?_encode (s : String) :
    encodedText? (.str (Base64.encode s)) = some (Base64.encode s) := by
  unfold encodedText? Json.str?
  rw [Option.bind_some, Base64.decodeBytes?_encode, Option.map_some]

/-- Encoded data is read as it is written. -/
theorem map?_encoded (m : SortedMap String) :
    Readable.map? encodedText? (Json.ofStringMap (m.mapValues Base64.encode)) =
      some (m.mapValues Base64.encode) := by
  refine Readable.mirrors_json.map_eq_of_mem fun e he => ?_
  obtain ⟨e, -, rfl⟩ := List.mem_map.mp he
  exact encodedText?_encode e.2

/-- What is read from the body of a secret is what has been put into it. -/
theorem ofJson?_secretBody {name namespaceName : String} {data : Json} {m : SortedMap String}
    (h : Readable.map? encodedText? (encodeLeaves data) = some m) :
    ofJson? (secretBody name namespaceName data) = some {
      metadata := { Metadata.empty with
        name := some name
        namespaceName := some namespaceName
        labels := some (.ofList [(Label.managedBy, Label.operator)]) }
      kind := some "Opaque"
      data := some m
      other := [] } := by
  unfold secretBody
  cases hcode : encodeLeaves data with
  | obj fields =>
    rw [hcode] at h
    show ((Readable.map? encodedText? (.obj fields)).map some).bind _ = _
    rw [h]
    rfl
  | _ =>
    rw [hcode] at h
    cases h

theorem bytes?_connectionSecret (client namespaceName : String) (config : SortedMap String)
    (owner : Option OwnerReference) :
    (connectionSecret client namespaceName config owner).bytes? =
      some (config.toList.map fun e => (e.1, utf8 e.2)) := by
  show (config.toList.map fun e => (e.1, Base64.encode e.2)).mapM _ = _
  rw [List.mapM_map]
  refine Readable.mapM_eq_map fun e _ => ?_
  rw [Function.comp_apply, Base64.decodeBytes?_encode, Option.map_some]

end Kube.Secret

/-- Reading the body is another way to the secret that clients are given. -/
theorem connectionSecret?_eq (client namespaceName : String) (config : SortedMap String)
    (owner : Option Kube.OwnerReference) :
    connectionSecret? client namespaceName config owner =
      some (connectionSecret client namespaceName config owner) := by
  have hdata : Readable.map? Kube.Secret.encodedText? (encodeLeaves (Json.ofStringMap config)) =
      some (config.mapValues Base64.encode) := by
    rw [encodeLeaves_ofStringMap]
    exact Kube.Secret.map?_encoded config
  unfold connectionSecret?
  dsimp only
  rw [Kube.Secret.ofJson?_secretBody hdata]
  rfl

/-- **Connection material survives.** Every config gets its secret, whose data decodes to the bytes
of the config key by key. A value of nested objects keeps its keys, and every leaf of it decodes to
what it was. -/
theorem material_survives :
    (∀ client namespaceName config owner, ∃ secret,
      connectionSecret? client namespaceName config owner = some secret ∧
        secret = connectionSecret client namespaceName config owner ∧
        secret.bytes? = some (config.toList.map fun e => (e.1, utf8 e.2)) ∧
        secret.decoded? = some config.toList) ∧
    ∀ j : Json, j.Textual → Conveys j (encodeLeaves j) := by
  refine ⟨fun client namespaceName config owner => ?_, fun _ => conveys_encodeLeaves⟩
  exact ⟨_, connectionSecret?_eq .., rfl, Kube.Secret.bytes?_connectionSecret ..,
    decoded?_connectionSecret ..⟩

namespace Sample

/-- Texts in more than one script, of every length modulo three. -/
def material : SortedMap String :=
  .ofList [("", "Zoë"), ("peer", "é"), ("port", "1"), ("ключ", ""), ("wireguard", "[Interface]")]

def nested : Json := .obj [
  ("endpoint", .str "1.2.3.4:31820"),
  ("interface", .obj [("address", .str "192.168.99.2"), ("dns", .obj [("", .str "")])]),
  ("routes", .obj [])]

theorem textual_nested : nested.Textual := by
  refine .obj _ ?_
  simp only [List.forall_mem_cons]
  refine ⟨.str _, .obj _ ?_, .obj _ nofun, nofun⟩
  simp only [List.forall_mem_cons]
  refine ⟨.str _, .obj _ ?_, nofun⟩
  simp only [List.forall_mem_cons]
  exact ⟨.str _, nofun⟩

end Sample

open Sample in
theorem material_survives_nested :
    (∃ secret, connectionSecret? "carol" "gefyra" material none = some secret ∧
      secret.bytes? = some [("", [90, 111, 195, 171]), ("peer", [195, 169]), ("port", [49]),
        ("wireguard", [91, 73, 110, 116, 101, 114, 102, 97, 99, 101, 93]), ("ключ", [])]) ∧
    nested.Textual ∧ Conveys nested (encodeLeaves nested) := by
  obtain ⟨hsecret, hleaves⟩ := material_survives
  obtain ⟨secret, hmade, -, hbytes, -⟩ := hsecret "carol" "gefyra" material none
  exact ⟨⟨secret, hmade, hbytes⟩, textual_nested, hleaves nested textual_nested⟩

end BridgeOperator
