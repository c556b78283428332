import BridgeOperator.Cluster.Object

/-!
What happened to a cluster in memory, as JSON.
-/

namespace BridgeOperator.Cluster.Entry

private def call (name : String) (fields : List (String × Json)) : Json :=
  .obj (("call", .str name) :: fields)

private def named (ns name : String) : List (String × Json) :=
  [("namespace", .str ns), ("name", .str name)]

private def inNamespace (ns field : String) (value : Json) : List (String × Json) :=
  [("namespace", .str ns), (field, value)]

def toJson : Entry → Json
  | .bridgeStatus ns name s => call "patch_status" (named ns name ++ [("status", s.toJson)])
  | .clientStatus ns name s => call "patch_status" (named ns name ++ [("status", s.toJson)])
  | .addFinalizer ns name => call "add_finalizer" (named ns name)
  | .removeFinalizer ns name => call "remove_finalizer" (named ns name)
  | .listPods ns selector => call "list_pods" (inNamespace ns "selector" (.str selector))
  | .applyConfig id document level => call "apply_config" [
      ("container", .str (sidecarKey id)),
      ("yaml", .str document),
      ("log_level", .str level)]
  | .createSecret ns s => call "create_secret" (inNamespace ns "secret" s.toJson)
  | .deleteBridgesOf ns client =>
    call "delete_bridges_for_client" (inNamespace ns "client" (.str client))
  | .applyWorkload c ns w =>
    call ("apply_" ++ (Kind.ofController c).text) (inNamespace ns "object" (w.toJson c))
  | .applyService ns s => call "apply_service" (inNamespace ns "object" s.toJson)
  | .deleted kind ns name existed =>
    call ("delete_" ++ kind.text) (named ns name ++ [("existed", .bool existed)])
  | .notice n => call "event" [
      ("type", .str n.type.text),
      ("reason", .str n.reason),
      ("action", .str n.action),
      ("note", .str n.note),
      ("regarding", n.regarding.toJson)]
  | .external (.validate _) => call "provider_validate" []
  | .external .install => call "provider_install" []
  | .external .ready => call "provider_ready" []
  | .external .uninstall => call "provider_uninstall" []

/-- A provider outside the library first reports how many peers it is asked about. -/
def toJsons : Entry → List Json
  | .external (.validate peers) =>
    [call "provider_peers" [("count", .int peers)], toJson (.external (.validate peers))]
  | e => [toJson e]

end BridgeOperator.Cluster.Entry
