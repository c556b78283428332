import BridgeOperator.Bridge.Basic
import BridgeOperator.Provider.Kind

/-!
Who owns a target: the bridge that has claimed it, or of those still requesting it the one that
arrived first.
-/

namespace BridgeOperator.Bridge

/-- The same object of the cluster, by uid if both have one. -/
def sameObject (a b : Bridge) : Bool :=
  match a.metadata.uid, b.metadata.uid with
  | some x, some y => x = y
  | _, _ => a.name = b.name && a.metadata.namespaceName = b.metadata.namespaceName

/-- The order of arrival: by creation, then by name; without a creation time a bridge is last. -/
def arrivedBefore (a b : Bridge) : Bool :=
  match a.metadata.creationTimestamp, b.metadata.creationTimestamp with
  | some s, some t => s.before t || (s = t && a.name < b.name)
  | some _, none => true
  | none, some _ => false
  | none, none => a.name < b.name

/-- The peer keeps others from what it shares with the request. -/
def owns (peer request : Bridge) : Bool :=
  peer.state.holdsTarget || (peer.state = .requested && peer.arrivedBefore request)

/-- The first of the other bridges that overlaps with the request and owns the overlap. -/
def owningPeer (request : Bridge) (peers : List Bridge) (overlaps : Bridge → Bool) :
    Option Bridge :=
  peers.find? fun peer => !request.sameObject peer && overlaps peer && peer.owns request

/-- No other bridge owns the target container. -/
def ensureExclusive (request : Bridge) (peers : List Bridge) : Except Error Unit :=
  match request.owningPeer peers request.sameTarget with
  | none => .ok ()
  | some owner => .error (.validation request.name (.containerOwned request.spec.targetContainer
      request.spec.target request.spec.targetNamespace owner.name owner.state.text))

/-- No other bridge of the provider owns a container of the target workload. -/
def ensureWorkloadExclusive (request : Bridge) (peers : List Bridge) (kind : ProviderKind) :
    Except Error Unit :=
  let overlaps (peer : Bridge) : Bool := peer.spec.provider = kind.name && request.sameWorkload peer
  match request.owningPeer peers overlaps with
  | none => .ok ()
  | some owner => .error (.validation request.name (.workloadOwned request.spec.target
      request.spec.targetNamespace kind.name owner.name owner.state.text
      owner.spec.targetContainer))

end BridgeOperator.Bridge
