import BridgeOperator.Api.Controller
import BridgeOperator.Api.Startup
import BridgeOperator.Cluster.Controllers
import BridgeOperator.Cluster.Journal
import BridgeOperator.Main
import BridgeOperator.Proofs.World.Run
import BridgeOperator.Proofs.SortedMap
import BridgeOperator.Proofs.Pass.Lifecycle
import BridgeOperator.Proofs.World.Ledger
import BridgeOperator.Proofs.Provider.Ownership
import BridgeOperator.Proofs.World.FirstCome
import BridgeOperator.Proofs.Json.Lexer
import BridgeOperator.Proofs.Json.RoundTrip
import BridgeOperator.Proofs.Bridge.Canonical
import BridgeOperator.Proofs.World.Verdict
import BridgeOperator.Proofs.World.Serial
import BridgeOperator.Proofs.World.Exclusion
import BridgeOperator.Proofs.Provider.Reach
import BridgeOperator.Proofs.World.Teardown
import BridgeOperator.Proofs.World.Episode
import BridgeOperator.Proofs.World.Custody
import BridgeOperator.Proofs.World.Obligation
import BridgeOperator.Proofs.Pass.Loop
import BridgeOperator.Proofs.Pass.Shape
import BridgeOperator.Proofs.Client.Expiration
import BridgeOperator.Proofs.Carrier.RoundTrip
import BridgeOperator.Proofs.Status.Persistence
import BridgeOperator.Proofs.Client.Convergence
import BridgeOperator.Proofs.Cluster.Selection
import BridgeOperator.Proofs.World.Sidecars
import BridgeOperator.Proofs.Provider.Copies
import BridgeOperator.Proofs.Provider.Arrival
import BridgeOperator.Proofs.World.Readiness
import BridgeOperator.Proofs.Api.Finalizers
import BridgeOperator.Proofs.Deletion
import BridgeOperator.Proofs.Client.Revocation
import BridgeOperator.Proofs.Provider.Agreement
import BridgeOperator.Proofs.Repetition.Harmless
import BridgeOperator.Proofs.Client.Issuance
import BridgeOperator.Proofs.Provider.Leftovers
import BridgeOperator.Proofs.Pass.Failure
import BridgeOperator.Proofs.Carrier.HereDocument
import BridgeOperator.Proofs.Client.Fingerprint
import BridgeOperator.Proofs.Client.Dependents
import BridgeOperator.Proofs.Provider.Selectors
import BridgeOperator.Proofs.Provider.Fidelity
import BridgeOperator.Proofs.Cluster.Reversal
import BridgeOperator.Proofs.Provider.Acceptance
import BridgeOperator.Proofs.Provider.Limits
import BridgeOperator.Proofs.Poll
import BridgeOperator.Proofs.Cluster.Population
import BridgeOperator.Proofs.Client.Wakeup
import BridgeOperator.Proofs.Workload.Reference
import BridgeOperator.Proofs.Client.Material
import BridgeOperator.Proofs.Provider.Upstreams
import BridgeOperator.Proofs.Provider.Probes
import BridgeOperator.Proofs.World.Chronicle
