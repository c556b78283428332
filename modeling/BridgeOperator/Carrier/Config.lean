import BridgeOperator.Routing
import BridgeOperator.Yaml.Node
import BridgeOperator.Yaml.Printer

/-!
The document a Carrier2 sidecar reads: which ports it listens on, where unmatched traffic goes, and
which bridges take the traffic that matches their rules.
-/

namespace BridgeOperator.Carrier

open Readable

variable {ν : Type} [Readable ν]

/-- Paths inside the sidecar's container. -/
def configPath : String := "/tmp/config.yaml"
def logPath : String := "/tmp/carrier.log"
def pidPath : String := "/tmp/carrier2.pid"
def socketPath : String := "/tmp/carrier2.sock"

/-- Where matching traffic goes. -/
structure Route where
  endpoint : String
  rules : List RouteRule
  deriving DecidableEq

/-- One listening port. -/
structure Proxy where
  port : Option UInt16
  tls : Option TlsParameter
  /-- The addresses of unmatched traffic. -/
  upstreams : Option (List String)
  /-- The routes by the name of their bridge. -/
  bridges : SortedMap Route
  deriving DecidableEq

structure Config where
  version : UInt32
  threads : UInt32
  errorLog : String
  pidFile : String
  upgradeSocket : String
  keepalivePoolSize : UInt32
  /-- The ports of HTTP probes that the sidecar answers. -/
  probes : Option (List UInt16)
  proxies : List Proxy
  deriving DecidableEq

namespace Route

def read (v : ν) : Option Route := do
  let f ← record? ["endpoint", "rules"] v
  some {
    endpoint := ← required f "endpoint" text?
    rules := ← withDefault f "rules" [] (list? RouteRule.read) }

def toJson (r : Route) : Json :=
  .obj [("endpoint", .str r.endpoint), ("rules", .arr (r.rules.map RouteRule.toJson))]

end Route

namespace Proxy

def read (v : ν) : Option Proxy := do
  let f ← record? ["port", "tls", "clusterUpstream", "bridges"] v
  some {
    port := ← optional f "port" uint16?
    tls := ← optional f "tls" TlsParameter.read
    upstreams := ← optional f "clusterUpstream" (list? text?)
    bridges := ← withDefault f "bridges" ∅ (map? Route.read) }

def toJson (p : Proxy) : Json := Json.objOf [
  ("port", p.port.map fun n => .int n.toNat),
  ("tls", p.tls.map TlsParameter.toJson),
  ("clusterUpstream", p.upstreams.map Json.ofStrings),
  ("bridges", some (.obj (p.bridges.mapValues Route.toJson).toList))]

end Proxy

namespace Config

def default : Config where
  version := 1
  threads := 4
  errorLog := logPath
  pidFile := pidPath
  upgradeSocket := socketPath
  keepalivePoolSize := 100
  probes := none
  proxies := []

def readProbes (v : ν) : Option (List UInt16) := do
  let f ← record? ["httpGet"] v
  required f "httpGet" (list? uint16?)

def read (v : ν) : Option Config := do
  let f ← record? ["version", "threads", "error_log", "pid_file", "upgrade_sock",
    "upstream_keepalive_pool_size", "probes", "proxy"] v
  some {
    version := ← withDefault f "version" default.version uint32?
    threads := ← withDefault f "threads" default.threads uint32?
    errorLog := ← withDefault f "error_log" default.errorLog text?
    pidFile := ← withDefault f "pid_file" default.pidFile text?
    upgradeSocket := ← withDefault f "upgrade_sock" default.upgradeSocket text?
    keepalivePoolSize :=
      ← withDefault f "upstream_keepalive_pool_size" default.keepalivePoolSize uint32?
    probes := ← optional f "probes" readProbes
    proxies := ← withDefault f "proxy" [] (list? Proxy.read) }

def probesToJson (ports : List UInt16) : Json :=
  .obj [("httpGet", .arr (ports.map fun n => .int n.toNat))]

def toJson (c : Config) : Json := Json.objOf [
  ("version", some (.int c.version.toNat)),
  ("threads", some (.int c.threads.toNat)),
  ("error_log", some (.str c.errorLog)),
  ("pid_file", some (.str c.pidFile)),
  ("upgrade_sock", some (.str c.upgradeSocket)),
  ("upstream_keepalive_pool_size", some (.int c.keepalivePoolSize.toNat)),
  ("probes", c.probes.map probesToJson),
  ("proxy", some (.arr (c.proxies.map Proxy.toJson)))]

/-- The text of the document. -/
def toYaml (c : Config) : String := Yaml.render c.toJson

def ofYaml? (text : String) : Option Config := (Yaml.Node.parse? text).bind read

/-- Is traffic of any proxy routed to the bridge? -/
def hasBridge (c : Config) (bridge : String) : Bool :=
  c.proxies.any (·.bridges.contains bridge)

def withoutBridge (c : Config) (bridge : String) : Config :=
  { c with proxies := c.proxies.map fun p => { p with bridges := p.bridges.erase bridge } }

end Config
end BridgeOperator.Carrier
