import BridgeOperator.Carrier.Config

/-!
The shell scripts that control a Carrier2 sidecar. A document is handed over in a here-document
whose quoted delimiter keeps the shell from looking into it.
-/

namespace BridgeOperator.Carrier

/-- The command that runs a script in the sidecar's container. -/
def shell (script : String) : List String := ["/bin/busybox", "sh", "-c", script]

/-- Write a document to the path of the configuration. -/
def hereDocument (document : String) : String :=
  let body := if document.endsWith "\n" then document else document ++ "\n"
  s!"cat <<'EOF' > {configPath}\n{body}EOF\n"

/-- Let a new process take over the listeners of a running one, or start afresh. -/
def reloadScript (logLevel : String) : String :=
  let start (upgrade : String) : String :=
    s!"RUST_LOG={logLevel} carrier2 -c {configPath} {upgrade}-d &> {logPath}"
  let handOver := start "-u "
  let afresh := start ""
  s!"RUST_LOG={logLevel}; kill -SIGQUIT $(cat {pidPath}); "
    ++ s!"if [ $? -eq 0 ]; then {handOver}; else {afresh}; fi"

/-- Write a configuration, reload, and print the log. -/
def applyScript (document logLevel : String) : String :=
  let write := hereDocument document
  let reload := reloadScript logLevel
  s!"{write}{reload}\ncat {logPath}"

/-- Print the configuration, or nothing if there is none. -/
def readScript : String := s!"test -f {configPath} && cat {configPath} || true"

/-- Succeed while the process is alive. -/
def livenessScript : String := s!"kill -0 $(cat {pidPath})"

/-- Write a configuration and run in the foreground. -/
def entrypointScript (document logLevel : String) : String :=
  let write := hereDocument document
  s!"{write}RUST_LOG={logLevel} exec carrier2 -c {configPath}"

/-- What the sidecar prints when it crashes on start. -/
def panicMarker : String := "thread 'main' panicked"

end BridgeOperator.Carrier
