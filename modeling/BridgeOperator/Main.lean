import BridgeOperator.Cli
import BridgeOperator.Crd.Definition

/-!
The program: what it prints for each request of the command line.
-/

open BridgeOperator

/-- The variables of the environment that settings are taken from. -/
def readVariables : List Cli.Setting → IO (List (String × String))
  | [] => return []
  | s :: rest => do
    let more ← readVariables rest
    match s.envName with
    | none => return more
    | some v =>
      match ← IO.getEnv v with
      | none => return more
      | some value => return (v, value) :: more

def main (args : List String) : IO UInt32 := do
  let environment ← readVariables Cli.settings
  let env (v : String) : Option String := (environment.find? (fun e => e.1 = v)).map (·.2)
  let request := Cli.parse args env
  match request with
  | .help => IO.print Cli.usageLine
  | .version => IO.print Cli.versionLine
  | .manifests => IO.print CrdDefinition.manifests
  | .usageError => IO.eprint Cli.usageLine
  | .run config =>
    IO.println s!"Starting in namespace {config.namespaceName} with {config.carrierImageRef}"
    IO.eprintln "No cluster can be reached"
  return request.exitCode
