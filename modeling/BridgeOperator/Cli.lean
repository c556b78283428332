import BridgeOperator.Config
import BridgeOperator.Text.Split

/-!
The command line of the operator. Arguments are read from left to right, and the first one that
settles the outcome does so; what is not given is taken from the environment.
-/

namespace BridgeOperator.Cli

/-- What the command line asks for. -/
inductive Request where
  | help
  | version
  | usageError
  /-- Print the definitions of the resources. -/
  | manifests
  | run (config : OperatorConfig)
  deriving DecidableEq, Repr

inductive ValueKind where
  | text
  | seconds
  | switch
  deriving DecidableEq, Repr

/-- Something that can be set on the command line, and perhaps in the environment. -/
structure Setting where
  name : String
  envName : Option String
  kind : ValueKind
  deriving Repr

def crd : Setting := ⟨"crd", none, .switch⟩
def namespaceName : Setting := ⟨"namespace", some "GEFYRA_NAMESPACE", .text⟩
def carrierImage : Setting := ⟨"carrier2-image", some "GEFYRA_CARRIER2_IMAGE", .text⟩
def carrierImageTag : Setting := ⟨"carrier2-image-tag", some "GEFYRA_CARRIER2_IMAGE_TAG", .text⟩
def carrierDebug : Setting := ⟨"carrier2-debug", some "GEFYRA_CARRIER2_DEBUG", .switch⟩
def bridgeInterval : Setting :=
  ⟨"bridge-reconcile-interval", some "GEFYRA_BRIDGE_RECONCILE_INTERVAL", .seconds⟩
def clientInterval : Setting :=
  ⟨"client-reconcile-interval", some "GEFYRA_CLIENT_RECONCILE_INTERVAL", .seconds⟩
def clientGrace : Setting := ⟨"client-grace-period", some "GEFYRA_CLIENT_GRACE_PERIOD", .seconds⟩
def readinessTimeout : Setting := ⟨"readiness-timeout", some "GEFYRA_READINESS_TIMEOUT", .seconds⟩

def settings : List Setting :=
  [crd, namespaceName, carrierImage, carrierImageTag, carrierDebug, bridgeInterval, clientInterval,
    clientGrace, readinessTimeout]

/-- A number of 64 bits, with or without a plus sign. -/
def seconds? (s : String) : Option Nat :=
  let digits := match s.toList with
    | '+' :: rest => rest
    | rest => rest
  if digits.isEmpty || !digits.all Char.isDigit then none
  else
    let n := digits.foldl (fun n c => 10 * n + (c.toNat - '0'.toNat)) 0
    if n < UInt64.size then some n else none

def ValueKind.accepts : ValueKind → String → Bool
  | .text, _ => true
  | .seconds, s => (seconds? s).isSome
  | .switch, s => s == "true" || s == "false"

/-- Settings by name. -/
abbrev Given : Type := List (String × String)

def value? (g : Given) (s : Setting) : Option String := (g.find? (fun e => e.1 = s.name)).map (·.2)

/-- An argument that starts with a dash is not taken as a value, unless it is nothing else. -/
def isValue (arg : String) : Bool := !arg.startsWith "-" || arg == "-"

/-- The name of a long option and the value attached to it. -/
def splitLong (arg : String) : String × Option String :=
  let text := arg.toList.drop 2
  match Text.cut '=' text with
  | some (name, value) => (String.ofList name, some (String.ofList value))
  | none => (String.ofList text, none)

/-- Add a value that may be given once and has to be acceptable. -/
def give (g : Given) (s : Setting) (value : String) : Except Request Given :=
  if (value? g s).isSome || !s.kind.accepts value then .error .usageError
  else .ok ((s.name, value) :: g)

/-- A short option: only the first letter of a group counts. -/
def readShort (arg : String) : Request :=
  match arg.toList with
  | '-' :: 'h' :: _ => .help
  | '-' :: 'V' :: _ => .version
  | _ => .usageError

/-- Read arguments from left to right. -/
def readArgs (g : Given) : List String → Except Request Given
  | [] => .ok g
  | arg :: rest =>
    if arg = "--" then (if rest.isEmpty then .ok g else .error .usageError)
    else if !arg.startsWith "--" then .error (readShort arg)
    else
      let (name, attached) := splitLong arg
      if name = "help" ∧ attached.isNone then .error .help
      else if name = "version" ∧ attached.isNone then .error .version
      else
        match settings.find? (fun s => s.name = name), attached with
        | none, _ => .error .usageError
        | some s, some value =>
          if s.kind = .switch then .error .usageError
          else do readArgs (← give g s value) rest
        | some s, none =>
          if s.kind = .switch then do readArgs (← give g s "true") rest
          else
            match rest with
            | value :: more =>
              if isValue value then do readArgs (← give g s value) more
              else .error .usageError
            | [] => .error .usageError

/-- Take what is not given from the environment. -/
def readEnvironment (env : String → Option String) (g : Given) : List Setting → Except Request Given
  | [] => .ok g
  | s :: rest =>
    match value? g s, s.envName.bind env with
    | none, some value => do readEnvironment env (← give g s value) rest
    | _, _ => readEnvironment env g rest

def textOr (g : Given) (s : Setting) (default : String) : String := (value? g s).getD default

def durationOr (g : Given) (s : Setting) (default : Nat) : Nat :=
  match (value? g s).bind seconds? with
  | some n => Duration.seconds n
  | none => default

def isSet (g : Given) (s : Setting) : Bool := value? g s = some "true"

def config (g : Given) : OperatorConfig :=
  let d := OperatorConfig.default
  { d with
    namespaceName := textOr g namespaceName d.namespaceName
    carrierImage := textOr g carrierImage d.carrierImage
    carrierImageTag := textOr g carrierImageTag d.carrierImageTag
    carrierDebug := isSet g carrierDebug
    bridgeInterval := durationOr g bridgeInterval d.bridgeInterval
    clientInterval := durationOr g clientInterval d.clientInterval
    clientGrace := durationOr g clientGrace d.clientGrace
    readinessTimeout := durationOr g readinessTimeout d.readinessTimeout }

/-- What the arguments and the environment ask for together. -/
def parse (args : List String) (env : String → Option String) : Request :=
  let given := do
    let g ← readArgs [] args
    readEnvironment env g settings
  match given with
  | .error r => r
  | .ok g => if isSet g crd then .manifests else .run (config g)

def name : String := "gefyra-operator"

def versionLine : String := s!"{name} 0.1.0\n"

def usageLine : String := s!"Usage: {name} [OPTIONS]\n"

/-- The status the program ends with; no cluster can be reached. -/
def Request.exitCode : Request → UInt32
  | .help | .version | .manifests => 0
  | .usageError => 2
  | .run _ => 1

end BridgeOperator.Cli
