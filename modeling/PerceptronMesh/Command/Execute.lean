import PerceptronMesh.Command.Arguments
import PerceptronMesh.Command.Failure
import PerceptronMesh.Graph.Checksum
import PerceptronMesh.NetworkFile.Reading
import PerceptronMesh.NetworkFile.Session

/-!
What the commands do with a tree of files, and what they print. Networks run on a
loopback.
-/

namespace PerceptronMesh.Command

/-- A step of a command, which may change files even if it fails. -/
abbrev Task := EStateM Failure FileTree

/-- A result that belongs to a step of the command. -/
def during {α : Type} (context : String) : Result α → Task α
  | .ok a => pure a
  | .error cause => throw { context, cause }

/-- The network file, and the configuration of the given directory or else of the
    directory of the network file. -/
def load (network : Path) (config : Option Path) : Task (NetworkFile × Configuration) := do
  let files ← get
  let file ← during s!"Failed to load network file {network.text}" (NetworkFile.load files network)
  match config with
  | some directory =>
    let configuration ← during s!"Failed to load config from {directory.text}"
      (Configuration.load files directory)
    pure (file, configuration)
  | none => pure (file, Configuration.loadOrDefault files file.directory)

def build (file : NetworkFile) (configuration : Configuration) : Task (Network Loopback) := do
  during "Failed to build network"
    (file.build (← get) configuration { keySpace := configuration.limits.keySpaceSize })

/-- Compiles a network and describes its graph. -/
def compileNetwork (network : Path) (config : Option Path) (withGraph : Bool) : Task String := do
  let (file, configuration) ← load network config
  let n ← build file configuration
  let compiled ← during "Graph compilation failed" (compile n.topology configuration.limits)
  let graph := if withGraph then [("graph", compiled.graph.toJson)] else []
  pure ((Json.object ([
    ("network", .string network.text), ("compile", compiled.report.toJson),
    ("stats", compiled.graph.stats.toJson),
    ("checksum", .string (checksumText compiled.graph.checksum))] ++ graph)).pretty ++ "\n")

/-- A step of a session on the files of a command. -/
def runStages (file : NetworkFile) (n : Network Loopback) :
    Task (List StageOutcome × Network Loopback) := fun files =>
  match Session.runStages file { network := n, files } with
  | .ok outcomes s => .ok (outcomes, s.network) s.files
  | .error cause s => .error { context := "Stage run failed", cause } s.files

/-- Runs the stages of a network, with one line for each outcome. -/
def runNetwork (network : Path) (config : Option Path) : Task String := do
  let (file, configuration) ← load network config
  let n ← build file configuration
  let (outcomes, n) ← runStages file n
  match Network.finish n with
  | .ok () _ => pure ()
  | .error cause _ => throw { context := "Failed to stop placement service", cause }
  pure (String.join (outcomes.map fun o => o.toJson.compact ++ "\n"))

def helpText : String := String.intercalate "\n" [
  "MLP dataflow graph compiler", "",
  "Usage: pdpflow <COMMAND>", "",
  "Commands:",
  "  compile  Compile a network file and print graph statistics as JSON",
  "  run      Build a network and run its stages on the loopback service",
  "  help     Print this message", "",
  "Arguments:",
  "  <NETWORK_FILE>  Network file (YAML)", "",
  "Options:",
  "  --config <DIR>  Directory holding pdpflow.yaml",
  "  --graph         Include every unit and edge in the output of compile",
  "  -h, --help      Print help",
  "  -V, --version   Print version", ""]

def versionText : String := "pdpflow 0.1.0\n"

/-- What a command leaves behind. -/
structure Outcome where
  code : UInt8
  output : String
  errors : String
  files : FileTree

def ofTask (task : Task String) (files : FileTree) : Outcome :=
  match task files with
  | .ok output files => { code := 0, output, errors := "", files }
  | .error failure files => { code := 1, output := "", errors := failure.text ++ "\n", files }

def Request.execute (request : Request) (files : FileTree) : Outcome :=
  match request with
  | .compile network config withGraph => ofTask (compileNetwork network config withGraph) files
  | .run network config => ofTask (runNetwork network config) files
  | .help => { code := 0, output := helpText, errors := "", files }
  | .version => { code := 0, output := versionText, errors := "", files }

/-- Carries out what the arguments ask for. -/
def execute (args : List String) (files : FileTree) : Outcome :=
  match readArguments args with
  | .ok request => request.execute files
  | .error e => { code := 2, output := "", errors := s!"error: {e.message}\n", files }

end PerceptronMesh.Command
