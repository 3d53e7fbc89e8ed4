import PerceptronMesh.Files.Path

/-!
The arguments of the command line. They are read from the left, and the first
one that is wrong or asks for help settles the request.
-/

namespace PerceptronMesh.Command

/-- What is asked for. -/
inductive Request where
  | compile (network : Path) (config : Option Path) (withGraph : Bool)
  | run (network : Path) (config : Option Path)
  | help
  | version
deriving DecidableEq, Repr

inductive UsageError where
  | noCommand
  | unknownCommand (name : String)
  | unexpectedArgument (text : String)
  | repeatedOption (name : String)
  | noValue (name : String)
  | noNetwork
deriving DecidableEq, Repr

def UsageError.message : UsageError → String
  | .noCommand => "a command is missing"
  | .unknownCommand name => s!"unrecognized command '{name}'"
  | .unexpectedArgument text => s!"unexpected argument '{text}'"
  | .repeatedOption name => s!"option '{name}' cannot be used more than once"
  | .noValue name => s!"a value is missing for '{name}'"
  | .noNetwork => "a network file is missing"

/-- Why reading stops before the end of the arguments. -/
inductive Stop where
  | usage (e : UsageError)
  | help
deriving DecidableEq, Repr

/-- What has been read for a command. -/
structure Options where
  network : Option String := none
  config : Option String := none
  withGraph : Bool := false
deriving DecidableEq, Repr

/-- A path, which cannot be empty. -/
def value (name text : String) : Except Stop String :=
  if text.isEmpty then .error (.usage (.noValue name)) else .ok text

namespace Options

def setConfig (o : Options) (text : String) : Except Stop Options := do
  if o.config.isSome then throw (.usage (.repeatedOption "--config"))
  return { o with config := some (← value "--config" text) }

def setGraph (o : Options) : Except Stop Options :=
  if o.withGraph then .error (.usage (.repeatedOption "--graph"))
  else .ok { o with withGraph := true }

def setNetwork (o : Options) (text : String) : Except Stop Options := do
  if o.network.isSome then throw (.usage (.unexpectedArgument text))
  return { o with network := some (← value "NETWORK_FILE" text) }

/-- Whether an argument can only be an option. A single dash is a path. -/
def looksLikeOption (text : String) : Bool := text.startsWith "-" && text != "-"

/-- The text after a given start. -/
def after? (start text : String) : Option String :=
  if text.startsWith start then some (String.ofList (text.toList.drop start.length)) else none

/-- Reads the arguments of a command. Two dashes end its options. -/
def read (takesGraph : Bool) (o : Options) : List String → Except Stop Options
  | [] => .ok o
  | "--" :: rest => rest.foldlM setNetwork o
  | "--help" :: _ => .error .help
  | "--graph" :: rest =>
    if takesGraph then do read takesGraph (← o.setGraph) rest
    else .error (.usage (.unexpectedArgument "--graph"))
  | ["--config"] => .error (.usage (.noValue "--config"))
  | "--config" :: text :: rest =>
    if looksLikeOption text then .error (.usage (.noValue "--config"))
    else do read takesGraph (← o.setConfig text) rest
  | text :: rest =>
    match after? "--config=" text with
    | some path => do read takesGraph (← o.setConfig path) rest
    | none =>
      if !looksLikeOption text then do read takesGraph (← o.setNetwork text) rest
      else if text.startsWith "-h" then .error .help
      else .error (.usage (.unexpectedArgument text))

/-- The request of a command whose arguments were read. -/
def toRequest (o : Options) (make : Path → Option Path → Request) : Except Stop Request :=
  match o.network with
  | some network => .ok (make (.ofString network) (o.config.map Path.ofString))
  | none => .error (.usage .noNetwork)

end Options

def commandNames : List String := ["compile", "run", "help"]

/-- The request of a command with its arguments. -/
def readCommand : List String → Except Stop Request
  | [] => .error (.usage .noCommand)
  | "compile" :: args => do
    let o ← Options.read true {} args
    o.toRequest fun network config => .compile network config o.withGraph
  | "run" :: args => do
    let o ← Options.read false {} args
    o.toRequest .run
  | ["help"] => .ok .help
  | ["help", name] =>
    if commandNames.contains name then .ok .help else .error (.usage (.unknownCommand name))
  | "help" :: _ :: name :: _ => .error (.usage (.unknownCommand name))
  | text :: _ =>
    if text = "--help" || text.startsWith "-h" then .ok .help
    else if text = "--version" || text.startsWith "-V" then .ok .version
    else if Options.looksLikeOption text then .error (.usage (.unexpectedArgument text))
    else .error (.usage (.unknownCommand text))

/-- The request that arguments make. -/
def readArguments (args : List String) : Except UsageError Request :=
  match readCommand args with
  | .ok request => .ok request
  | .error .help => .ok .help
  | .error (.usage e) => .error e

end PerceptronMesh.Command
