import PerceptronMesh.NetworkFile.Basic
import PerceptronMesh.Settings.ConfigurationFile
import PerceptronMesh.Yaml.Core

/-!
Reading of network files. Fields that are not known are ignored, and what is not
given has a default or is absent, but for the groups and what names them.
-/

namespace PerceptronMesh

open Yaml

def pathOf (node : Node) : Reading Path := Path.ofString <$> node.text

namespace SettingsEntry

def ownFields : List String := ["net_type", "intervals", "ticks_per_interval", "update_function"]

/-- Parameters of learning stand beside the other settings; their types follow
    from their text, as do those of fields that are not known. Two mappings lie
    around them. -/
def read (node : Node) : Reading SettingsEntry := do
  let fields ← node.fields
  let others := fields.entries.filter fun (name, _) => !ownFields.contains name
  let values : Fields Core := ⟨← others.mapM fun (name, value) =>
    return (name, ← value.core (depthLimit - 2))⟩
  let entry : SettingsEntry := {}
  let real := fun name => values.orDefault name none Core.toReal
  return {
    kind := ← fields.orDefault "net_type" entry.kind (Node.named NetworkKind.ofName?)
    intervals := ← fields.orDefault "intervals" entry.intervals fun n => UInt32.toNat <$> n.word32
    ticksPerInterval := ← fields.orDefault "ticks_per_interval" entry.ticksPerInterval fun n =>
      UInt32.toNat <$> n.word32
    updateFunction := ← fields.orDefault "update_function" entry.updateFunction
      (Node.named UpdateFunction.ofName?)
    params := {
      updates := ← values.orDefault "num_updates" none Core.toWord32
      trainCriterion := ← real "train_group_crit"
      testCriterion := ← real "test_group_crit"
      learningRate := ← real "learning_rate"
      weightDecay := ← real "weight_decay"
      momentum := ← real "momentum" } }

end SettingsEntry

def GroupParams.read (node : Node) : Reading GroupParams := do
  let fields ← node.fields
  let real := fun name => fields.optional name Node.real
  return {
    learningRate := ← real "learning_rate"
    weightDecay := ← real "weight_decay"
    momentum := ← real "momentum"
    trainCriterion := ← real "train_group_crit"
    testCriterion := ← real "test_group_crit" }

def Roles.read (node : Node) : Reading Roles :=
  Roles.ofList <$> node.items (Node.named Role.ofName?)

def GroupEntry.read (node : Node) : Reading GroupEntry := do
  let fields ← node.fields
  return {
    label := ← fields.required "label" Node.text
    units := ← fields.required "units" fun n => UInt32.toNat <$> n.word32
    roles := ← fields.required "roles" Roles.read
    inputFunctions := ← fields.optional "input_funcs"
      (Node.items (Node.named InputFunction.ofName?))
    outputFunctions :=
      ← fields.optional "output_funcs" (Node.items (Node.named OutputFunction.ofName?))
    params := ← fields.optional "params" GroupParams.read }

def LinkEntry.read (node : Node) : Reading LinkEntry := do
  let fields ← node.fields
  return {
    source := ← fields.required "from" Node.text
    destination := ← fields.required "to" Node.text
    label := ← fields.optional "label" Node.text }

namespace StageEntry

/-- A way of learning, which has to be text by its form as well. -/
def readUpdateFunction (node : Node) : Reading UpdateFunction := do
  match ← node.core depthLimit with
  | .text name => Reading.demand (.unknownName name) (UpdateFunction.ofName? name)
  | _ => throw (.wrongKind "text")

def readTrain (node : Node) : Reading StageEntry := do
  let fields ← node.fields
  return .train (← fields.optional "update_function" readUpdateFunction)
    (← fields.optional "num_updates" Node.word32) (← fields.optional "output_file" pathOf)

def readTest (node : Node) : Reading StageEntry := do
  let fields ← node.fields
  return .test (← fields.optional "num_examples" Node.word32)
    (← fields.orDefault "reset_examples" true Node.flag) (← fields.optional "output_file" pathOf)

/-- A stage is a mapping with its kind as the only key. -/
def read (node : Node) : Reading StageEntry := do
  let node ← node.resolve
  if node.isLocal then throw (.wrongKind "a mapping without a local tag")
  match node with
  | .mapping _ [(key, value)] =>
    match ← key.text with
    | "train" => readTrain value
    | "test" => readTest value
    | name => throw (.unknownName name)
  | _ => throw (.wrongKind "a mapping with one key")

end StageEntry

namespace NetworkFile

def read (node : Node) : Reading NetworkFile := do
  let fields ← node.fields
  return {
    settings := ← fields.orDefault "params" {} SettingsEntry.read
    groups := ← fields.required "groups" (Node.items GroupEntry.read)
    links := ← fields.orDefault "links" [] (Node.items LinkEntry.read)
    examplesFile := ← fields.optional "examples_file" pathOf
    weightsFile := ← fields.optional "weights_file" pathOf
    recording := ← fields.optional "recording" Recording.read
    stages := ← fields.orDefault "stages" [] (Node.items StageEntry.read) }

def parse : String → Except Fault NetworkFile := readText read

/-- A network file from its text. -/
def ofText (text : String) : Result NetworkFile :=
  (parse text).mapError fun fault => .configuration (.malformedNetwork fault.message)

/-- The network file at a path, whose directory its own paths start from. -/
def load (files : FileTree) (path : Path) : Result NetworkFile := do
  let text ← (files.readText path).mapError fun cause =>
    .configuration (.unreadableNetwork path cause)
  let file ← (parse text).mapError fun fault =>
    .configuration (.malformedNetworkFile path fault.message)
  return { file with directory := path.parent.getD (.ofString "") }

end NetworkFile

end PerceptronMesh
