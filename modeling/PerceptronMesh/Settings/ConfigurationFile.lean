import PerceptronMesh.Settings.Limits
import PerceptronMesh.Yaml.Typed

/-!
Configuration files: limits and recording of a directory, in YAML. What a file
does not give keeps its default.
-/

namespace PerceptronMesh

open Yaml

def Limits.read (node : Node) : Reading Limits := do
  let fields ← node.fields
  let size := fun name (default : Nat) => fields.orDefault name default fun node =>
    UInt32.toNat <$> node.word32
  return {
    maxSubgroupUnits := ← size "max_subgroup_units" ({} : Limits).maxSubgroupUnits
    maxSumLinks := ← size "max_sum_links" ({} : Limits).maxSumLinks
    maxGroupUnits := ← size "max_group_units" ({} : Limits).maxGroupUnits
    keySpaceSize := ← size "key_space_size" ({} : Limits).keySpaceSize }

def Recording.read (node : Node) : Reading Recording := do
  let fields ← node.fields
  return {
    testResults := ← fields.orDefault "rec_test_results" true Node.flag
    outputs := ← fields.orDefault "rec_outputs" true Node.flag
    lastTickOnly := ← fields.orDefault "rec_example_last_tick_only" false Node.flag }

namespace Configuration

def read (node : Node) : Reading Configuration := do
  let fields ← node.fields
  return {
    limits := ← fields.orDefault "limits" {} Limits.read
    recording := ← fields.orDefault "recording" {} Recording.read }

def parse : String → Except Fault Configuration := readText read

def fileName : Path := .ofString "pdpflow.yaml"

/-- The configuration of a directory. -/
def load (files : FileTree) (directory : Path) : Result Configuration := do
  let path := directory.join fileName
  let text ← (files.readText path).mapError fun cause =>
    .configuration (.unreadableSettings path cause)
  let configuration ← (parse text).mapError fun fault =>
    .configuration (.malformedSettings path fault.message)
  configuration.limits.validate
  return configuration

/-- The configuration of a directory, or the default one if the directory has no
    usable file. -/
def loadOrDefault (files : FileTree) (directory : Path) : Configuration :=
  match load files directory with
  | .ok configuration => configuration
  | .error _ => {}

end Configuration

end PerceptronMesh
