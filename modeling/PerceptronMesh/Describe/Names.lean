import PerceptronMesh.Compile.Phase
import PerceptronMesh.Describe.Topology
import PerceptronMesh.Graph.Category
import PerceptronMesh.Payload.Region
import PerceptronMesh.Stage.Descriptor

/-!
What the library knows under a name: functions and rules, roles, categories and
regions, each with its wire code or tag.
-/

namespace PerceptronMesh

/-- A code and a name. -/
def describeCode (code : UInt8) (name : String) : Json := .array [.nat code.toNat, .string name]

/-- A first item, a name and the text that messages show. -/
def describeNamed (first : Json) (name text : String) : Json :=
  .array [first, .string name, .string text]

/-- The member of an enumeration with a given name. -/
def describeMember? (enumeration name : String) : Option Json :=
  let coded := fun (code : UInt8) name => describeNamed (.nat code.toNat) name name
  match enumeration with
  | "network_type" => (NetworkKind.ofName? name).map fun a => coded a.code a.name
  | "input_function" => (InputFunction.ofName? name).map fun a => describeCode a.code a.name
  | "output_function" => (OutputFunction.ofName? name).map fun a => describeCode a.code a.name
  | "stop_criterion" => (StopCriterion.ofName? name).map fun a => describeCode a.code a.name
  | "error_function" => (ErrorFunction.ofName? name).map fun a => describeCode a.code a.name
  | "update_function" => (UpdateFunction.ofName? name).map fun a => coded a.code a.name
  | "group_role" => (Role.ofName? name).map fun a => coded a.code a.name
  | "stage_mode" => (StageMode.ofName? name).map fun a => coded a.code a.name
  | "region" => (Region.ofName? name).map fun a => describeNamed (.nat a.code) a.name a.text
  | "link_category" =>
    (Category.ofName? name).map fun a => describeNamed (.nat a.routingSlot) a.name a.shortName
  | "unit_role" =>
    (UnitRole.ofName? name).map fun a =>
      describeNamed (.string (String.singleton a.tag)) a.name a.name
  | _ => none

/-- A set of roles in every way of looking at it. -/
def Roles.describeSet (roles : Roles) : Json := .object [
  ("json", roles.describe), ("text", .string roles.text), ("empty", .bool roles.isEmpty),
  ("bias", .bool roles.bias), ("input", .bool roles.input), ("output", .bool roles.output),
  ("hidden", .bool roles.hidden), ("with_hidden", (roles.insert .hidden).describe)]

def CompilePhase.describe (p : CompilePhase) : Json :=
  .array [.nat p.number, .string p.name, .string p.text,
    .option (fun next => .string next.name) p.next]

/-- The identifiers that two subgroups give rise to, and how they compare. -/
def describeIds (group subgroup from_ fromSubgroup : Nat) : Json :=
  let weight := UnitId.weight group subgroup from_ fromSubgroup
  let input := UnitId.input group subgroup
  .array ([weight, .sum group subgroup fromSubgroup, input, .threshold group subgroup].map (fun i =>
      .string i.text) ++ [
    .string (linkText group), .bool (group == from_), .string (toString group),
    .nat input.text.utf8ByteSize, .bool (input.text == (UnitId.input from_ fromSubgroup).text),
    .bool (weight.text < (UnitId.weight from_ fromSubgroup group subgroup).text),
    .nat group, .nat group])

end PerceptronMesh
