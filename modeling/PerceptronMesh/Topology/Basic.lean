import PerceptronMesh.Topology.Group

/-!
Networks of linked groups. The first group is the bias, a single unit linked to
every output and hidden group.
-/

namespace PerceptronMesh

/-- A declared connection from every unit of one group to every unit of another. -/
structure Link where
  id : Nat
  source : GroupId
  destination : GroupId
  label : String
deriving DecidableEq, Repr

def Link.isRecurrent (l : Link) : Bool := l.source = l.destination

/-- A link's identifier as text. -/
def linkText (id : Nat) : String := s!"L{id}"

structure Topology where
  groups : List Group
  links : List Link
  /-- Output groups in the order they were added. -/
  outputChain : List GroupId
  maxSubgroupUnits : Nat
deriving DecidableEq, Repr

namespace Topology

/-- The group that every topology starts with. -/
def bias : GroupId := 0

def biasLabel : String := "Bias"

def group? (t : Topology) (id : GroupId) : Option Group := t.groups[id]?

def group (t : Topology) (id : GroupId) : Result Group :=
  match t.group? id with
  | some g => .ok g
  | none => .error (.notFound (.group id))

def groupByLabel? (t : Topology) (label : String) : Option Group :=
  t.groups.find? (·.label == label)

/-- The topology with one group changed by `change`. -/
def modifyGroup (t : Topology) (id : GroupId) (change : Group → Group) : Topology :=
  { t with groups := t.groups.modify id change }

/-- Changes a group that has to exist. -/
def updateGroup (t : Topology) (id : GroupId) (change : Group → Group) : Result Topology :=
  match t.group? id with
  | some _ => .ok (t.modifyGroup id change)
  | none => .error (.notFound (.group id))

/-- The topology with one more link, recorded with its destination as well. -/
def withLink (t : Topology) (source destination : GroupId) (label : String) : Topology :=
  let linked := t.modifyGroup destination fun g => { g with linksFrom := g.linksFrom ++ [source] }
  { linked with links := t.links ++ [⟨t.links.length, source, destination, label⟩] }

/-- Declares a link between two groups that are not linked that way yet. -/
def addLink (t : Topology) (source destination : GroupId) (label : Option String) :
    Result (Nat × Topology) :=
  match t.group? source, t.group? destination with
  | none, _ => .error (.topology (.noSource source))
  | some _, none => .error (.topology (.noDestination destination))
  | some from_, some target =>
    if target.isLinkedFrom source then .error (.topology (.linkDeclared from_.label target.label))
    else
      let label := label.getD s!"{from_.label}-{target.label}"
      .ok (t.links.length, t.withLink source destination label)

/-- Adds a group. An output or hidden group is linked from the bias. -/
def addGroup (t : Topology) (units : Nat) (roles : Roles)
    (inputFunctions : Option (List InputFunction)) (outputFunctions : Option (List OutputFunction))
    (label : Option String) : Result (GroupId × Topology) := do
  let id := t.groups.length
  let label := label.getD s!"g{id}"
  if (t.groupByLabel? label).isSome then
    throw (.configuration (.labelInUse label))
  let block := if roles.output then t.outputChain.length else 0
  let g ← Group.make id units roles inputFunctions outputFunctions block
    (roles.output && t.outputChain.isEmpty) label t.maxSubgroupUnits
  let grown : Topology :=
    { t with
      groups := t.groups ++ [g]
      outputChain := if roles.output then t.outputChain ++ [id] else t.outputChain }
  if roles.output || roles.hidden then
    let (_, linked) ← grown.addLink bias id none
    pure (id, linked)
  else
    pure (id, grown)

/-- A topology with only the bias group. -/
def make (maxSubgroupUnits : Nat) : Result Topology := do
  let empty : Topology := ⟨[], [], [], maxSubgroupUnits⟩
  let (_, t) ← empty.addGroup 1 (Roles.ofList [.bias]) none none (some biasLabel)
  pure t

def inputGroups (t : Topology) : List Group := t.groups.filter (·.roles.input)

def outputGroups (t : Topology) : List Group := t.groups.filter (·.roles.output)

def totalSubgroups (t : Topology) : Nat := Numeric.total (t.groups.map Group.subgroups)

/-- How many weights a text for the topology has to announce. Pairs of linked units are counted
    in a 64-bit word, which wraps; arithmetic that is checked for overflow stops there instead. -/
def expectedLinkCount (t : Topology) : Nat :=
  (Numeric.total (t.groups.map fun target : Group =>
    Numeric.total (target.linksFrom.map fun source =>
      UInt64.ofNat target.units * .ofNat (((t.group? source).map Group.units).getD 0)))).toNat

def oversizedGroups (t : Topology) (maxGroupUnits : Nat) : List Group :=
  t.groups.filter fun g => maxGroupUnits < g.units

end Topology

end PerceptronMesh
