/-!
The functions and rules a network selects by name, with their wire codes. What
they compute is the business of the units that run them.
-/

namespace PerceptronMesh

/-- How the units handle time. -/
inductive NetworkKind where
  | feedForward
  | simpleRecurrent
  | rbptt
  | continuous
deriving DecidableEq, Repr, Inhabited

namespace NetworkKind

def all : List NetworkKind := [.feedForward, .simpleRecurrent, .rbptt, .continuous]

def code : NetworkKind → UInt8
  | .feedForward => 0
  | .simpleRecurrent => 1
  | .rbptt => 2
  | .continuous => 3

def name : NetworkKind → String
  | .feedForward => "feed_forward"
  | .simpleRecurrent => "simple_recurrent"
  | .rbptt => "rbptt"
  | .continuous => "continuous"

def ofName? (name : String) : Option NetworkKind := all.find? (·.name == name)

end NetworkKind

/-- A stage of an Input unit's pipeline. -/
inductive InputFunction where
  | integrator
  | softClamp
  | none
deriving DecidableEq, Repr, Inhabited

namespace InputFunction

def all : List InputFunction := [.integrator, .softClamp, .none]

def code : InputFunction → UInt8
  | .integrator => 0
  | .softClamp => 1
  | .none => 255

def name : InputFunction → String
  | .integrator => "integrator"
  | .softClamp => "soft_clamp"
  | .none => "none"

def ofName? (name : String) : Option InputFunction := all.find? (·.name == name)

end InputFunction

/-- A stage of a Threshold unit's pipeline. -/
inductive OutputFunction where
  | logistic
  | integrator
  | hardClamp
  | weakClamp
  | bias
  | none
deriving DecidableEq, Repr, Inhabited

namespace OutputFunction

def all : List OutputFunction := [.logistic, .integrator, .hardClamp, .weakClamp, .bias, .none]

def code : OutputFunction → UInt8
  | .logistic => 0
  | .integrator => 1
  | .hardClamp => 2
  | .weakClamp => 3
  | .bias => 4
  | .none => 255

def name : OutputFunction → String
  | .logistic => "logistic"
  | .integrator => "integrator"
  | .hardClamp => "hard_clamp"
  | .weakClamp => "weak_clamp"
  | .bias => "bias"
  | .none => "none"

def ofName? (name : String) : Option OutputFunction := all.find? (·.name == name)

end OutputFunction

/-- The convergence test of an output group. -/
inductive StopCriterion where
  | none
  | standard
  | max
deriving DecidableEq, Repr, Inhabited

namespace StopCriterion

def all : List StopCriterion := [.none, .standard, .max]

def code : StopCriterion → UInt8
  | .none => 0
  | .standard => 1
  | .max => 2

def name : StopCriterion → String
  | .none => "none"
  | .standard => "standard"
  | .max => "max"

def ofName? (name : String) : Option StopCriterion := all.find? (·.name == name)

end StopCriterion

/-- The error measure of an output group. -/
inductive ErrorFunction where
  | none
  | crossEntropy
  | squared
deriving DecidableEq, Repr, Inhabited

namespace ErrorFunction

def all : List ErrorFunction := [.none, .crossEntropy, .squared]

def code : ErrorFunction → UInt8
  | .none => 0
  | .crossEntropy => 1
  | .squared => 2

def name : ErrorFunction → String
  | .none => "none"
  | .crossEntropy => "cross_entropy"
  | .squared => "squared"

def ofName? (name : String) : Option ErrorFunction := all.find? (·.name == name)

end ErrorFunction

/-- The rule by which Weight units change their weights. -/
inductive UpdateFunction where
  | steepest
  | momentum
  | dougsMomentum
deriving DecidableEq, Repr

namespace UpdateFunction

instance : Inhabited UpdateFunction := ⟨.dougsMomentum⟩

def all : List UpdateFunction := [.steepest, .momentum, .dougsMomentum]

def code : UpdateFunction → UInt8
  | .steepest => 0
  | .momentum => 1
  | .dougsMomentum => 2

def name : UpdateFunction → String
  | .steepest => "steepest"
  | .momentum => "momentum"
  | .dougsMomentum => "dougs_momentum"

def ofName? (name : String) : Option UpdateFunction := all.find? (·.name == name)

end UpdateFunction

end PerceptronMesh
