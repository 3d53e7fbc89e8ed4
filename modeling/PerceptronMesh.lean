import PerceptronMesh.Numeric.Decimal
import PerceptronMesh.Text.Line
import PerceptronMesh.Wire.Field
import PerceptronMesh.Graph.Partition
import PerceptronMesh.Graph.Checksum
import PerceptronMesh.Compile.Phase
import PerceptronMesh.Compile.Basic
import PerceptronMesh.Stage.Descriptor
import PerceptronMesh.Stage.Outputs
import PerceptronMesh.Stage.Report
import PerceptronMesh.Stage.Outcome
import PerceptronMesh.Network.State
import PerceptronMesh.Example.Set
import PerceptronMesh.Payload.Build
import PerceptronMesh.Weights.Load
import PerceptronMesh.Placement.Loopback
import PerceptronMesh.Placement.Rehearsal
import PerceptronMesh.Network.Stage
import PerceptronMesh.Describe.Topology
import PerceptronMesh.Describe.Plan
import PerceptronMesh.Describe.Example
import PerceptronMesh.Describe.Network
import PerceptronMesh.Describe.Names
import PerceptronMesh.Describe.Fixed
import PerceptronMesh.NetworkFile.Reading
import PerceptronMesh.NetworkFile.Session
import PerceptronMesh.Main
import PerceptronMesh.Describe.NetworkFile
import PerceptronMesh.Proofs.Topology.Growth
import PerceptronMesh.Proofs.Topology.Links
import PerceptronMesh.Proofs.Partition.Tree
import PerceptronMesh.Proofs.Partition.Balance
import PerceptronMesh.Proofs.Partition.Plan
import PerceptronMesh.Proofs.Partition.Split
import PerceptronMesh.Proofs.Graph.Connection
import PerceptronMesh.Proofs.Graph.Partitions
import PerceptronMesh.Proofs.Compile.Wired
import PerceptronMesh.Proofs.Compile.Units
import PerceptronMesh.Proofs.Compile.Senders
import PerceptronMesh.Proofs.Scoreboard.Expected
import PerceptronMesh.Proofs.Compile.Audit
import PerceptronMesh.Proofs.Compile.Climb
import PerceptronMesh.Proofs.Compile.Reduction
import PerceptronMesh.Proofs.Compile.Parted
import PerceptronMesh.Proofs.Topology.Filled
import PerceptronMesh.Proofs.Topology.Outputs
import PerceptronMesh.Proofs.Wire.Items
import PerceptronMesh.Proofs.Payload.Core
import PerceptronMesh.Proofs.Payload.Weights
import PerceptronMesh.Proofs.Payload.Threshold
import PerceptronMesh.Proofs.Payload.Total
import PerceptronMesh.Proofs.Payload.Held
import PerceptronMesh.Proofs.Weights.Order
import PerceptronMesh.Proofs.Weights.Text
import PerceptronMesh.Proofs.Weights.Delivery
import PerceptronMesh.Proofs.Placement.Step
import PerceptronMesh.Proofs.Placement.Loopback
import PerceptronMesh.Proofs.Placement.Keys
import PerceptronMesh.Proofs.Network.Checks
import PerceptronMesh.Proofs.Network.Loaded
import PerceptronMesh.Proofs.Network.Preflight
import PerceptronMesh.Proofs.Network.Refresh
import PerceptronMesh.Proofs.Network.Prepare
import PerceptronMesh.Proofs.Network.Stages
import PerceptronMesh.Proofs.Network.Calls
import PerceptronMesh.Proofs.Example.Binding
import PerceptronMesh.Proofs.Example.Active
import PerceptronMesh.Proofs.Network.Attached
import PerceptronMesh.Proofs.Network.Bound
import PerceptronMesh.Proofs.Example.Obtainable
import PerceptronMesh.Proofs.Example.Lists
import PerceptronMesh.Proofs.Example.Compilation
import PerceptronMesh.Proofs.Placement.Echo
import PerceptronMesh.Proofs.Placement.Writers
import PerceptronMesh.Proofs.Placement.Recording
import PerceptronMesh.Proofs.Network.Recording
import PerceptronMesh.Proofs.Network.Aborted
import PerceptronMesh.Proofs.Network.Refused
import PerceptronMesh.Proofs.Placement.Logged
import PerceptronMesh.Proofs.Network.Traffic
import PerceptronMesh.Proofs.Network.Since
import PerceptronMesh.Proofs.Network.Controller
import PerceptronMesh.Proofs.Network.View
import PerceptronMesh.Proofs.Network.Uses
import PerceptronMesh.Proofs.Weights.Blocks
import PerceptronMesh.Proofs.Network.Lifecycle
import PerceptronMesh.Proofs.Network.Invariant
import PerceptronMesh.Proofs.Placement.Books
import PerceptronMesh.Proofs.Network.Accounts
import PerceptronMesh.Proofs.Example.Merged
import PerceptronMesh.Proofs.Example.Written
import PerceptronMesh.Proofs.Example.Starred
import PerceptronMesh.Proofs.Weights.Acceptance
import PerceptronMesh.Proofs.Weights.Loading
import PerceptronMesh.Proofs.Compile.StopChain
import PerceptronMesh.Proofs.Example.Layout
import PerceptronMesh.Proofs.Compile.Fault
import PerceptronMesh.Proofs.Compile.Size
import PerceptronMesh.Proofs.Example.Given
import PerceptronMesh.Proofs.Payload.Tiling
import PerceptronMesh.Proofs.Network.OutputTargets
import PerceptronMesh.Proofs.Placement.Failed
import PerceptronMesh.Proofs.Network.OutputFile
import PerceptronMesh.Proofs.Topology.InPlace
import PerceptronMesh.Proofs.Topology.Construction
import PerceptronMesh.Proofs.Wire.Reader
import PerceptronMesh.Proofs.Numeric.Exact
import PerceptronMesh.Proofs.Fixed.Encoding
import PerceptronMesh.Proofs.Placement.Splitting
import PerceptronMesh.Proofs.Graph.Assembled
import PerceptronMesh.Proofs.Graph.Checksum
import PerceptronMesh.Proofs.Partition.Lookup
import PerceptronMesh.Proofs.Payload.Records
import PerceptronMesh.Proofs.Placement.Decoding
import PerceptronMesh.Proofs.Payload.Counts
