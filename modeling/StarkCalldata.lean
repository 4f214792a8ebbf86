import StarkCalldata.Main
import StarkCalldata.CommandLine.Execution
import StarkCalldata.Preparation
import StarkCalldata.Fri
import StarkCalldata.Challenge.Basic
import StarkCalldata.Task.Metadata
import StarkCalldata.Memory.PageFacts
import StarkCalldata.Memory.PermutationProduct
import StarkCalldata.Proof.Parsing
import StarkCalldata.Channel
import StarkCalldata.Run
import StarkCalldata.Binary64.Logarithm
import StarkCalldata.Binary64.Shortest
import StarkCalldata.Field
import StarkCalldata.Json.Display
import StarkCalldata.Json.Path
import StarkCalldata.Json.Reader
import StarkCalldata.Json.Writer
import StarkCalldata.Keccak.Sponge
import StarkCalldata.Text.Numeral
import StarkCalldata.Text.Quoted
import StarkCalldata.Text.Utf8
import StarkCalldata.Proofs.Serialization
import StarkCalldata.Proofs.Json.Token
import StarkCalldata.Proofs.PublicView
import StarkCalldata.Proofs.WordRange
import StarkCalldata.Proofs.Taxonomy
import StarkCalldata.Proofs.SelfConsistency
import StarkCalldata.Proofs.Annotations
import StarkCalldata.Proofs.Preparation
import StarkCalldata.Proofs.Document
import StarkCalldata.Proofs.Challenge.Reference
import StarkCalldata.Proofs.Challenge.Replay
import StarkCalldata.Proofs.PublicInput.Range
import StarkCalldata.Proofs.PublicInput.Binding
import StarkCalldata.Proofs.PublicInput.Vector
import StarkCalldata.Proofs.Task.Topology
import StarkCalldata.Proofs.Task.Metadata
import StarkCalldata.Proofs.Memory.View
import StarkCalldata.Proofs.Memory.Commitment
import StarkCalldata.Proofs.Memory.Registration
import StarkCalldata.Proofs.Memory.PageFacts
import StarkCalldata.Proofs.Memory.PermutationProduct
import StarkCalldata.Proofs.Memory.ContinuousPage
import StarkCalldata.Proofs.Memory.PageTable
import StarkCalldata.Proofs.Proof.Writing
import StarkCalldata.Proofs.Proof.WellFormed
import StarkCalldata.Proofs.Proof.Parsing
import StarkCalldata.Proofs.Json.Reader
import StarkCalldata.Proofs.Word
import StarkCalldata.Proofs.Keccak.Rows
import StarkCalldata.Proofs.Text.Hex
import StarkCalldata.Proofs.Outcome
import StarkCalldata.Proofs.Challenge.Transcript
import StarkCalldata.Proofs.Challenge.Occurrence
import StarkCalldata.Proofs.Challenge.Numbering
import StarkCalldata.Proofs.LoggedChallenges
import StarkCalldata.Proofs.Proof.Image
import StarkCalldata.Proofs.RangeChecks
import StarkCalldata.Proofs.Disk
import StarkCalldata.Proofs.Json.Pretty
import StarkCalldata.Proofs.Publication
import StarkCalldata.Proofs.Text.Utf8
import StarkCalldata.Proofs.Challenge.Sampling
import StarkCalldata.Proofs.Channel.History
import StarkCalldata.Proofs.Channel.Orbit
import StarkCalldata.Proofs.Task.Walk
import StarkCalldata.Proofs.Task.Separation
import StarkCalldata.Proofs.Encoding
import StarkCalldata.Proofs.Field
import StarkCalldata.Proofs.Memory.Identification
import StarkCalldata.Proofs.Memory.RegisteredProduct
import StarkCalldata.Proofs.Memory.Partition
import StarkCalldata.Proofs.Memory.DenseLayout
import StarkCalldata.Proofs.Failures
import StarkCalldata.Proofs.Journal
import StarkCalldata.Proofs.CommandLine
import StarkCalldata.Proofs.Proof.Bytes
import StarkCalldata.Proofs.Proof.Numbers
import StarkCalldata.Proofs.Proof.Harm
import StarkCalldata.Proofs.Binary64
import StarkCalldata.Proofs.BitLength
import StarkCalldata.Proofs.Fri
import StarkCalldata.Proofs.Irrelevance
import StarkCalldata.Proofs.Proof.Variation
import StarkCalldata.Proofs.Json.Variation
