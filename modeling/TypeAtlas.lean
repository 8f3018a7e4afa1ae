import TypeAtlas.Main
import TypeAtlas.CommandLine.LogFormat
import TypeAtlas.Graph.Directory
import TypeAtlas.Graph.Report
import TypeAtlas.Json.Edit
import TypeAtlas.Proofs.Tree.Preorder
import TypeAtlas.Proofs.Walk.Plan
import TypeAtlas.Proofs.Walk.Visit
import TypeAtlas.Proofs.Walk.Step
import TypeAtlas.Proofs.Walk.Closure
import TypeAtlas.Proofs.Walk.Nodes
import TypeAtlas.Proofs.View.Describe
import TypeAtlas.Proofs.View.Session
import TypeAtlas.Proofs.View.Unwrap
import TypeAtlas.Proofs.View.Exploration
import TypeAtlas.Proofs.View.Scopes
import TypeAtlas.Proofs.Graph.Growth
import TypeAtlas.Proofs.Merge.Growth
import TypeAtlas.Proofs.Graph.Handles
import TypeAtlas.Proofs.Graph.Properties
import TypeAtlas.Proofs.Graph.Printing
import TypeAtlas.Proofs.Graph.Copies
import TypeAtlas.Proofs.Merge.Constituents
import TypeAtlas.Proofs.Merge.Memo
import TypeAtlas.Proofs.Merge.Outcome
import TypeAtlas.Proofs.Merge.Members
import TypeAtlas.Proofs.Merge.SharedTypes
import TypeAtlas.Proofs.Merge.Expansion
import TypeAtlas.Proofs.Graph.Stored
import TypeAtlas.Proofs.Merge.Synthesis
import TypeAtlas.Proofs.Program.Frame
import TypeAtlas.Proofs.Graph.Carrying
import TypeAtlas.Proofs.Program.Repeat
import TypeAtlas.Proofs.Program.References
import TypeAtlas.Proofs.Graph.Snapshot
import TypeAtlas.Proofs.View.Codec
import TypeAtlas.Proofs.Wire.Correlation
import TypeAtlas.Proofs.Wire.Framing
import TypeAtlas.Proofs.Wire.Inspection
import TypeAtlas.Proofs.Wire.Outcomes
import TypeAtlas.Proofs.Graph.Built
import TypeAtlas.Proofs.Walk.Depth
import TypeAtlas.Proofs.Walk.Levels
import TypeAtlas.Proofs.View.Batch
import TypeAtlas.Proofs.View.Shown
import TypeAtlas.Proofs.View.Transparency
import TypeAtlas.Proofs.Graph.PropertyNames
import TypeAtlas.Proofs.Merge.NameByName
import TypeAtlas.Proofs.Merge.Meaning
import TypeAtlas.Proofs.Graph.Innermost
import TypeAtlas.Proofs.View.Passage
import TypeAtlas.Proofs.Merge.Unaliased
import TypeAtlas.Proofs.Graph.OperatorTexts
import TypeAtlas.Proofs.Tree.Index
import TypeAtlas.Proofs.View.Layers
import TypeAtlas.Proofs.Graph.MemberTypes
import TypeAtlas.Proofs.View.Filling
