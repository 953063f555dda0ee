import WorkflowGraph.Service
import WorkflowGraph.Settings
import WorkflowGraph.Store.Tree
import WorkflowGraph.Store.Snapshot
import WorkflowGraph.CommandLine.Run
import WorkflowGraph.Main
import WorkflowGraph.Proofs.Assoc
import WorkflowGraph.Proofs.Leaves
import WorkflowGraph.Proofs.Resolution
import WorkflowGraph.Proofs.Reflattening
import WorkflowGraph.Proofs.NodeSteps
import WorkflowGraph.Proofs.Frame
import WorkflowGraph.Proofs.Targets
import WorkflowGraph.Proofs.LastWrite
import WorkflowGraph.Proofs.LoraEntries
import WorkflowGraph.Proofs.Composition
import WorkflowGraph.Proofs.Accepted
import WorkflowGraph.Proofs.FieldValues
import WorkflowGraph.Proofs.Gating
import WorkflowGraph.Proofs.Absence
import WorkflowGraph.Proofs.Replay
import WorkflowGraph.Proofs.Commutation
import WorkflowGraph.Proofs.Records
import WorkflowGraph.Proofs.NodeDocuments
import WorkflowGraph.Proofs.GraphDocuments
import WorkflowGraph.Proofs.Caching
import WorkflowGraph.Proofs.FileNames
import WorkflowGraph.Proofs.Listing
import WorkflowGraph.Proofs.Recognition
import WorkflowGraph.Proofs.Coherence
import WorkflowGraph.Proofs.Staleness
import WorkflowGraph.Proofs.Rounding
import WorkflowGraph.Proofs.Numerals
import WorkflowGraph.Proofs.JsonTexts
import WorkflowGraph.Proofs.ParsedDocuments
import WorkflowGraph.Proofs.SchemaRules
import WorkflowGraph.Proofs.OptionalMembers
import WorkflowGraph.Proofs.MappingDocuments
import WorkflowGraph.Proofs.FieldDocuments
import WorkflowGraph.Proofs.ConfigDocuments
import WorkflowGraph.Proofs.Bindings
import WorkflowGraph.Proofs.PrintedConfigs
import WorkflowGraph.Proofs.WrittenConfigs
import WorkflowGraph.Proofs.Sectioning
import WorkflowGraph.Proofs.InputOrder
import WorkflowGraph.Proofs.ActionBlocks
import WorkflowGraph.Proofs.Conformance
import WorkflowGraph.Proofs.CheckedValues
import WorkflowGraph.Proofs.Conditions
import WorkflowGraph.Proofs.UndeclaredValues
import WorkflowGraph.Proofs.SeedDraws
import WorkflowGraph.Proofs.IntegerRounding
import WorkflowGraph.Proofs.CheckedNumbers
import WorkflowGraph.Proofs.SideBySide
import WorkflowGraph.Proofs.NumberTexts
import WorkflowGraph.Proofs.RepeatedWrites
import WorkflowGraph.Proofs.ApiSteps
import WorkflowGraph.Proofs.Reapplication
import WorkflowGraph.Proofs.Applicability
import WorkflowGraph.Proofs.ShortLoaders
import WorkflowGraph.Proofs.FreshSlots
import WorkflowGraph.Proofs.Aliases
import WorkflowGraph.Proofs.MappingOrder
import WorkflowGraph.Proofs.ModeCodes
import WorkflowGraph.Proofs.AxisWrites
import WorkflowGraph.Proofs.Confinement
import WorkflowGraph.Proofs.Discovery
import WorkflowGraph.Proofs.Precedence
import WorkflowGraph.Proofs.Faults
import WorkflowGraph.Proofs.Wordings
import WorkflowGraph.Proofs.MissingMembers
import WorkflowGraph.Proofs.WellFormedConfigs
import WorkflowGraph.Proofs.ActionDocuments
import WorkflowGraph.Proofs.SettingsFiles
import WorkflowGraph.Proofs.FlatInputs
import WorkflowGraph.Proofs.NearestDoubles
import WorkflowGraph.Proofs.ShortDecimals
import WorkflowGraph.Proofs.StructuralEquality
import WorkflowGraph.Proofs.LooseEquality
