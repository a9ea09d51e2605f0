import HeaderSurvey.CommandLine.Arguments
import HeaderSurvey.CommandLine.Directory
import HeaderSurvey.CommandLine.Plan
import HeaderSurvey.Declaration.Kind
import HeaderSurvey.Declaration.Location
import HeaderSurvey.Declaration.Node
import HeaderSurvey.Declaration.NodeCodec
import HeaderSurvey.Declaration.TypeUse
import HeaderSurvey.Diagnostic
import HeaderSurvey.Error
import HeaderSurvey.Json.Basic
import HeaderSurvey.Json.Decode
import HeaderSurvey.Json.Printer
import HeaderSurvey.Json.Reader
import HeaderSurvey.Main
import HeaderSurvey.Settings
import HeaderSurvey.Snapshot.Basic
import HeaderSurvey.Snapshot.NameMap
import HeaderSurvey.Survey.Assembly
import HeaderSurvey.Survey.Classification
import HeaderSurvey.Survey.Context
import HeaderSurvey.Survey.Finish
import HeaderSurvey.Survey.Macro
import HeaderSurvey.Survey.Places
import HeaderSurvey.Survey.Run
import HeaderSurvey.Survey.Session
import HeaderSurvey.Survey.Visit
import HeaderSurvey.Target.Architecture
import HeaderSurvey.Target.Platform
import HeaderSurvey.Text.Alphanumeric
import HeaderSurvey.Text.Blank
import HeaderSurvey.Text.Search
import HeaderSurvey.Text.Split
import HeaderSurvey.Toml.Document
import HeaderSurvey.Toml.Scalar
import HeaderSurvey.Toml.Table
import HeaderSurvey.Unit.Basic
import HeaderSurvey.Unit.Builder
import HeaderSurvey.Unit.Codec
import HeaderSurvey.Unit.Layout
import HeaderSurvey.Unit.Links
import HeaderSurvey.Unit.Validation
import HeaderSurvey.Unit.Vocabulary
import HeaderSurvey.Proofs.Classification
import HeaderSurvey.Proofs.Collecting
import HeaderSurvey.Proofs.Discovery
import HeaderSurvey.Proofs.Building
import HeaderSurvey.Proofs.Drain
import HeaderSurvey.Proofs.Elimination
import HeaderSurvey.Proofs.Override
import HeaderSurvey.Proofs.References
import HeaderSurvey.Proofs.Safety
import HeaderSurvey.Proofs.Succession
import HeaderSurvey.Proofs.Termination
import HeaderSurvey.Proofs.Construction
import HeaderSurvey.Proofs.Footprint
import HeaderSurvey.Proofs.Frontier
import HeaderSurvey.Proofs.Agreement
import HeaderSurvey.Proofs.Lookups
import HeaderSurvey.Proofs.Filter
import HeaderSurvey.Proofs.Documents
import HeaderSurvey.Proofs.CompactDocuments
import HeaderSurvey.Proofs.Records
import HeaderSurvey.Proofs.Platforms
import HeaderSurvey.Proofs.UnitDocuments
import HeaderSurvey.Proofs.SnapshotDocuments
import HeaderSurvey.Proofs.Cycles
import HeaderSurvey.Proofs.Resolution
import HeaderSurvey.Proofs.Layers
import HeaderSurvey.Proofs.Unseen
import HeaderSurvey.Proofs.Batches
import HeaderSurvey.Proofs.Aliases
import HeaderSurvey.Proofs.Occurrences
import HeaderSurvey.Proofs.Uniqueness
import HeaderSurvey.Proofs.Pruning
import HeaderSurvey.Proofs.Inertness
import HeaderSurvey.Proofs.Scan
import HeaderSurvey.Proofs.Descriptions
import HeaderSurvey.Proofs.Placement
import HeaderSurvey.Proofs.Literals
import HeaderSurvey.Proofs.Persistence
import HeaderSurvey.Proofs.NaturalLayout
import HeaderSurvey.Proofs.Wrappers
import HeaderSurvey.Proofs.Spacing
import HeaderSurvey.Proofs.Transparency
import HeaderSurvey.Proofs.PointerAliases
import HeaderSurvey.Proofs.Signatures
import HeaderSurvey.Proofs.SynthesizedNames
import HeaderSurvey.Proofs.Shortening
import HeaderSurvey.Proofs.Dimensions
import HeaderSurvey.Proofs.Levels
import HeaderSurvey.Proofs.CopiedLayouts
import HeaderSurvey.Proofs.ArraySizes
import HeaderSurvey.Proofs.CycleReports
import HeaderSurvey.Proofs.Shapes
import HeaderSurvey.Proofs.Room
import HeaderSurvey.Proofs.Restoration
import HeaderSurvey.Proofs.TagWords
import HeaderSurvey.Proofs.TagSpellings
