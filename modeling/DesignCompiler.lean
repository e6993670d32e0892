import DesignCompiler.Arena
import DesignCompiler.Assembly
import DesignCompiler.Assembly.Decoration
import DesignCompiler.Assembly.Label
import DesignCompiler.Base64
import DesignCompiler.Binary64
import DesignCompiler.Classification
import DesignCompiler.CommandLine.Help
import DesignCompiler.CommandLine.Invocation
import DesignCompiler.CommandLine.Run
import DesignCompiler.Compilation
import DesignCompiler.Config
import DesignCompiler.Config.Reader
import DesignCompiler.Config.Source
import DesignCompiler.Config.Validation
import DesignCompiler.Decimal
import DesignCompiler.Design.Color
import DesignCompiler.Design.File
import DesignCompiler.Design.Layout
import DesignCompiler.Design.Node
import DesignCompiler.Design.Paint
import DesignCompiler.Design.Reaction
import DesignCompiler.Design.Text
import DesignCompiler.Diagnostics
import DesignCompiler.Digest.Sha256
import DesignCompiler.Document
import DesignCompiler.Duration
import DesignCompiler.Failure
import DesignCompiler.Fingerprint
import DesignCompiler.Geometry
import DesignCompiler.Host
import DesignCompiler.Host.Disk
import DesignCompiler.Inspection
import DesignCompiler.Json
import DesignCompiler.Json.Printer
import DesignCompiler.Json.Reader
import DesignCompiler.Json.Record
import DesignCompiler.Main
import DesignCompiler.Manifest
import DesignCompiler.Pattern.Expr
import DesignCompiler.Pattern.Reader
import DesignCompiler.Placement
import DesignCompiler.Plan
import DesignCompiler.Proofs.Accounting
import DesignCompiler.Proofs.Agreement
import DesignCompiler.Proofs.Association
import DesignCompiler.Proofs.Bounds
import DesignCompiler.Proofs.Calendar
import DesignCompiler.Proofs.CallTraces
import DesignCompiler.Proofs.Canonical
import DesignCompiler.Proofs.Characters
import DesignCompiler.Proofs.ChildInstances
import DesignCompiler.Proofs.Clipping
import DesignCompiler.Proofs.CollapseBounds
import DesignCompiler.Proofs.Comparison
import DesignCompiler.Proofs.Compiling
import DesignCompiler.Proofs.Completion
import DesignCompiler.Proofs.DiffPrediction
import DesignCompiler.Proofs.Difference
import DesignCompiler.Proofs.Digits
import DesignCompiler.Proofs.Doubles
import DesignCompiler.Proofs.Drawing
import DesignCompiler.Proofs.EffectBounds
import DesignCompiler.Proofs.Emission
import DesignCompiler.Proofs.Escaping
import DesignCompiler.Proofs.Evaluation
import DesignCompiler.Proofs.FailFast
import DesignCompiler.Proofs.FailedReplacement
import DesignCompiler.Proofs.FailedRuns
import DesignCompiler.Proofs.Filling
import DesignCompiler.Proofs.FingerprintFacts
import DesignCompiler.Proofs.FlattenedHashes
import DesignCompiler.Proofs.Flowing
import DesignCompiler.Proofs.FontWarnings
import DesignCompiler.Proofs.Furnishing
import DesignCompiler.Proofs.Growth
import DesignCompiler.Proofs.HiddenNodes
import DesignCompiler.Proofs.History
import DesignCompiler.Proofs.InertCopies
import DesignCompiler.Proofs.JsonText
import DesignCompiler.Proofs.Keypoints
import DesignCompiler.Proofs.LayoutFidelity
import DesignCompiler.Proofs.LedgerFiles
import DesignCompiler.Proofs.LedgerHistories
import DesignCompiler.Proofs.LedgerWrites
import DesignCompiler.Proofs.LegalDocuments
import DesignCompiler.Proofs.Lifting
import DesignCompiler.Proofs.LineEnds
import DesignCompiler.Proofs.Listing
import DesignCompiler.Proofs.Magnitudes
import DesignCompiler.Proofs.Markup
import DesignCompiler.Proofs.Moments
import DesignCompiler.Proofs.Noise
import DesignCompiler.Proofs.Occurrence
import DesignCompiler.Proofs.Ordering
import DesignCompiler.Proofs.Passes
import DesignCompiler.Proofs.Pipeline
import DesignCompiler.Proofs.Planning
import DesignCompiler.Proofs.Planting
import DesignCompiler.Proofs.Preservation
import DesignCompiler.Proofs.Protocol
import DesignCompiler.Proofs.Pruning
import DesignCompiler.Proofs.Readback
import DesignCompiler.Proofs.Reading
import DesignCompiler.Proofs.Recognition
import DesignCompiler.Proofs.Recompile
import DesignCompiler.Proofs.Reloading
import DesignCompiler.Proofs.Remainders
import DesignCompiler.Proofs.Rendering
import DesignCompiler.Proofs.Renumbering
import DesignCompiler.Proofs.Reordering
import DesignCompiler.Proofs.RequestUrls
import DesignCompiler.Proofs.Rereading
import DesignCompiler.Proofs.Resolution
import DesignCompiler.Proofs.Resolving
import DesignCompiler.Proofs.Restoring
import DesignCompiler.Proofs.Reuse
import DesignCompiler.Proofs.Revision
import DesignCompiler.Proofs.Roles
import DesignCompiler.Proofs.Roundtrip
import DesignCompiler.Proofs.SharedAssets
import DesignCompiler.Proofs.ShownPictures
import DesignCompiler.Proofs.SnapshotFiles
import DesignCompiler.Proofs.Spacing
import DesignCompiler.Proofs.Spelling
import DesignCompiler.Proofs.Stacking
import DesignCompiler.Proofs.Storage
import DesignCompiler.Proofs.StrokeCollapse
import DesignCompiler.Proofs.StrokeGroups
import DesignCompiler.Proofs.Tallying
import DesignCompiler.Proofs.TextRules
import DesignCompiler.Proofs.Thinning
import DesignCompiler.Proofs.TouchedFiles
import DesignCompiler.Proofs.Transparency
import DesignCompiler.Proofs.WarningKinds
import DesignCompiler.Proofs.Wording
import DesignCompiler.Proofs.Writing
import DesignCompiler.Proofs.ZOrder
import DesignCompiler.Report
import DesignCompiler.Rules
import DesignCompiler.Scalar
import DesignCompiler.Scalar.Double
import DesignCompiler.Scalar.Rational
import DesignCompiler.Setting
import DesignCompiler.Signature
import DesignCompiler.Snapshot
import DesignCompiler.Store.Client
import DesignCompiler.Store.Content
import DesignCompiler.Store.Ledger
import DesignCompiler.Store.Resolution
import DesignCompiler.Store.Script
import DesignCompiler.Store.Uploader
import DesignCompiler.Stroke
import DesignCompiler.Text.Case
import DesignCompiler.Text.Category
import DesignCompiler.Text.Class
import DesignCompiler.Text.Script
import DesignCompiler.Timestamp
import DesignCompiler.Toml
import DesignCompiler.Url
import DesignCompiler.Url.Domain
import DesignCompiler.Url.Escape
import DesignCompiler.Url.Fault
import DesignCompiler.Url.Host
import DesignCompiler.Url.Punycode
