import TwoPhase.Advice
import TwoPhase.Blank
import TwoPhase.Cache
import TwoPhase.CommandLine.Grammar
import TwoPhase.CommandLine.Invocation
import TwoPhase.CommandLine.Run
import TwoPhase.Computation
import TwoPhase.Delivery
import TwoPhase.Directive.Basic
import TwoPhase.Directive.Form
import TwoPhase.EditDistance
import TwoPhase.Evaluation
import TwoPhase.Failure
import TwoPhase.FileTree
import TwoPhase.Fragment.Basic
import TwoPhase.Fragment.Directory
import TwoPhase.Glyph
import TwoPhase.Json.Printer
import TwoPhase.Json.Reader
import TwoPhase.Main
import TwoPhase.NameMap
import TwoPhase.Path
import TwoPhase.Pattern
import TwoPhase.Proofs.Annotations
import TwoPhase.Proofs.CacheReadings
import TwoPhase.Proofs.CacheTransparency
import TwoPhase.Proofs.CachedRequests
import TwoPhase.Proofs.Calls
import TwoPhase.Proofs.CycleDiagnosis
import TwoPhase.Proofs.CycleSearch
import TwoPhase.Proofs.DeclarationArguments
import TwoPhase.Proofs.DefinitionReading
import TwoPhase.Proofs.DirectiveReading
import TwoPhase.Proofs.DirectoryBounds
import TwoPhase.Proofs.EchoedValues
import TwoPhase.Proofs.Family
import TwoPhase.Proofs.Forms
import TwoPhase.Proofs.FragmentRendering
import TwoPhase.Proofs.HeaderFidelity
import TwoPhase.Proofs.HeaderNames
import TwoPhase.Proofs.HeaderRoundTrip
import TwoPhase.Proofs.IncludeCaching
import TwoPhase.Proofs.IncludeNesting
import TwoPhase.Proofs.IncludeReading
import TwoPhase.Proofs.IncludedReferences
import TwoPhase.Proofs.ItemEvaluation
import TwoPhase.Proofs.ItemPasses
import TwoPhase.Proofs.Items
import TwoPhase.Proofs.JsonLexing
import TwoPhase.Proofs.JsonReading
import TwoPhase.Proofs.Numerals
import TwoPhase.Proofs.OrderIndependence
import TwoPhase.Proofs.PageRendering
import TwoPhase.Proofs.PairedRuns
import TwoPhase.Proofs.Passes
import TwoPhase.Proofs.PublishedNames
import TwoPhase.Proofs.RelatedLists
import TwoPhase.Proofs.Replacement
import TwoPhase.Proofs.Replay
import TwoPhase.Proofs.RequestIsolation
import TwoPhase.Proofs.Rounding
import TwoPhase.Proofs.RouteMatching
import TwoPhase.Proofs.RouteReversal
import TwoPhase.Proofs.Runs
import TwoPhase.Proofs.SetStatements
import TwoPhase.Proofs.Settlement
import TwoPhase.Proofs.ShelfEntries
import TwoPhase.Proofs.Stalls
import TwoPhase.Proofs.Substitution
import TwoPhase.Proofs.TypeCoercion
import TwoPhase.Proofs.TypedArguments
import TwoPhase.Proofs.Valuation
import TwoPhase.Proofs.VariableSets
import TwoPhase.Proofs.VerboseMode
import TwoPhase.Quotes
import TwoPhase.Request
import TwoPhase.Resolution.Run
import TwoPhase.Resolution.State
import TwoPhase.Response
import TwoPhase.Route.Basic
import TwoPhase.Route.Router
import TwoPhase.Settings
import TwoPhase.Settings.Loading
import TwoPhase.Settings.Reader
import TwoPhase.Sha256
import TwoPhase.Split
import TwoPhase.Summary
import TwoPhase.Terminal
import TwoPhase.Toml.Basic
import TwoPhase.Toml.Document
import TwoPhase.Toml.Scalar
import TwoPhase.Toml.Token
import TwoPhase.Variable.Coercion
import TwoPhase.Variable.Definition
import TwoPhase.Variable.Header
import TwoPhase.Variable.Set
import TwoPhase.WaitGraph
