import CodeAtlas.Command.Arguments
import CodeAtlas.Command.Report
import CodeAtlas.Command.Run
import CodeAtlas.Config.Basic
import CodeAtlas.Config.Read
import CodeAtlas.Digest.Sha256
import CodeAtlas.Directory
import CodeAtlas.Error
import CodeAtlas.Facts.Basic
import CodeAtlas.Facts.Callee
import CodeAtlas.Facts.Calls
import CodeAtlas.Facts.Declarator
import CodeAtlas.Facts.Decorators
import CodeAtlas.Facts.Doc
import CodeAtlas.Facts.Extract
import CodeAtlas.Facts.Fingerprint
import CodeAtlas.Facts.Folding
import CodeAtlas.Facts.Heuristics
import CodeAtlas.Facts.Imports
import CodeAtlas.Facts.Json
import CodeAtlas.Facts.Outline
import CodeAtlas.Facts.Profile
import CodeAtlas.Facts.Signature
import CodeAtlas.Facts.Summary
import CodeAtlas.FileSystem
import CodeAtlas.Format.Digits
import CodeAtlas.Format.Json
import CodeAtlas.Format.Toml.Basic
import CodeAtlas.Format.Toml.Number
import CodeAtlas.Format.Toml.Reader
import CodeAtlas.Format.Yaml.Printer
import CodeAtlas.Format.Yaml.Scalar
import CodeAtlas.Graph.Basic
import CodeAtlas.Graph.Calls
import CodeAtlas.Graph.Imports
import CodeAtlas.Graph.Lookup
import CodeAtlas.Graph.Preorder
import CodeAtlas.Graph.Query
import CodeAtlas.Graph.Session
import CodeAtlas.Graph.Snapshot
import CodeAtlas.Graph.Stats
import CodeAtlas.Graph.Tables
import CodeAtlas.Ignore.Rule
import CodeAtlas.Ignore.Walk
import CodeAtlas.Language
import CodeAtlas.Language.Grammar
import CodeAtlas.Main
import CodeAtlas.ModuleName
import CodeAtlas.Path
import CodeAtlas.Proofs.AliasOrder
import CodeAtlas.Proofs.Ambiguity
import CodeAtlas.Proofs.Attribution
import CodeAtlas.Proofs.BracketedWalk
import CodeAtlas.Proofs.CallChains
import CodeAtlas.Proofs.CallKinds
import CodeAtlas.Proofs.CallNames
import CodeAtlas.Proofs.CallRoutes
import CodeAtlas.Proofs.Climb
import CodeAtlas.Proofs.Closure
import CodeAtlas.Proofs.Collection
import CodeAtlas.Proofs.Compaction
import CodeAtlas.Proofs.Conservation
import CodeAtlas.Proofs.Consistency
import CodeAtlas.Proofs.DecoratorCalls
import CodeAtlas.Proofs.Directories
import CodeAtlas.Proofs.Documentation
import CodeAtlas.Proofs.Ecosystems
import CodeAtlas.Proofs.Enclosure
import CodeAtlas.Proofs.EvaluationOrder
import CodeAtlas.Proofs.ExtraBuiltins
import CodeAtlas.Proofs.Extraction
import CodeAtlas.Proofs.FailureIsolation
import CodeAtlas.Proofs.FileOrder
import CodeAtlas.Proofs.Fingerprints
import CodeAtlas.Proofs.FirstError
import CodeAtlas.Proofs.GrammarTables
import CodeAtlas.Proofs.ImportCycles
import CodeAtlas.Proofs.ImportReach
import CodeAtlas.Proofs.ImportStatements
import CodeAtlas.Proofs.ImportedClasses
import CodeAtlas.Proofs.InheritanceOrder
import CodeAtlas.Proofs.InlineModules
import CodeAtlas.Proofs.InputOrder
import CodeAtlas.Proofs.Instantiation
import CodeAtlas.Proofs.Itinerary
import CodeAtlas.Proofs.JsonCodec
import CodeAtlas.Proofs.JsonText
import CodeAtlas.Proofs.Linking
import CodeAtlas.Proofs.Lists
import CodeAtlas.Proofs.ModuleLevel
import CodeAtlas.Proofs.ModuleLocation
import CodeAtlas.Proofs.ModulePaths
import CodeAtlas.Proofs.NamePrecedence
import CodeAtlas.Proofs.NewEntries
import CodeAtlas.Proofs.OutlineSteps
import CodeAtlas.Proofs.OwnNames
import CodeAtlas.Proofs.ParentLinks
import CodeAtlas.Proofs.PathOrder
import CodeAtlas.Proofs.PathSpecifiers
import CodeAtlas.Proofs.PhaseOrder
import CodeAtlas.Proofs.Phases
import CodeAtlas.Proofs.Queries
import CodeAtlas.Proofs.RecordedCalls
import CodeAtlas.Proofs.RelativeDepth
import CodeAtlas.Proofs.RelativeImports
import CodeAtlas.Proofs.Renumbering
import CodeAtlas.Proofs.Representation
import CodeAtlas.Proofs.Restriction
import CodeAtlas.Proofs.ScanSettings
import CodeAtlas.Proofs.ScopeOpenings
import CodeAtlas.Proofs.ScopeSearch
import CodeAtlas.Proofs.ScopeTree
import CodeAtlas.Proofs.ScriptFiles
import CodeAtlas.Proofs.Segments
import CodeAtlas.Proofs.Selection
import CodeAtlas.Proofs.SeparatorCuts
import CodeAtlas.Proofs.SimpleNames
import CodeAtlas.Proofs.Skeletons
import CodeAtlas.Proofs.SoundFolding
import CodeAtlas.Proofs.Splitting
import CodeAtlas.Proofs.Statistics
import CodeAtlas.Proofs.StoredFiles
import CodeAtlas.Proofs.SymbolReport
import CodeAtlas.Proofs.UseTrees
import CodeAtlas.Proofs.Wildcards
import CodeAtlas.Text.Basic
import CodeAtlas.Text.Case
import CodeAtlas.Text.Letter
import CodeAtlas.Text.Pattern
import CodeAtlas.Text.Qualified
import CodeAtlas.Tree.Basic
import CodeAtlas.Tree.Cursor
import CodeAtlas.Tree.Document
import CodeAtlas.Tree.Listing
import CodeAtlas.Unit.Basic
import CodeAtlas.Unit.Run
import CodeAtlas.Unit.Scan
import CodeAtlas.Graph.Relations
import CodeAtlas.Proofs.CallWalk
import CodeAtlas.Proofs.RelationEdges
