import UsagePolicy.Analyzer
import UsagePolicy.Category
import UsagePolicy.Cli.Arguments
import UsagePolicy.Cli.Output
import UsagePolicy.Cli.Run
import UsagePolicy.Cli.Switch
import UsagePolicy.Config
import UsagePolicy.ConfigFile
import UsagePolicy.Decimal
import UsagePolicy.Descent
import UsagePolicy.Descriptor
import UsagePolicy.Diagnostic
import UsagePolicy.Discovery
import UsagePolicy.Document.Configs
import UsagePolicy.Document.Nodes
import UsagePolicy.Document.Reports
import UsagePolicy.Document.Rules
import UsagePolicy.Document.Symbols
import UsagePolicy.Document.Trees
import UsagePolicy.Engine
import UsagePolicy.Extraction
import UsagePolicy.FileTree
import UsagePolicy.Glob
import UsagePolicy.Ignore.Global
import UsagePolicy.Ignore.Layer
import UsagePolicy.Ignore.Pattern
import UsagePolicy.Ignore.Rules
import UsagePolicy.Json.Basic
import UsagePolicy.Json.Draft
import UsagePolicy.Json.Print
import UsagePolicy.Json.Record
import UsagePolicy.Json.Tagged
import UsagePolicy.Lines
import UsagePolicy.Main
import UsagePolicy.Node
import UsagePolicy.Path
import UsagePolicy.Preset
import UsagePolicy.Registry
import UsagePolicy.Rule
import UsagePolicy.RuleDocument
import UsagePolicy.RuleError
import UsagePolicy.Scope
import UsagePolicy.Severity
import UsagePolicy.Site
import UsagePolicy.Span
import UsagePolicy.Symbol
import UsagePolicy.SymbolModel
import UsagePolicy.SymbolTable
import UsagePolicy.Template
import UsagePolicy.Text
import UsagePolicy.Toml.Parse
import UsagePolicy.Toml.Quoted
import UsagePolicy.Toml.Scalar
import UsagePolicy.Toml.Table
import UsagePolicy.Tree
import UsagePolicy.Proofs.Descent.Calls
import UsagePolicy.Proofs.Descent.Coverage
import UsagePolicy.Proofs.Walk
import UsagePolicy.Proofs.Descent.Findings
import UsagePolicy.Proofs.Descent.Size
import UsagePolicy.Proofs.Descent.Verdicts
import UsagePolicy.Proofs.Descent.Bounds
import UsagePolicy.Proofs.Descent.Plain
import UsagePolicy.Proofs.Descent.State
import UsagePolicy.Proofs.Resolution.Nodes
import UsagePolicy.Proofs.Resolution.Tables
import UsagePolicy.Proofs.Resolution.Rebinding
import UsagePolicy.Proofs.Questions
import UsagePolicy.Proofs.Resolution.Relocation
import UsagePolicy.Proofs.Registry.Merging
import UsagePolicy.Proofs.Registry.Composition
import UsagePolicy.Proofs.Extraction
import UsagePolicy.Proofs.Scopes
import UsagePolicy.Proofs.Sites
import UsagePolicy.Proofs.Justification
import UsagePolicy.Proofs.Documents.Texts
import UsagePolicy.Proofs.Analysis
import UsagePolicy.Proofs.Template
import UsagePolicy.Proofs.Rendering
import UsagePolicy.Proofs.Failure
import UsagePolicy.Proofs.Registry.Locations
import UsagePolicy.Proofs.Registry.Families
import UsagePolicy.Proofs.Registry.Validity
import UsagePolicy.Proofs.Registry.Loading
import UsagePolicy.Proofs.Reporting
import UsagePolicy.Proofs.Selection
import UsagePolicy.Proofs.Reshaping
import UsagePolicy.Proofs.Resolution.Unread
import UsagePolicy.Proofs.Documents.Arrangement
import UsagePolicy.Proofs.NamespacePaths
