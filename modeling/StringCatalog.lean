import StringCatalog.Catalog.Basic
import StringCatalog.Catalog.Extraction
import StringCatalog.Catalog.Reader
import StringCatalog.CommandLine.Invocation
import StringCatalog.CommandLine.Program
import StringCatalog.CommandLine.Reach
import StringCatalog.Config.Basic
import StringCatalog.Config.Reader
import StringCatalog.Decimal.Binary64
import StringCatalog.Decimal.Shortest
import StringCatalog.Format.Argument
import StringCatalog.Format.Kind
import StringCatalog.Format.Specifier
import StringCatalog.Format.Template
import StringCatalog.GenerationError
import StringCatalog.Json.Basic
import StringCatalog.Json.Reader
import StringCatalog.Main
import StringCatalog.Namespace.Collision
import StringCatalog.Namespace.Tree
import StringCatalog.OrderedMap
import StringCatalog.Path
import StringCatalog.Project.Diagnosis
import StringCatalog.Project.Generation
import StringCatalog.Project.Session
import StringCatalog.Project.Setup
import StringCatalog.Proofs.Catalog.Branches
import StringCatalog.Proofs.Catalog.Extraction
import StringCatalog.Proofs.Catalog.Strictness
import StringCatalog.Proofs.CommandLine.Agreement
import StringCatalog.Proofs.Format.Expansion
import StringCatalog.Proofs.Format.Extension
import StringCatalog.Proofs.Format.Positional
import StringCatalog.Proofs.Format.Reconcile
import StringCatalog.Proofs.Format.Scan
import StringCatalog.Proofs.Format.Slots
import StringCatalog.Proofs.Format.Specifier
import StringCatalog.Proofs.Format.Token
import StringCatalog.Proofs.Namespace.AccessPath
import StringCatalog.Proofs.Namespace.Collision
import StringCatalog.Proofs.Namespace.Entries
import StringCatalog.Proofs.OrderedMap
import StringCatalog.Proofs.Path
import StringCatalog.Proofs.Project.Diagnosis
import StringCatalog.Proofs.Project.Generation
import StringCatalog.Proofs.Project.Session
import StringCatalog.Proofs.Sequence
import StringCatalog.Proofs.Swift.BareName
import StringCatalog.Proofs.Swift.Block
import StringCatalog.Proofs.Swift.Declaration
import StringCatalog.Proofs.Swift.DefaultValue
import StringCatalog.Proofs.Swift.Delimiter
import StringCatalog.Proofs.Swift.Identifier
import StringCatalog.Proofs.Swift.Listing
import StringCatalog.Proofs.Swift.LiteralReader
import StringCatalog.Proofs.Swift.Source
import StringCatalog.Proofs.Swift.StringLiteral
import StringCatalog.Proofs.Swift.Totality
import StringCatalog.Proofs.Text.Basic
import StringCatalog.Proofs.Text.Distinct
import StringCatalog.Proofs.Text.Lines
import StringCatalog.Proofs.Validation
import StringCatalog.Resource
import StringCatalog.Swift.AccessLevel
import StringCatalog.Swift.Declaration
import StringCatalog.Swift.Identifier
import StringCatalog.Swift.Literal
import StringCatalog.Swift.Source
import StringCatalog.Text.Alphanumeric
import StringCatalog.Text.Basic
import StringCatalog.Text.Blank
import StringCatalog.Text.CodePoint
import StringCatalog.Text.CodePointSet
import StringCatalog.Text.Digit
import StringCatalog.Text.LetterCase
import StringCatalog.Text.Lines
import StringCatalog.Text.Printable
import StringCatalog.Text.Quoted
import StringCatalog.Validation
import StringCatalog.Value
import StringCatalog.Workspace.Changes
import StringCatalog.Workspace.Failure
import StringCatalog.Workspace.FileTree
import StringCatalog.Workspace.Files
import StringCatalog.Workspace.Output
import StringCatalog.Yaml.Basic
import StringCatalog.Yaml.Directive
import StringCatalog.Yaml.Document
import StringCatalog.Yaml.Node
import StringCatalog.Yaml.Plain
import StringCatalog.Yaml.Quoted
import StringCatalog.Yaml.Scalar
import StringCatalog.Yaml.Timestamp
import StringCatalog.Yaml.Token
import StringCatalog.Proofs.Catalog.Coverage
import StringCatalog.Proofs.Catalog.Account
import StringCatalog.Proofs.Format.Reordering
import StringCatalog.Proofs.Outcome
import StringCatalog.Proofs.Workspace.FileTree
import StringCatalog.Proofs.Workspace.Files
import StringCatalog.Proofs.Workspace.Output
import StringCatalog.Proofs.Project.Outputs
import StringCatalog.Proofs.CommandLine.Outputs
import StringCatalog.Proofs.Project.Report
import StringCatalog.Proofs.Project.Rehearsal
import StringCatalog.Proofs.Project.Repetition
import StringCatalog.Proofs.CommandLine.Generation
import StringCatalog.Proofs.CommandLine.Rehearsal
import StringCatalog.Proofs.CommandLine.Repetition
import StringCatalog.Proofs.Namespace.Declared
import StringCatalog.Proofs.CommandLine.Declarations
import StringCatalog.Proofs.CommandLine.Duplicates
import StringCatalog.Format.Occurrence
import StringCatalog.Proofs.Swift.Layout
import StringCatalog.Proofs.Format.Grammar
import StringCatalog.Proofs.Format.Occurrence
import StringCatalog.Proofs.Catalog.Schema
import StringCatalog.Proofs.Catalog.Translations
import StringCatalog.Proofs.Text.Order
import StringCatalog.Proofs.Namespace.Placement
import StringCatalog.Proofs.Namespace.Rearrangement
import StringCatalog.Proofs.Workspace.Obstacle
import StringCatalog.Proofs.Project.Obstacle
import StringCatalog.Proofs.CommandLine.ExitCode
import StringCatalog.Proofs.Namespace.Clash
import StringCatalog.Proofs.Format.Numbering
import StringCatalog.Proofs.Format.Concatenation
import StringCatalog.Proofs.Json.Keyed
import StringCatalog.Proofs.Catalog.SubstitutionMaps
import StringCatalog.Proofs.Catalog.PositionalMode
import StringCatalog.Proofs.Catalog.Flattening
import StringCatalog.Proofs.Workspace.Replacement
import StringCatalog.Proofs.Workspace.CatalogFile
import StringCatalog.Proofs.Config.TypeName
