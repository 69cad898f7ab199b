import Scaffold.Command.Arguments
import Scaffold.Command.Run
import Scaffold.Dart.Bloc
import Scaffold.Dart.ClassFile
import Scaffold.Dart.ErrorUnion
import Scaffold.Dart.Imports
import Scaffold.Dart.Model
import Scaffold.Dart.Screen
import Scaffold.Dart.Signature
import Scaffold.Dart.Type
import Scaffold.Document.Calendar
import Scaffold.Document.Display
import Scaffold.Document.Encoding
import Scaffold.Document.Fault
import Scaffold.Document.Json
import Scaffold.Document.Value
import Scaffold.Document.Yaml.Basic
import Scaffold.Document.Yaml.Node
import Scaffold.Document.Yaml.Plain
import Scaffold.Document.Yaml.Token
import Scaffold.Endpoint.Basic
import Scaffold.Endpoint.Catalog
import Scaffold.Endpoint.Extraction
import Scaffold.Endpoint.Selection
import Scaffold.Form.Address
import Scaffold.Form.Field
import Scaffold.Form.Page
import Scaffold.Form.Request
import Scaffold.Form.Server
import Scaffold.Main
import Scaffold.Naming.Derived
import Scaffold.Naming.Words
import Scaffold.Number.Binary64
import Scaffold.Number.Shortest
import Scaffold.Patch.Anchor
import Scaffold.Patch.Extension
import Scaffold.Patch.Insertion
import Scaffold.Patch.Presence
import Scaffold.Project.Config
import Scaffold.Project.Generation
import Scaffold.Project.Layout
import Scaffold.Project.Loading
import Scaffold.Project.ModelFiles
import Scaffold.Proofs.Dart.Characters
import Scaffold.Proofs.Dart.Mentions
import Scaffold.Proofs.Endpoint.Extracted
import Scaffold.Proofs.Naming.Words
import Scaffold.Proofs.Patch.Anchors
import Scaffold.Proofs.Patch.Batches
import Scaffold.Proofs.Patch.BlocBatches
import Scaffold.Proofs.Patch.ClassBatches
import Scaffold.Proofs.Patch.ClassEnd
import Scaffold.Proofs.Patch.ImportBatches
import Scaffold.Proofs.Patch.Imports
import Scaffold.Proofs.Patch.Matches
import Scaffold.Proofs.Patch.Presence
import Scaffold.Proofs.Patch.Rows
import Scaffold.Proofs.Patch.Scanning
import Scaffold.Proofs.Patch.Styles
import Scaffold.Proofs.Project.Admission
import Scaffold.Proofs.Project.Append
import Scaffold.Proofs.Project.Full
import Scaffold.Proofs.Project.Layer
import Scaffold.Proofs.Project.LayerOrder
import Scaffold.Proofs.Project.Layout
import Scaffold.Proofs.Project.ModelFiles
import Scaffold.Proofs.Project.Runs
import Scaffold.Proofs.Project.Slots
import Scaffold.Proofs.Project.SourceFiles
import Scaffold.Proofs.Project.Start
import Scaffold.Proofs.Project.Writing
import Scaffold.Proofs.Text.Lines
import Scaffold.Proofs.Text.Newlines
import Scaffold.Proofs.Text.Search
import Scaffold.Proofs.Tree.Making
import Scaffold.Proofs.Tree.Place
import Scaffold.Proofs.Tree.Run
import Scaffold.Text.Alphanumeric
import Scaffold.Text.Basic
import Scaffold.Text.Digit
import Scaffold.Text.Integer
import Scaffold.Text.LetterCase
import Scaffold.Text.Printable
import Scaffold.Text.Quoted
import Scaffold.Text.Terminal
import Scaffold.Text.Utf8
import Scaffold.Tree.Basic
import Scaffold.Tree.Path
import Scaffold.Tree.Work
import Scaffold.Proofs.Dart.Declarations
import Scaffold.Proofs.Dart.Arguments
import Scaffold.Proofs.Dart.LineFeeds
import Scaffold.Proofs.Dart.RenderedNames
import Scaffold.Proofs.Dart.Templates
import Scaffold.Proofs.Patch.Declarations
import Scaffold.Proofs.Project.Duplicates
import Scaffold.Proofs.Endpoint.Catalog
import Scaffold.Proofs.Patch.Additions
import Scaffold.Proofs.Endpoint.Operations
import Scaffold.Proofs.Endpoint.Refusal
import Scaffold.Proofs.Project.Independence
import Scaffold.Proofs.Patch.Annotations
import Scaffold.Proofs.Project.Steps
import Scaffold.Proofs.Project.Warnings
import Scaffold.Proofs.Command.Course
import Scaffold.Proofs.Command.Declining
import Scaffold.Proofs.Text.Integer
import Scaffold.Proofs.Endpoint.Selection
import Scaffold.Proofs.Document.JsonText
import Scaffold.Proofs.Form.Request
import Scaffold.Proofs.Project.Walk
import Scaffold.Proofs.Project.Showing
import Scaffold.Proofs.Form.Agreement
import Scaffold.Proofs.Project.Confinement
import Scaffold.Proofs.Dart.ImportDirectives
import Scaffold.Proofs.Project.ImportTargets
import Scaffold.Proofs.Project.Detection
import Scaffold.Proofs.Naming.Recasing
import Scaffold.Proofs.Project.ModelNames
import Scaffold.Proofs.Naming.DerivedNames
import Scaffold.Proofs.Naming.Identifiers
import Scaffold.Proofs.Project.Accounting
import Scaffold.Proofs.Patch.RenderedImports
import Scaffold.Proofs.Patch.Renderings
import Scaffold.Proofs.Patch.RenderedBlocs
import Scaffold.Proofs.Project.Growth
import Scaffold.Proofs.Patch.ClassScope
import Scaffold.Proofs.Dart.ParameterNames
import Scaffold.Proofs.Endpoint.Entries
import Scaffold.Proofs.Endpoint.Selected
import Scaffold.Proofs.Patch.MemberWords
import Scaffold.Proofs.Project.BatchRuns
import Scaffold.Proofs.Dart.ModelFields
import Scaffold.Proofs.Naming.CaseLaws
import Scaffold.Proofs.Naming.MethodNames
import Scaffold.Proofs.Project.FeatureNames
import Scaffold.Proofs.Patch.AnnotationPlaces
import Scaffold.Proofs.Patch.Completion
import Scaffold.Proofs.Project.Idempotence
import Scaffold.Proofs.Patch.BlocVocabulary
import Scaffold.Proofs.Patch.ImportLines
import Scaffold.Proofs.Patch.NewMembers
import Scaffold.Proofs.Project.Freshness
