import StylesheetImports.Build.Config
import StylesheetImports.Build.ConfigFile
import StylesheetImports.Build.Engine
import StylesheetImports.Build.Entries
import StylesheetImports.Build.Graph
import StylesheetImports.Build.Load
import StylesheetImports.Build.Session
import StylesheetImports.Build.SourceMaps
import StylesheetImports.Command.Line
import StylesheetImports.Command.Report
import StylesheetImports.Command.Run
import StylesheetImports.Command.Version
import StylesheetImports.Domain.Direction
import StylesheetImports.Domain.Folding
import StylesheetImports.Domain.FoldingTable
import StylesheetImports.Domain.Joining
import StylesheetImports.Domain.Name
import StylesheetImports.Domain.Punycode
import StylesheetImports.Failure
import StylesheetImports.Json.Document
import StylesheetImports.Json.Lexeme
import StylesheetImports.Json.Magnitude
import StylesheetImports.Json.Value
import StylesheetImports.Main
import StylesheetImports.PackedSpecifier
import StylesheetImports.Path.Basic
import StylesheetImports.Path.Normal
import StylesheetImports.Proofs.Build.Anchoring
import StylesheetImports.Proofs.Build.Asking
import StylesheetImports.Proofs.Build.Entries
import StylesheetImports.Proofs.Build.Load
import StylesheetImports.Proofs.Build.Reach
import StylesheetImports.Proofs.Build.Recording
import StylesheetImports.Proofs.Build.Sharing
import StylesheetImports.Proofs.Build.Web
import StylesheetImports.Proofs.Command.Agreement
import StylesheetImports.Proofs.Command.Check
import StylesheetImports.Proofs.Command.Directory
import StylesheetImports.Proofs.Command.Extent
import StylesheetImports.Proofs.Command.Line
import StylesheetImports.Proofs.Command.Settings
import StylesheetImports.Proofs.PackedSpecifier
import StylesheetImports.Proofs.Path.Ancestors
import StylesheetImports.Proofs.Path.Child
import StylesheetImports.Proofs.Path.Components
import StylesheetImports.Proofs.Path.Names
import StylesheetImports.Proofs.Path.NormalForm
import StylesheetImports.Proofs.Path.Parent
import StylesheetImports.Proofs.Path.Relative
import StylesheetImports.Proofs.Path.Shortest
import StylesheetImports.Proofs.Path.Spelling
import StylesheetImports.Proofs.Rebase.Change
import StylesheetImports.Proofs.Rebase.Idempotence
import StylesheetImports.Proofs.Rebase.Misreading
import StylesheetImports.Proofs.Rebase.Reference
import StylesheetImports.Proofs.Rebase.Reread.Argument
import StylesheetImports.Proofs.Rebase.Reread.Rule
import StylesheetImports.Proofs.Rebase.Reread.Step
import StylesheetImports.Proofs.Rebase.Reread.Token
import StylesheetImports.Proofs.Rebase.Rescan
import StylesheetImports.Proofs.Rebase.Rewriting
import StylesheetImports.Proofs.Rebase.Route
import StylesheetImports.Proofs.Rebase.Selection
import StylesheetImports.Proofs.Rebase.Splice
import StylesheetImports.Proofs.Rebase.Suffix
import StylesheetImports.Proofs.Rebase.Tracing
import StylesheetImports.Proofs.Resolve.Candidates
import StylesheetImports.Proofs.Resolve.Landing
import StylesheetImports.Proofs.Resolve.LoadPath
import StylesheetImports.Proofs.Resolve.Package
import StylesheetImports.Proofs.Resolve.Priority
import StylesheetImports.Proofs.Resolve.Relative
import StylesheetImports.Proofs.Resolve.Rooted
import StylesheetImports.Proofs.Resolve.Spot
import StylesheetImports.Proofs.Resolve.Stability
import StylesheetImports.Proofs.Storage.Consistency
import StylesheetImports.Proofs.Storage.Descendants
import StylesheetImports.Proofs.Storage.Disk
import StylesheetImports.Proofs.Storage.Following
import StylesheetImports.Proofs.Storage.MemoryFiles
import StylesheetImports.Proofs.Storage.Node
import StylesheetImports.Proofs.Storage.Query
import StylesheetImports.Proofs.Storage.Replacing
import StylesheetImports.Proofs.Storage.Start
import StylesheetImports.Proofs.Stylesheet.ByteScan.Agreement
import StylesheetImports.Proofs.Stylesheet.ByteScan.Basic
import StylesheetImports.Proofs.Stylesheet.ByteScan.Rounds
import StylesheetImports.Proofs.Stylesheet.ByteScan.Standing
import StylesheetImports.Proofs.Stylesheet.Exactness
import StylesheetImports.Proofs.Stylesheet.Fragment
import StylesheetImports.Proofs.Stylesheet.ImportList
import StylesheetImports.Proofs.Stylesheet.Lookahead
import StylesheetImports.Proofs.Stylesheet.Passing
import StylesheetImports.Proofs.Stylesheet.Reading
import StylesheetImports.Proofs.Stylesheet.Spans
import StylesheetImports.Proofs.Stylesheet.UrlForms
import StylesheetImports.Proofs.Text.Form
import StylesheetImports.Proofs.Text.Offset
import StylesheetImports.Proofs.Text.Order
import StylesheetImports.Proofs.Text.Percent
import StylesheetImports.Proofs.Text.Pieces
import StylesheetImports.Proofs.Text.Utf8
import StylesheetImports.Proofs.Url.File
import StylesheetImports.Proofs.Url.Joining
import StylesheetImports.Proofs.Url.Key
import StylesheetImports.Proofs.Url.PathText
import StylesheetImports.Proofs.Url.Reader
import StylesheetImports.Rebase.Edit
import StylesheetImports.Rebase.OffsetMap
import StylesheetImports.Rebase.Rebaser
import StylesheetImports.Rebase.Reference
import StylesheetImports.Resolve.Candidates
import StylesheetImports.Resolve.LoadPath
import StylesheetImports.Resolve.Package
import StylesheetImports.Resolve.Relative
import StylesheetImports.Resolve.Resolution
import StylesheetImports.Storage.Cache
import StylesheetImports.Storage.Directory
import StylesheetImports.Storage.Disk
import StylesheetImports.Storage.FileFault
import StylesheetImports.Storage.FileTree
import StylesheetImports.Storage.MemoryFiles
import StylesheetImports.Storage.Node
import StylesheetImports.Storage.Query
import StylesheetImports.Stylesheet.Dialect
import StylesheetImports.Stylesheet.Lexeme
import StylesheetImports.Stylesheet.Scan
import StylesheetImports.Stylesheet.Token
import StylesheetImports.Text.Blank
import StylesheetImports.Text.CodeRange
import StylesheetImports.Text.CompositeTable
import StylesheetImports.Text.Composition
import StylesheetImports.Text.Form
import StylesheetImports.Text.Mark
import StylesheetImports.Text.Numeral
import StylesheetImports.Text.Offset
import StylesheetImports.Text.Percent
import StylesheetImports.Text.Pieces
import StylesheetImports.Text.Utf8
import StylesheetImports.Url.Basic
import StylesheetImports.Url.File
import StylesheetImports.Url.Host
import StylesheetImports.Url.PathText
import StylesheetImports.Url.Reader
