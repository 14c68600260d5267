import RouteAtlas.Choice
import RouteAtlas.CommandLine.Arguments
import RouteAtlas.CommandLine.Command
import RouteAtlas.CommandLine.Host
import RouteAtlas.CommandLine.Session
import RouteAtlas.CommandLine.Standard
import RouteAtlas.Discovery
import RouteAtlas.Fault
import RouteAtlas.Fault.Category
import RouteAtlas.Fault.Named
import RouteAtlas.FileKey
import RouteAtlas.Index
import RouteAtlas.Json
import RouteAtlas.Json.Number
import RouteAtlas.Json.Printer
import RouteAtlas.Json.Reader
import RouteAtlas.Json.Token
import RouteAtlas.Log
import RouteAtlas.Main
import RouteAtlas.Moment
import RouteAtlas.Numeral.Base36
import RouteAtlas.Numeral.Binary
import RouteAtlas.Numeral.FloatText
import RouteAtlas.Numeral.Literal
import RouteAtlas.Numeral.Shortest
import RouteAtlas.Numeral.Truncate
import RouteAtlas.Outline
import RouteAtlas.Path
import RouteAtlas.Pattern
import RouteAtlas.Proofs.Abort
import RouteAtlas.Proofs.Acceptance
import RouteAtlas.Proofs.Agreement
import RouteAtlas.Proofs.Base36
import RouteAtlas.Proofs.Block
import RouteAtlas.Proofs.Canonical
import RouteAtlas.Proofs.Coalescing
import RouteAtlas.Proofs.Hosts
import RouteAtlas.Proofs.StandardHost
import RouteAtlas.Proofs.Continuation
import RouteAtlas.Proofs.Coverage
import RouteAtlas.Proofs.Declaration
import RouteAtlas.Proofs.Discipline
import RouteAtlas.Proofs.Discovery
import RouteAtlas.Proofs.Edit
import RouteAtlas.Proofs.Enclosure
import RouteAtlas.Proofs.FileKey
import RouteAtlas.Proofs.Filter
import RouteAtlas.Proofs.Finding
import RouteAtlas.Proofs.FloatSign
import RouteAtlas.Proofs.Freshness
import RouteAtlas.Proofs.Include
import RouteAtlas.Proofs.JsonLexing
import RouteAtlas.Proofs.JsonNumber
import RouteAtlas.Proofs.JsonReading
import RouteAtlas.Proofs.JsonText
import RouteAtlas.Proofs.Layout
import RouteAtlas.Proofs.Lexeme
import RouteAtlas.Proofs.LowerCase
import RouteAtlas.Proofs.Machine
import RouteAtlas.Proofs.Newline
import RouteAtlas.Proofs.Notification
import RouteAtlas.Proofs.Occurrences
import RouteAtlas.Proofs.Opening
import RouteAtlas.Proofs.Outline
import RouteAtlas.Proofs.PathText
import RouteAtlas.Proofs.Pattern
import RouteAtlas.Proofs.PlainTree
import RouteAtlas.Proofs.Primitive
import RouteAtlas.Proofs.Project
import RouteAtlas.Proofs.Quotation
import RouteAtlas.Proofs.Reading
import RouteAtlas.Proofs.Refresh
import RouteAtlas.Proofs.Rendering
import RouteAtlas.Proofs.Reordering
import RouteAtlas.Proofs.Rescan
import RouteAtlas.Proofs.Resolution
import RouteAtlas.Proofs.Restriction
import RouteAtlas.Proofs.Round
import RouteAtlas.Proofs.Scan
import RouteAtlas.Proofs.SettingsFaults
import RouteAtlas.Proofs.SettingsRoundTrip
import RouteAtlas.Proofs.Scoping
import RouteAtlas.Proofs.Settling
import RouteAtlas.Proofs.Subscription
import RouteAtlas.Proofs.Table
import RouteAtlas.Proofs.Template
import RouteAtlas.Proofs.Traversal
import RouteAtlas.Proofs.Upkeep
import RouteAtlas.Proofs.Utf8
import RouteAtlas.Proofs.Views
import RouteAtlas.Proofs.Walking
import RouteAtlas.Proofs.WordFree
import RouteAtlas.Report
import RouteAtlas.Request
import RouteAtlas.Request.Work
import RouteAtlas.Scan
import RouteAtlas.Settings
import RouteAtlas.Settings.Store
import RouteAtlas.Snapshot
import RouteAtlas.Snapshot.Query
import RouteAtlas.Snippet
import RouteAtlas.Snippet.Format
import RouteAtlas.Snippet.Template
import RouteAtlas.Source
import RouteAtlas.Table
import RouteAtlas.Text.Blank
import RouteAtlas.Text.CodePoints
import RouteAtlas.Text.Digit
import RouteAtlas.Text.Hex
import RouteAtlas.Text.LowerCase
import RouteAtlas.Text.LowerCase.Data
import RouteAtlas.Text.Newline
import RouteAtlas.Text.Occurrences
import RouteAtlas.Text.Part
import RouteAtlas.Text.Printable
import RouteAtlas.Text.Quoted
import RouteAtlas.Text.Terminal
import RouteAtlas.Text.Utf8
import RouteAtlas.Text.Wide
import RouteAtlas.Tree
import RouteAtlas.Tree.Canonical
import RouteAtlas.Tree.Change
import RouteAtlas.Tree.Growth
import RouteAtlas.Tree.Walk
import RouteAtlas.Urlconf
import RouteAtlas.Urlconf.Block
import RouteAtlas.Urlconf.Declaration
import RouteAtlas.Urlconf.Include
import RouteAtlas.Urlconf.Lexeme
import RouteAtlas.Urlconf.Shape
import RouteAtlas.Value
import RouteAtlas.Value.Describe
import RouteAtlas.Value.Items
import RouteAtlas.Value.Literal
import RouteAtlas.Value.Mapping
import RouteAtlas.Value.Primitive
import RouteAtlas.Value.Shape
import RouteAtlas.Value.Shown
import RouteAtlas.Value.Written
import RouteAtlas.Watch
import RouteAtlas.Watch.Change
import RouteAtlas.Watch.Collector
import RouteAtlas.Watch.Sighting
import RouteAtlas.Workspace
