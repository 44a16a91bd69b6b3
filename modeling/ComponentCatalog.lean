import ComponentCatalog.Code.Bracket
import ComponentCatalog.Code.Comment
import ComponentCatalog.Code.Literal
import ComponentCatalog.Code.Split
import ComponentCatalog.CommandLine.Command
import ComponentCatalog.CommandLine.Run
import ComponentCatalog.CommandLine.Words
import ComponentCatalog.Component.Basic
import ComponentCatalog.Component.Export
import ComponentCatalog.Component.Import
import ComponentCatalog.Component.Property
import ComponentCatalog.Config.Basic
import ComponentCatalog.Config.Coercion
import ComponentCatalog.Config.Load
import ComponentCatalog.Config.Origin
import ComponentCatalog.Dependency
import ComponentCatalog.Display
import ComponentCatalog.Document.Basic
import ComponentCatalog.Document.Element
import ComponentCatalog.Document.Example
import ComponentCatalog.Document.FrontMatter
import ComponentCatalog.Document.Line
import ComponentCatalog.Document.Outline
import ComponentCatalog.Document.Summary
import ComponentCatalog.Json.Basic
import ComponentCatalog.Json.Reader
import ComponentCatalog.Json.Writer
import ComponentCatalog.Library.Basic
import ComponentCatalog.Library.Dependencies
import ComponentCatalog.Library.Layout
import ComponentCatalog.Library.Query
import ComponentCatalog.Library.Search
import ComponentCatalog.Log
import ComponentCatalog.Log.Channels
import ComponentCatalog.Log.Message
import ComponentCatalog.Main
import ComponentCatalog.Node
import ComponentCatalog.Number.Binary
import ComponentCatalog.Number.Fixed
import ComponentCatalog.Number.Integer
import ComponentCatalog.Number.Numeral
import ComponentCatalog.Number.Shortest
import ComponentCatalog.Present.Directory
import ComponentCatalog.Present.Markdown
import ComponentCatalog.Present.Outline
import ComponentCatalog.Present.Presenter
import ComponentCatalog.Proofs.BracketNesting
import ComponentCatalog.Proofs.CacheEntries
import ComponentCatalog.Proofs.CachedReading
import ComponentCatalog.Proofs.Coherence
import ComponentCatalog.Proofs.ComponentDeclaration
import ComponentCatalog.Proofs.ConcurrentFetch
import ComponentCatalog.Proofs.ConfigBounds
import ComponentCatalog.Proofs.Confinement
import ComponentCatalog.Proofs.Controls
import ComponentCatalog.Proofs.DeclaredInterface
import ComponentCatalog.Proofs.DeepLookup
import ComponentCatalog.Proofs.Dependencies
import ComponentCatalog.Proofs.DependencyOutline
import ComponentCatalog.Proofs.Descriptions
import ComponentCatalog.Proofs.DigitLimit
import ComponentCatalog.Proofs.DocumentTitle
import ComponentCatalog.Proofs.Entries
import ComponentCatalog.Proofs.ExportListing
import ComponentCatalog.Proofs.Expression
import ComponentCatalog.Proofs.FencedCode
import ComponentCatalog.Proofs.FieldSites
import ComponentCatalog.Proofs.FlatLeaves
import ComponentCatalog.Proofs.FontWeights
import ComponentCatalog.Proofs.FrontMatterSource
import ComponentCatalog.Proofs.HeadingLines
import ComponentCatalog.Proofs.ImportSource
import ComponentCatalog.Proofs.IntegerLiterals
import ComponentCatalog.Proofs.JoinedLines
import ComponentCatalog.Proofs.JsonDocuments
import ComponentCatalog.Proofs.JsonGrammar
import ComponentCatalog.Proofs.LazyExpiry
import ComponentCatalog.Proofs.LosslessRecords
import ComponentCatalog.Proofs.NumberText
import ComponentCatalog.Proofs.OutermostElements
import ComponentCatalog.Proofs.PageOutline
import ComponentCatalog.Proofs.Parts
import ComponentCatalog.Proofs.PrintedScales
import ComponentCatalog.Proofs.PropertyFields
import ComponentCatalog.Proofs.PropertyRoundTrip
import ComponentCatalog.Proofs.PropertySource
import ComponentCatalog.Proofs.QuotedEntries
import ComponentCatalog.Proofs.Reading
import ComponentCatalog.Proofs.RecordDocuments
import ComponentCatalog.Proofs.Recorded
import ComponentCatalog.Proofs.RepositoryAddresses
import ComponentCatalog.Proofs.ScaleLayouts
import ComponentCatalog.Proofs.Scanning
import ComponentCatalog.Proofs.SearchResults
import ComponentCatalog.Proofs.SectionSpans
import ComponentCatalog.Proofs.SectionTiling
import ComponentCatalog.Proofs.SharedCache
import ComponentCatalog.Proofs.StoryRoundTrip
import ComponentCatalog.Proofs.Tasks
import ComponentCatalog.Proofs.ThemeIntegers
import ComponentCatalog.Proofs.Threads
import ComponentCatalog.Proofs.TokenCount
import ComponentCatalog.Proofs.TopLevelParts
import ComponentCatalog.Proofs.UnchangingSource
import ComponentCatalog.Proofs.Walk
import ComponentCatalog.Record
import ComponentCatalog.Service.Address
import ComponentCatalog.Service.Basic
import ComponentCatalog.Service.Route
import ComponentCatalog.Service.Start
import ComponentCatalog.Source.Cache
import ComponentCatalog.Source.Cached
import ComponentCatalog.Source.Checkout
import ComponentCatalog.Source.Error
import ComponentCatalog.Source.FileSystem
import ComponentCatalog.Source.GitHub
import ComponentCatalog.Source.Memory
import ComponentCatalog.Source.Path
import ComponentCatalog.Source.Provider
import ComponentCatalog.Source.Url
import ComponentCatalog.Story.Basic
import ComponentCatalog.Story.Listing
import ComponentCatalog.Story.Settings
import ComponentCatalog.Text.Basic
import ComponentCatalog.Text.Case
import ComponentCatalog.Text.CaseTable
import ComponentCatalog.Text.Class
import ComponentCatalog.Text.Entries
import ComponentCatalog.Text.PrintTable
import ComponentCatalog.Text.Scan
import ComponentCatalog.Text.Utf8
import ComponentCatalog.Text.WordTable
import ComponentCatalog.Theme.Basic
import ComponentCatalog.Theme.Facts
import ComponentCatalog.Theme.Leaf
import ComponentCatalog.Theme.Tokens
import ComponentCatalog.Yaml.Binary
import ComponentCatalog.Yaml.Lexeme
import ComponentCatalog.Yaml.Node
import ComponentCatalog.Yaml.Scalar
import ComponentCatalog.Yaml.Stream
import ComponentCatalog.Yaml.Tag
import ComponentCatalog.Yaml.Token
import ComponentCatalog.Yaml.Value
