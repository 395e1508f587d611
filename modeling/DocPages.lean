import DocPages.Main
import DocPages.Proofs.Api.Document
import DocPages.Proofs.Html.Template
import DocPages.Proofs.Page.Leftover
import DocPages.Proofs.Shelf.Restore
import DocPages.Proofs.Schema.Template
import DocPages.Proofs.Api.Template
import DocPages.Proofs.Html.Escape
import DocPages.Proofs.Schema.Rows
import DocPages.Proofs.Api.Fault
import DocPages.Proofs.Number.Rounding
import DocPages.Proofs.Number.Shortest
import DocPages.Proofs.Json.Number
import DocPages.Proofs.Json.RoundTrip
import DocPages.Proofs.Json.Strings
import DocPages.Proofs.Json.Reading
import DocPages.Proofs.Json.Proper
import DocPages.Proofs.Api.Nested
import DocPages.Proofs.Schema.Composition
import DocPages.Proofs.Schema.Normal
import DocPages.Proofs.Schema.Properties
import DocPages.Proofs.Schema.Required
import DocPages.Proofs.Schema.Example
import DocPages.Proofs.Schema.Kind
import DocPages.Proofs.Schema.Conform
import DocPages.Proofs.Schema.Grouping
import DocPages.Proofs.Page.Nesting
import DocPages.Proofs.Page.SameKind
import DocPages.Proofs.FrontMatter.RoundTrip
import DocPages.Proofs.Attributes
import DocPages.Proofs.Page.Anatomy
import DocPages.Proofs.Page.Growth
import DocPages.Proofs.Page.First
import DocPages.Proofs.Page.Verbatim
import DocPages.Proofs.Text.Breaks
import DocPages.Proofs.Json.Breaks
import DocPages.Proofs.Html.Breaks
import DocPages.Proofs.Page.Breaks
import DocPages.Proofs.Page.Thins
import DocPages.Proofs.Page.LineEnds
import DocPages.Proofs.Page.Reach
import DocPages.Proofs.Page.Tidy
import DocPages.Proofs.Page.Lossless
import DocPages.Proofs.Page.Items
import DocPages.Proofs.Page.Requests
import DocPages.Proofs.Page.Listings
import DocPages.Proofs.Page.WithinReach
import DocPages.Proofs.Page.Outline
import DocPages.Proofs.Page.Headings
import DocPages.Proofs.Text.Occurrences
import DocPages.Proofs.Html.Divisions
import DocPages.Proofs.Api.Section
import DocPages.Proofs.Page.Silent
import DocPages.Proofs.Page.TabStrip
import DocPages.Proofs.Page.Mockup
import DocPages.Proofs.Site.Path
import DocPages.Proofs.Site.Tree
import DocPages.Proofs.Site.Pages
import DocPages.Proofs.Site.Sources
import DocPages.Proofs.Site.Mirror
import DocPages.Proofs.Api.Balance
import DocPages.Proofs.Api.Turns
import DocPages.Proofs.Api.Additions
import DocPages.Proofs.Html.Attributes
import DocPages.Proofs.Api.Ids
import DocPages.Proofs.Page.Card
import DocPages.Proofs.Page.Settled
import DocPages.Proofs.Html.Nodes
import DocPages.Proofs.Api.Parameters
import DocPages.Proofs.Api.Responses
import DocPages.Proofs.Schema.Panel
import DocPages.Proofs.Page.Calls
import DocPages.Proofs.Page.Artifacts
import DocPages.Proofs.Site.Listing
import DocPages.Proofs.FrontMatter.Folded
import DocPages.Proofs.Api.Span
import DocPages.Proofs.Site.Failure
import DocPages.Proofs.Html.Ids
import DocPages.Proofs.Html.Replacement
import DocPages.Proofs.Slug
