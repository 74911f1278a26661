import LedgerExplorer.Cache.Basic
import LedgerExplorer.Cache.Resolver
import LedgerExplorer.Collection
import LedgerExplorer.CommandLine.Arguments
import LedgerExplorer.CommandLine.Failure
import LedgerExplorer.CommandLine.Run
import LedgerExplorer.Config.Basic
import LedgerExplorer.Config.Environment
import LedgerExplorer.Config.File
import LedgerExplorer.DateRange
import LedgerExplorer.Decimal.Double
import LedgerExplorer.Decimal.Literal
import LedgerExplorer.Decimal.Shortest
import LedgerExplorer.Dialogue
import LedgerExplorer.Dict
import LedgerExplorer.Fault
import LedgerExplorer.File
import LedgerExplorer.Filter.Draft
import LedgerExplorer.Filter.Operator
import LedgerExplorer.Filter.Typed
import LedgerExplorer.Histogram.Category
import LedgerExplorer.Histogram.Request
import LedgerExplorer.Histogram.Row
import LedgerExplorer.Histogram.Sample
import LedgerExplorer.Http.Basic
import LedgerExplorer.Http.Message
import LedgerExplorer.Http.Target
import LedgerExplorer.Json.Basic
import LedgerExplorer.Json.Decode
import LedgerExplorer.Json.Numeral
import LedgerExplorer.Json.Printer
import LedgerExplorer.Json.Quotation
import LedgerExplorer.Json.Reading
import LedgerExplorer.Main
import LedgerExplorer.Metrics
import LedgerExplorer.Page.Basic
import LedgerExplorer.Page.Fetch
import LedgerExplorer.Page.Query
import LedgerExplorer.Page.View
import LedgerExplorer.Proofs.Cache.Accounts
import LedgerExplorer.Proofs.Cache.Answers
import LedgerExplorer.Proofs.Cache.Bound
import LedgerExplorer.Proofs.Cache.Capacity
import LedgerExplorer.Proofs.Cache.Delivery
import LedgerExplorer.Proofs.Cache.Desk
import LedgerExplorer.Proofs.Cache.Eviction
import LedgerExplorer.Proofs.Cache.Inquiries
import LedgerExplorer.Proofs.Cache.Losses
import LedgerExplorer.Proofs.Cache.Recency
import LedgerExplorer.Proofs.Cache.SingleFlight
import LedgerExplorer.Proofs.Cache.Slots
import LedgerExplorer.Proofs.Cache.Uses
import LedgerExplorer.Proofs.Cache.Waiting
import LedgerExplorer.Proofs.CommandLine.DryRun
import LedgerExplorer.Proofs.CommandLine.Results
import LedgerExplorer.Proofs.Config.Saved
import LedgerExplorer.Proofs.Config.Usable
import LedgerExplorer.Proofs.Dictionaries
import LedgerExplorer.Proofs.Filter.Edits
import LedgerExplorer.Proofs.Filter.Reading
import LedgerExplorer.Proofs.Filter.Tokens
import LedgerExplorer.Proofs.Filter.Typed
import LedgerExplorer.Proofs.Histogram.Aggregation
import LedgerExplorer.Proofs.Histogram.Counts
import LedgerExplorer.Proofs.Histogram.Flattened
import LedgerExplorer.Proofs.Histogram.Legend
import LedgerExplorer.Proofs.Histogram.Summaries
import LedgerExplorer.Proofs.Http.Addresses
import LedgerExplorer.Proofs.Http.Replies
import LedgerExplorer.Proofs.Json.Printed
import LedgerExplorer.Proofs.Json.Records
import LedgerExplorer.Proofs.Json.Scalars
import LedgerExplorer.Proofs.Json.Shapes
import LedgerExplorer.Proofs.Json.WireTypes
import LedgerExplorer.Proofs.Lists
import LedgerExplorer.Proofs.Page.Fragments
import LedgerExplorer.Proofs.Page.LastLoad
import LedgerExplorer.Proofs.Page.Paging
import LedgerExplorer.Proofs.Page.QueryString
import LedgerExplorer.Proofs.Page.References
import LedgerExplorer.Proofs.Page.Screen
import LedgerExplorer.Proofs.Samples
import LedgerExplorer.Proofs.Session.Answers
import LedgerExplorer.Proofs.Session.Browsing
import LedgerExplorer.Proofs.Session.Callers
import LedgerExplorer.Proofs.Session.Cancellation
import LedgerExplorer.Proofs.Session.Collecting
import LedgerExplorer.Proofs.Session.Discards
import LedgerExplorer.Proofs.Session.Enrichment
import LedgerExplorer.Proofs.Session.Entities
import LedgerExplorer.Proofs.Session.Frame
import LedgerExplorer.Proofs.Session.Generations
import LedgerExplorer.Proofs.Session.Isolation
import LedgerExplorer.Proofs.Session.LoadCalls
import LedgerExplorer.Proofs.Session.LoadEnds
import LedgerExplorer.Proofs.Session.LoadOutcomes
import LedgerExplorer.Proofs.Session.Loading
import LedgerExplorer.Proofs.Session.Lookups
import LedgerExplorer.Proofs.Session.Moves
import LedgerExplorer.Proofs.Session.Replies
import LedgerExplorer.Proofs.Session.Requests
import LedgerExplorer.Proofs.Session.Separation
import LedgerExplorer.Proofs.Session.Stages
import LedgerExplorer.Proofs.Session.Turns
import LedgerExplorer.Proofs.Session.Views
import LedgerExplorer.Proofs.Text.Natural
import LedgerExplorer.Proofs.Text.Numerals
import LedgerExplorer.Proofs.Text.Order
import LedgerExplorer.Proofs.Text.Percent
import LedgerExplorer.Proofs.Toml.Documents
import LedgerExplorer.Proofs.Toml.Integers
import LedgerExplorer.Proofs.Toml.Strings
import LedgerExplorer.Session.Basic
import LedgerExplorer.Session.Setup
import LedgerExplorer.Session.Step
import LedgerExplorer.Source
import LedgerExplorer.Text.Blank
import LedgerExplorer.Text.Natural
import LedgerExplorer.Text.Percent
import LedgerExplorer.Text.Quoted
import LedgerExplorer.Text.Unprintable
import LedgerExplorer.Token.Pool
import LedgerExplorer.Token.Transfer
import LedgerExplorer.Toml.Basic
import LedgerExplorer.Toml.Document
import LedgerExplorer.Toml.Numeral
import LedgerExplorer.Toml.Printer
import LedgerExplorer.Toml.StringStyle
import LedgerExplorer.Toml.Text
