import TableQuery.Calendar.Date
import TableQuery.Calendar.Internet
import TableQuery.Calendar.Known
import TableQuery.Calendar.Moment
import TableQuery.Calendar.Pattern
import TableQuery.Calendar.Read
import TableQuery.Calendar.Render
import TableQuery.Cell.Build
import TableQuery.Cell.Entered
import TableQuery.Cell.Native
import TableQuery.Cell.Typed
import TableQuery.Config
import TableQuery.Decimal.Binary
import TableQuery.Decimal.Reader
import TableQuery.Decimal.Rounded
import TableQuery.Decimal.Shortest
import TableQuery.Decimal.Written
import TableQuery.Driver.Basic
import TableQuery.Driver.Memory
import TableQuery.Driver.Paging
import TableQuery.Error
import TableQuery.Exchange.Fetch
import TableQuery.Exchange.Normal
import TableQuery.Exchange.Raw
import TableQuery.Exchange.Saved
import TableQuery.Exchange.Spec
import TableQuery.Exchange.Table
import TableQuery.Exchange.Template
import TableQuery.Exchange.Value
import TableQuery.Json.Basic
import TableQuery.Json.Number
import TableQuery.Json.Reader
import TableQuery.Json.Writer
import TableQuery.Operator.Basic
import TableQuery.Operator.Builtin
import TableQuery.Operator.Period
import TableQuery.OptionLists
import TableQuery.Proofs.Calendar.Order
import TableQuery.Proofs.Calendar.Reading
import TableQuery.Proofs.Cell.Moments
import TableQuery.Proofs.Cell.Recovered
import TableQuery.Proofs.Cell.Row
import TableQuery.Proofs.Cell.Typed
import TableQuery.Proofs.Decimal.Nearest
import TableQuery.Proofs.Decimal.Neighbours
import TableQuery.Proofs.Decimal.Order
import TableQuery.Proofs.Decimal.Packed
import TableQuery.Proofs.Decimal.Ratio
import TableQuery.Proofs.Decimal.Reader
import TableQuery.Proofs.Decimal.Rounding
import TableQuery.Proofs.Decimal.Shortest
import TableQuery.Proofs.Decimal.Words
import TableQuery.Proofs.Decimal.Written
import TableQuery.Proofs.Driver.Memory
import TableQuery.Proofs.Driver.Numbers
import TableQuery.Proofs.Driver.Pages
import TableQuery.Proofs.Driver.Sorting
import TableQuery.Proofs.Driver.Sums
import TableQuery.Proofs.Exchange.Template
import TableQuery.Proofs.Json.Number
import TableQuery.Proofs.Json.Range
import TableQuery.Proofs.Json.RoundTrip
import TableQuery.Proofs.Lists
import TableQuery.Proofs.Operator.Catalog
import TableQuery.Proofs.Operator.Coherence
import TableQuery.Proofs.Operator.Declared
import TableQuery.Proofs.Query.Accepted
import TableQuery.Proofs.Query.Alone
import TableQuery.Proofs.Query.Answered
import TableQuery.Proofs.Query.Calls
import TableQuery.Proofs.Query.Chains
import TableQuery.Proofs.Query.CheckedOnce
import TableQuery.Proofs.Query.Circular
import TableQuery.Proofs.Query.Commuting
import TableQuery.Proofs.Query.Completeness
import TableQuery.Proofs.Query.FanOut
import TableQuery.Proofs.Query.Filling
import TableQuery.Proofs.Query.Findings
import TableQuery.Proofs.Query.Found
import TableQuery.Proofs.Query.Frame
import TableQuery.Proofs.Query.Groups
import TableQuery.Proofs.Query.Held
import TableQuery.Proofs.Query.Inbound
import TableQuery.Proofs.Query.JoinFree
import TableQuery.Proofs.Query.Lookup
import TableQuery.Proofs.Query.Offered
import TableQuery.Proofs.Query.Outbound
import TableQuery.Proofs.Query.PassedThrough
import TableQuery.Proofs.Query.Projection
import TableQuery.Proofs.Query.Pushdown
import TableQuery.Proofs.Query.Retrieval
import TableQuery.Proofs.Query.Shape
import TableQuery.Proofs.Query.ShortCircuit
import TableQuery.Proofs.Query.Split
import TableQuery.Proofs.Query.Strategies
import TableQuery.Proofs.Query.Termination
import TableQuery.Proofs.Query.WellTyped
import TableQuery.Proofs.Registry.Exact
import TableQuery.Proofs.Registry.InPlace
import TableQuery.Proofs.Registry.Keys
import TableQuery.Proofs.Registry.Registered
import TableQuery.Proofs.Registry.Settled
import TableQuery.Proofs.Run
import TableQuery.Proofs.Sample
import TableQuery.Proofs.Saved.Atomic
import TableQuery.Proofs.Saved.Calls
import TableQuery.Proofs.Saved.Kept
import TableQuery.Proofs.Saved.Listing
import TableQuery.Proofs.Saved.Ownership
import TableQuery.Proofs.Saved.Readings
import TableQuery.Proofs.Saved.Returned
import TableQuery.Proofs.Saved.Runnable
import TableQuery.Proofs.Saved.Synced
import TableQuery.Proofs.Saved.Visibility
import TableQuery.Proofs.Schema.Compiled
import TableQuery.Proofs.Schema.Indexed
import TableQuery.Proofs.Schema.LinkForms
import TableQuery.Proofs.Schema.WellFormed
import TableQuery.Proofs.Sql.Agreement
import TableQuery.Proofs.Sql.Alignment
import TableQuery.Proofs.Sql.Columns
import TableQuery.Proofs.Sql.Committed
import TableQuery.Proofs.Sql.Effects
import TableQuery.Proofs.Sql.Like
import TableQuery.Proofs.Sql.Names
import TableQuery.Proofs.Sql.Paging
import TableQuery.Proofs.Sql.Placeholders
import TableQuery.Proofs.Sql.Selection
import TableQuery.Proofs.Sql.Spelling
import TableQuery.Proofs.Sql.Transaction
import TableQuery.Proofs.Sql.Truth
import TableQuery.Proofs.Sql.Wording
import TableQuery.Proofs.Text.Affix
import TableQuery.Proofs.Text.Blank
import TableQuery.Proofs.Text.Integer
import TableQuery.Proofs.Text.Numeral
import TableQuery.Proofs.Text.Split
import TableQuery.Proofs.Value.Compare
import TableQuery.Proofs.Value.Display
import TableQuery.Proofs.Value.Order
import TableQuery.Proofs.ValueFormat.Scan
import TableQuery.Proofs.ValueFormat.Whole
import TableQuery.Query.Actions
import TableQuery.Query.Address
import TableQuery.Query.Find
import TableQuery.Query.Inbound
import TableQuery.Query.Outbound
import TableQuery.Query.Run
import TableQuery.Query.Validate
import TableQuery.Registry.Basic
import TableQuery.Registry.Links
import TableQuery.Saved.Basic
import TableQuery.Saved.Dialogue
import TableQuery.Saved.Service
import TableQuery.Saved.Shelf
import TableQuery.Schema.Column
import TableQuery.Schema.Compile
import TableQuery.Schema.Link
import TableQuery.Schema.Spec
import TableQuery.Schema.Table
import TableQuery.Session
import TableQuery.Sql.Archive
import TableQuery.Sql.Clauses
import TableQuery.Sql.Database
import TableQuery.Sql.Relation
import TableQuery.Sql.Source
import TableQuery.Sql.Statement
import TableQuery.Template.Basic
import TableQuery.Text.Blank
import TableQuery.Text.CharTable
import TableQuery.Text.FormQuery
import TableQuery.Text.Integer
import TableQuery.Text.Quoted
import TableQuery.Text.Split
import TableQuery.Text.Utf8
import TableQuery.Text.WordChar
import TableQuery.Value.Basic
import TableQuery.Value.Kind
import TableQuery.Value.Raw
import TableQuery.Value.Row
import TableQuery.ValueFormat.Basic
import TableQuery.ValueFormat.Render
import TableQuery.ValueFormat.Scan
import TableQuery.Yaml.Node
import TableQuery.Yaml.Place
import TableQuery.Yaml.Reader
import TableQuery.Yaml.Scalar
import TableQuery.Yaml.Token
