import StoreBridge.Adapter.Document
import StoreBridge.Adapter.Lifecycle
import StoreBridge.Adapter.Operation
import StoreBridge.Adapter.Plan
import StoreBridge.Adapter.Sql
import StoreBridge.Backend
import StoreBridge.Bson.Basic
import StoreBridge.Bson.Decimal128
import StoreBridge.Bson.ExtendedJson
import StoreBridge.ColumnType
import StoreBridge.CommandLine.Command
import StoreBridge.CommandLine.Report
import StoreBridge.Config.Basic
import StoreBridge.Config.Connection
import StoreBridge.Config.Reader
import StoreBridge.Config.Writer
import StoreBridge.Document.Identity
import StoreBridge.Document.LikePattern
import StoreBridge.Document.Query
import StoreBridge.Entries
import StoreBridge.Error
import StoreBridge.Filter.Basic
import StoreBridge.Filter.Reader
import StoreBridge.Insert.Reconciliation
import StoreBridge.Json.Basic
import StoreBridge.Json.Reader
import StoreBridge.Json.Writer
import StoreBridge.Main
import StoreBridge.Number.Binary64
import StoreBridge.Number.Digits
import StoreBridge.Number.Layout
import StoreBridge.Number.ScaledDecimal
import StoreBridge.Number.Shortest
import StoreBridge.ObjectId
import StoreBridge.Postgres.Bytes
import StoreBridge.Postgres.Certificates
import StoreBridge.Postgres.Decode
import StoreBridge.Postgres.Encode
import StoreBridge.Postgres.Exchange
import StoreBridge.Postgres.Numeric
import StoreBridge.Postgres.Pool
import StoreBridge.Postgres.Session
import StoreBridge.Postgres.Settings
import StoreBridge.Postgres.Type
import StoreBridge.Schema.Basic
import StoreBridge.Schema.Reader
import StoreBridge.Sql.Clause
import StoreBridge.Sql.Definition
import StoreBridge.Sql.Predicate
import StoreBridge.Sql.Statement
import StoreBridge.Sql.Token
import StoreBridge.Storage
import StoreBridge.Text.Base64
import StoreBridge.Text.Blank
import StoreBridge.Text.Hex
import StoreBridge.Text.Printable
import StoreBridge.Text.Quoted
import StoreBridge.Time.Calendar
import StoreBridge.Time.Instant
import StoreBridge.Time.Reader
import StoreBridge.Toml.Basic
import StoreBridge.Toml.Reader
import StoreBridge.Toml.Scalar
import StoreBridge.Toml.Table
import StoreBridge.Toml.Text
import StoreBridge.Toml.Writer
import StoreBridge.Uuid
import StoreBridge.Value
import StoreBridge.Proofs.Sql.Legible
import StoreBridge.Proofs.Sql.StatementText
import StoreBridge.Proofs.Filter.Nested
import StoreBridge.Proofs.Sql.Compilation
import StoreBridge.Proofs.Formula
import StoreBridge.Proofs.Sql.Grammar
import StoreBridge.Proofs.Sql.Placeholders
import StoreBridge.Proofs.Sql.Readings
import StoreBridge.Proofs.Sql.Meaning
import StoreBridge.Proofs.Sql.Numbering
import StoreBridge.Proofs.Document.Compilation
import StoreBridge.Proofs.Unfiltered
import StoreBridge.Proofs.Document.Merging
import StoreBridge.Proofs.Document.Meaning
import StoreBridge.Proofs.Filter.Questions
import StoreBridge.Proofs.Filter.Refusals
import StoreBridge.Proofs.Filter.Grammar
import StoreBridge.Proofs.Sql.Posed
import StoreBridge.Proofs.Sql.Acceptance
import StoreBridge.Proofs.Sql.Dialects
import StoreBridge.Proofs.Agreement
import StoreBridge.Proofs.Acceptance
import StoreBridge.Proofs.Sql.Likeness
import StoreBridge.Proofs.Sql.Masking
import StoreBridge.Proofs.Sql.Names
import StoreBridge.Proofs.Sql.Values
import StoreBridge.Proofs.Document.Provenance
import StoreBridge.Proofs.Sql.Command
import StoreBridge.Proofs.Adapter.SingleRow
import StoreBridge.Proofs.Adapter.Placement
import StoreBridge.Proofs.Adapter.Interleaving
import StoreBridge.Proofs.Adapter.Sessions
import StoreBridge.Proofs.Adapter.Connections
import StoreBridge.Proofs.Adapter.Refusals
import StoreBridge.Proofs.Adapter.TransactionEnd
import StoreBridge.Proofs.Document.Boundary
import StoreBridge.Proofs.Document.RoundTrip
import StoreBridge.Proofs.Document.IdentityRoutes
import StoreBridge.Proofs.Adapter.Exchanges
import StoreBridge.Proofs.Adapter.Upserting
import StoreBridge.Proofs.Adapter.Inserting
import StoreBridge.Proofs.Postgres.Frames
import StoreBridge.Proofs.Text.Identifiers
import StoreBridge.Proofs.Postgres.Parameters
import StoreBridge.Proofs.Text.Numerals
import StoreBridge.Proofs.Json.RoundTrip
import StoreBridge.Proofs.Postgres.PoolPlaces
import StoreBridge.Proofs.Postgres.PoolRuns
import StoreBridge.Proofs.Postgres.SessionRuns
import StoreBridge.Proofs.Postgres.Durability
import StoreBridge.Proofs.Insert.ReadBack
import StoreBridge.Proofs.Insert.Fallback
import StoreBridge.Proofs.Sql.Membership
import StoreBridge.Proofs.Sql.TypeText
import StoreBridge.Proofs.Sql.DefinitionText
import StoreBridge.Proofs.Sql.DefinitionNames
import StoreBridge.Proofs.Sql.Uniqueness
import StoreBridge.Proofs.Document.Expressions
import StoreBridge.Proofs.Document.LikeMatching
import StoreBridge.Proofs.Document.CollectionKeys
import StoreBridge.Proofs.Sql.DefinitionShape
import StoreBridge.Proofs.Adapter.Failures
import StoreBridge.Proofs.Adapter.DocumentUpdates
import StoreBridge.Proofs.Adapter.Seeding
import StoreBridge.Proofs.Sql.Selection
import StoreBridge.Proofs.Sorting
import StoreBridge.Proofs.Postgres.ConnectionText
import StoreBridge.Proofs.Number.Rounding
import StoreBridge.Proofs.Postgres.FloatParameters
import StoreBridge.Proofs.RecordHistory
import StoreBridge.Proofs.Json.Conversion
import StoreBridge.Proofs.Postgres.CertificateBlocks
import StoreBridge.Proofs.Sql.Threading
import StoreBridge.Proofs.Text.Replacing
