import Curator.Capabilities
import Curator.Coercion
import Curator.Comparison
import Curator.Conversion
import Curator.Database
import Curator.Dict
import Curator.Directory
import Curator.Disk
import Curator.Expression.Evaluation
import Curator.Expression.Token
import Curator.Expression.Tree
import Curator.Failure
import Curator.HookWrite
import Curator.Http.Exchange
import Curator.Http.Header
import Curator.Http.MediaType
import Curator.Http.Percent
import Curator.Http.Query
import Curator.Http.Response
import Curator.Http.Route
import Curator.Http.Target
import Curator.Joins
import Curator.Json.Basic
import Curator.Json.Fault
import Curator.Json.Outline
import Curator.Json.Reading
import Curator.Json.Text
import Curator.NameMap
import Curator.Number.Decimal
import Curator.Number.Double
import Curator.Number.Layout
import Curator.Number.Radix
import Curator.Number.Shortest
import Curator.PasswordHash
import Curator.Proofs.Expression.Grammar
import Curator.Proofs.Serving
import Curator.Schema.Attribute
import Curator.Schema.AttributeForm
import Curator.Schema.Definition
import Curator.Schema.DefinitionForm
import Curator.Schema.Folder
import Curator.Schema.Permission
import Curator.Schema.Record
import Curator.Service.Basic
import Curator.Service.Operations
import Curator.Service.Presentation
import Curator.Serving
import Curator.Settings
import Curator.Startup
import Curator.Store.Document
import Curator.Store.Handle
import Curator.Store.Identifier
import Curator.Store.Memory
import Curator.Store.Table
import Curator.Template
import Curator.Text.Alphanumeric
import Curator.Text.Blank
import Curator.Text.Casing
import Curator.Text.CharSet
import Curator.Text.Email
import Curator.Text.Lowercase
import Curator.Text.Quoted
import Curator.Text.Random
import Curator.Text.Singular
import Curator.Text.Slug
import Curator.Text.Utf8
import Curator.Text.Words
import Curator.Variable
import Curator.Proofs.Service.Joining
import Curator.Proofs.Coercion.Projection
import Curator.Proofs.Service.History
import Curator.Proofs.Template
import Curator.Proofs.Store.Identity
import Curator.Proofs.Store.Refusal
import Curator.Proofs.Json.Equality
import Curator.Proofs.Store.Uniqueness
import Curator.Proofs.Store.Mirror
import Curator.Proofs.Store.Commuting
import Curator.Proofs.Service.Indexes
import Curator.Proofs.Service.Disclosure
import Curator.Proofs.Service.Noninterference
import Curator.Proofs.Coercion.Sources
import Curator.Proofs.Service.Integrity
import Curator.Proofs.Service.Failing
import Curator.Proofs.Service.Shapes
import Curator.Proofs.Coercion.References
import Curator.Proofs.Service.Counting
import Curator.Proofs.Store.Identifier
import Curator.Proofs.Json.ReadBack
import Curator.Proofs.Json.Numbers
import Curator.Proofs.Json.Meaning
import Curator.Proofs.Store.Legible
import Curator.Proofs.Text.Slug
import Curator.Proofs.Service.Slugs
import Curator.Proofs.Service.Invariant
import Curator.Proofs.Service.Agreement
import Curator.Proofs.Schema.Forms
import Curator.Proofs.Schema.Depth
import Curator.Proofs.Schema.RoundTrip
import Curator.Proofs.Schema.Exchange
import Curator.Proofs.Schema.Written
import Curator.Proofs.Comparison.Laws
import Curator.Proofs.Comparison.Ids
import Curator.Proofs.Service.Stored
import Curator.Proofs.Coercion.Entries
import Curator.Proofs.Coercion.Failures
import Curator.Proofs.Coercion.Labels
import Curator.Proofs.Expression.BarePath
import Curator.Proofs.Service.Targets
import Curator.Proofs.Service.Unresolved
import Curator.Proofs.Service.QueryTexts
import Curator.Proofs.Directory
import Curator.Proofs.Expression.Separators
import Curator.Proofs.Expression.Paths
import Curator.Proofs.Coercion.NumericIds
import Curator.Proofs.Number.Radix
import Curator.Proofs.Text.Singular
