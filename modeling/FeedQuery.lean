import FeedQuery.Calendar
import FeedQuery.Collection
import FeedQuery.CommandLine
import FeedQuery.Config
import FeedQuery.Criteria
import FeedQuery.Criteria.Filter
import FeedQuery.Criteria.Sort
import FeedQuery.Cursor
import FeedQuery.Document
import FeedQuery.Embedding
import FeedQuery.Exchange
import FeedQuery.Execution
import FeedQuery.Http.Headers
import FeedQuery.Http.Routes
import FeedQuery.Http.Target
import FeedQuery.Instant
import FeedQuery.Json
import FeedQuery.Json.Printer
import FeedQuery.Json.Reader
import FeedQuery.Main
import FeedQuery.Number.Decimal
import FeedQuery.Number.Double
import FeedQuery.Page
import FeedQuery.Pipeline
import FeedQuery.Plan
import FeedQuery.Predicate
import FeedQuery.Query
import FeedQuery.Reaction
import FeedQuery.Rejection
import FeedQuery.Scalar
import FeedQuery.Scores
import FeedQuery.Service
import FeedQuery.Settings
import FeedQuery.SortKey
import FeedQuery.Sql.Access
import FeedQuery.Sql.Condition
import FeedQuery.Sql.Expression
import FeedQuery.Sql.Schema
import FeedQuery.Sql.Session
import FeedQuery.Sql.Statement
import FeedQuery.Store
import FeedQuery.Strategy
import FeedQuery.Text.Blank
import FeedQuery.Text.Hex
import FeedQuery.Text.Quoted
import FeedQuery.Text.Unprintable
import FeedQuery.Text.Utf8
import FeedQuery.Toml.Quoted
import FeedQuery.Toml.Reader
import FeedQuery.Toml.Scalar
import FeedQuery.Toml.Table
import FeedQuery.Uuid
import FeedQuery.VectorIndex
import FeedQuery.Visibility
import FeedQuery.Proofs.Document
import FeedQuery.Proofs.Number
import FeedQuery.Proofs.Order
import FeedQuery.Proofs.Predicate
import FeedQuery.Proofs.Store
import FeedQuery.Proofs.Execution
import FeedQuery.Proofs.Identifier
import FeedQuery.Proofs.Join
import FeedQuery.Proofs.Interpretation
import FeedQuery.Proofs.Cursor
import FeedQuery.Proofs.Enrichment
import FeedQuery.Proofs.Tail
import FeedQuery.Proofs.Reach
import FeedQuery.Proofs.Placement
import FeedQuery.Proofs.Selection
import FeedQuery.Proofs.Paging
import FeedQuery.Proofs.CursorBound
import FeedQuery.Proofs.Marking
import FeedQuery.Proofs.LikedFeed
import FeedQuery.Proofs.JoinedFeed
import FeedQuery.Proofs.DirectFeed
import FeedQuery.Proofs.FanOut
import FeedQuery.Proofs.FollowedFeed
import FeedQuery.Proofs.FollowedLikes
import FeedQuery.Proofs.FollowedSimilarity
import FeedQuery.Proofs.Gathering
import FeedQuery.Proofs.Soundness
import FeedQuery.Proofs.HiddenDocuments
import FeedQuery.Proofs.Listing
import FeedQuery.Proofs.FollowedListing
import FeedQuery.Proofs.Repetition
import FeedQuery.Proofs.Unmatched
import FeedQuery.Proofs.Provenance
import FeedQuery.Proofs.Tokens
import FeedQuery.Proofs.StoreFault
import FeedQuery.Proofs.Malformed
import FeedQuery.Proofs.Entitlement
import FeedQuery.Proofs.Precedence
import FeedQuery.Proofs.Bystanders
import FeedQuery.Proofs.ReactionMaps
import FeedQuery.Proofs.Sql.Lexer
import FeedQuery.Proofs.Sql.Parser
import FeedQuery.Proofs.Sql.Reading
import FeedQuery.Proofs.ByteOrder
import FeedQuery.Proofs.ExactNumber
import FeedQuery.Proofs.Sql.Evaluation
import FeedQuery.Proofs.Sql.Agreement
import FeedQuery.Proofs.Sql.Answers
import FeedQuery.Proofs.Sql.Spelling
import FeedQuery.Proofs.NumberText
import FeedQuery.Proofs.NestedLoop
import FeedQuery.Proofs.JoinedTexts
import FeedQuery.Proofs.Representation
import FeedQuery.Proofs.DocumentPredicate
import FeedQuery.Proofs.Writes
import FeedQuery.Proofs.InsertionOrder
import FeedQuery.Proofs.Sql.TwoValued
import FeedQuery.Proofs.Sql.Separation
import FeedQuery.Proofs.Calendar
import FeedQuery.Proofs.Instant
import FeedQuery.Proofs.NormalForm
import FeedQuery.Proofs.Simplification
