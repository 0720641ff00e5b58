import DocSearch.Bucket.Aggregation
import DocSearch.Bucket.Composite
import DocSearch.Bucket.Tally
import DocSearch.Bucket.Terms
import DocSearch.Config
import DocSearch.Document.Path
import DocSearch.Document.Scalar
import DocSearch.Error
import DocSearch.Hit.Basic
import DocSearch.Hit.Codec
import DocSearch.Hit.Highlight
import DocSearch.Hit.Sorting
import DocSearch.Hit.SourceFilter
import DocSearch.Identifier
import DocSearch.Json.Basic
import DocSearch.Json.Printer
import DocSearch.Json.Reader
import DocSearch.Json.Record
import DocSearch.Keyed
import DocSearch.Mapping.FieldMapping
import DocSearch.Mapping.Schema
import DocSearch.Mapping.Tree
import DocSearch.Number.Binary
import DocSearch.Number.Layout
import DocSearch.Number.Shortest
import DocSearch.Number.Word
import DocSearch.Pattern
import DocSearch.Query.Basic
import DocSearch.Query.Codec
import DocSearch.Query.Reader
import DocSearch.Relevance.Compile
import DocSearch.Relevance.Proximity
import DocSearch.Relevance.Scorer
import DocSearch.Scroll.Id
import DocSearch.Scroll.KeepAlive
import DocSearch.Scroll.Table
import DocSearch.Search.Request
import DocSearch.Search.Results
import DocSearch.Search.Run
import DocSearch.Store.Command
import DocSearch.Store.Database
import DocSearch.Store.DocumentTable
import DocSearch.Store.Index
import DocSearch.Text.Base64
import DocSearch.Text.Blank
import DocSearch.Text.CodeRange
import DocSearch.Text.Folding
import DocSearch.Text.Lowercase
import DocSearch.Text.Split
import DocSearch.Text.Table.CaseIgnorable
import DocSearch.Text.Table.Cased
import DocSearch.Text.Table.Folding
import DocSearch.Text.Table.Lowercase
import DocSearch.Proofs.Keyed
import DocSearch.Proofs.Relevance.Scoping
import DocSearch.Proofs.Relevance.Refusal
import DocSearch.Proofs.Bucket.CompositeOrder
import DocSearch.Proofs.Bucket.CompositePages
import DocSearch.Proofs.Store.Frame
import DocSearch.Proofs.Store.Table
import DocSearch.Proofs.Store.Reachable
import DocSearch.Proofs.Store.Contents
import DocSearch.Proofs.Store.Collections
import DocSearch.Proofs.Search.Found
import DocSearch.Proofs.Store.Failure
import DocSearch.Proofs.Text.Base64
import DocSearch.Proofs.Scroll.Id
import DocSearch.Proofs.Scroll.Table
import DocSearch.Proofs.Scroll.Run
import DocSearch.Proofs.Scroll.Sources
import DocSearch.Proofs.Scroll.Queue
import DocSearch.Proofs.Scroll.Recency
import DocSearch.Proofs.Scroll.Opening
import DocSearch.Proofs.Document.Places
import DocSearch.Proofs.Hit.Marking
import DocSearch.Proofs.Document.Endings
import DocSearch.Proofs.Document.Parts
import DocSearch.Proofs.Hit.Ties
import DocSearch.Proofs.Pattern.Expression
import DocSearch.Proofs.Pattern.Globs
import DocSearch.Proofs.Pattern.Preference
import DocSearch.Proofs.Relevance.Subfields
import DocSearch.Proofs.Relevance.Agreement
import DocSearch.Proofs.Store.Names
import DocSearch.Proofs.Json.Order
import DocSearch.Proofs.Mapping.Reading
import DocSearch.Proofs.Mapping.Traversal
import DocSearch.Proofs.Store.Coherence
import DocSearch.Proofs.Search.Refusals
import DocSearch.Proofs.Query.Grammar
import DocSearch.Proofs.Number.Rounding
import DocSearch.Proofs.Number.Packing
import DocSearch.Proofs.Number.Units
import DocSearch.Proofs.Number.Signs
import DocSearch.Proofs.Number.Zeros
import DocSearch.Proofs.Relevance.Weights
import DocSearch.Proofs.Relevance.Gates
import DocSearch.Proofs.Relevance.Sums
import DocSearch.Proofs.Relevance.Words
import DocSearch.Proofs.Relevance.Disjunction
import DocSearch.Proofs.Relevance.Complement
import DocSearch.Proofs.Bucket.Regrouping
import DocSearch.Proofs.Search.Renaming
import DocSearch.Proofs.Store.Cloning
import DocSearch.Proofs.Store.Merging
import DocSearch.Proofs.Bucket.Reading
import DocSearch.Proofs.Search.Listing
import DocSearch.Proofs.Query.Codec
import DocSearch.Proofs.Pattern.Widening
import DocSearch.Proofs.Bucket.Values
import DocSearch.Proofs.Bucket.Ranking
import DocSearch.Proofs.Bucket.Combinations
import DocSearch.Proofs.Bucket.KeyObjects
import DocSearch.Proofs.Relevance.SingleValue
import DocSearch.Proofs.Scroll.KeepAlive
import DocSearch.Proofs.Relevance.CopyTargets
import DocSearch.Proofs.Store.Drawing
import DocSearch.Proofs.Pattern.Search
import DocSearch.Proofs.Hit.Snippets
import DocSearch.Proofs.Pattern.Words
import DocSearch.Proofs.Hit.WholeWords
import DocSearch.Proofs.Hit.Selection
import DocSearch.Proofs.Search.NullMembers
