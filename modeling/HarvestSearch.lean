import HarvestSearch.Boost
import HarvestSearch.Catalog
import HarvestSearch.CatalogFile
import HarvestSearch.CommandLine
import HarvestSearch.CommandLine.Help
import HarvestSearch.Config
import HarvestSearch.ContentService
import HarvestSearch.Decimal.Binary64
import HarvestSearch.Decimal.Shortest
import HarvestSearch.Document
import HarvestSearch.DomainError
import HarvestSearch.Element
import HarvestSearch.Engine
import HarvestSearch.Facet
import HarvestSearch.Field
import HarvestSearch.FieldMap
import HarvestSearch.Filter
import HarvestSearch.Finder
import HarvestSearch.Http.Header
import HarvestSearch.Http.Message
import HarvestSearch.Item
import HarvestSearch.Json.Basic
import HarvestSearch.Json.Decode
import HarvestSearch.Json.Parser
import HarvestSearch.Json.Printer
import HarvestSearch.Load
import HarvestSearch.Main
import HarvestSearch.Page
import HarvestSearch.Program
import HarvestSearch.Proofs.AnswersByState
import HarvestSearch.Proofs.BookkeepingFields
import HarvestSearch.Proofs.BoostWeights
import HarvestSearch.Proofs.BucketCaps
import HarvestSearch.Proofs.CallOrder
import HarvestSearch.Proofs.CatalogChecks
import HarvestSearch.Proofs.CollectedPairs
import HarvestSearch.Proofs.CountedFacets
import HarvestSearch.Proofs.DecodedFacets
import HarvestSearch.Proofs.DryRuns
import HarvestSearch.Proofs.EngineHeaders
import HarvestSearch.Proofs.EngineReplies
import HarvestSearch.Proofs.EntriesInOrder
import HarvestSearch.Proofs.FieldCollisions
import HarvestSearch.Proofs.FinderRuns
import HarvestSearch.Proofs.FirstOccurrences
import HarvestSearch.Proofs.IndentedText
import HarvestSearch.Proofs.IndependentFinders
import HarvestSearch.Proofs.IndexFields
import HarvestSearch.Proofs.LoadedFiles
import HarvestSearch.Proofs.NormalizedText
import HarvestSearch.Proofs.PageDivision
import HarvestSearch.Proofs.PageWindows
import HarvestSearch.Proofs.PrintedResults
import HarvestSearch.Proofs.QueryMeaning
import HarvestSearch.Proofs.QueryOperators
import HarvestSearch.Proofs.RefusedDocuments
import HarvestSearch.Proofs.RenderedFilters
import HarvestSearch.Proofs.ReportedFailures
import HarvestSearch.Proofs.RequestedFacets
import HarvestSearch.Proofs.ResolvedOrders
import HarvestSearch.Proofs.SpelledOrders
import HarvestSearch.Proofs.StoredItems
import HarvestSearch.Proofs.TwoDialects
import HarvestSearch.Proofs.WellFormedDocuments
import HarvestSearch.Proofs.WordwiseText
import HarvestSearch.Proofs.WrittenDocument
import HarvestSearch.Proofs.WrittenRecords
import HarvestSearch.QueryText
import HarvestSearch.Registry
import HarvestSearch.Reply
import HarvestSearch.Request
import HarvestSearch.Sample
import HarvestSearch.SearchError
import HarvestSearch.Settings
import HarvestSearch.SortOrder
import HarvestSearch.StableOrder
import HarvestSearch.Text.Category
import HarvestSearch.Text.Trim
import HarvestSearch.Toml.Parser
import HarvestSearch.Toml.Scalar
import HarvestSearch.Toml.Table
import HarvestSearch.Toml.Value
