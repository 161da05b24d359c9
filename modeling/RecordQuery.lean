import RecordQuery.LogConfig
import RecordQuery.Provider
import RecordQuery.Request.Json
import RecordQuery.Schema.Builder
import RecordQuery.Summary
import RecordQuery.Proofs.SortCompare
import RecordQuery.Proofs.OrderKeys
import RecordQuery.Proofs.Answers
import RecordQuery.Proofs.SelectorBounds
import RecordQuery.Proofs.Nesting
import RecordQuery.Proofs.RequestText
import RecordQuery.Proofs.Planning
import RecordQuery.Proofs.ByteOrder
import RecordQuery.Proofs.RegistryRuns
import RecordQuery.Proofs.Pages
import RecordQuery.Proofs.Registration
import RecordQuery.Proofs.Relations
import RecordQuery.Proofs.Sessions
import RecordQuery.Proofs.Rectangles
import RecordQuery.Proofs.Outlines
import RecordQuery.Proofs.Decimals
import RecordQuery.Proofs.TableText
import RecordQuery.Proofs.SuccessiveSorts
import RecordQuery.Proofs.FilterOrder
import RecordQuery.Proofs.SortedFilters
import RecordQuery.Proofs.DateTimeText
import RecordQuery.Proofs.QuotedValues
import RecordQuery.Proofs.Memberships
import RecordQuery.Proofs.Walks
import RecordQuery.Proofs.Listings
import RecordQuery.Proofs.Respelling
import RecordQuery.Proofs.Excerpts
import RecordQuery.Proofs.RequestSizes
import RecordQuery.Proofs.Refusals
import RecordQuery.Proofs.DayNumbers
import RecordQuery.Proofs.ZonedStamps
import RecordQuery.Proofs.TableTree
import RecordQuery.Proofs.ExactValues
