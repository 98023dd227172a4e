import SearchQuery.Condition.Json
import SearchQuery.Engine
import SearchQuery.Proofs.Engine.Recall
import SearchQuery.Proofs.Order.Transitive
import SearchQuery.Proofs.Query.Grouped
import SearchQuery.Proofs.Simplify.Meaning
import SearchQuery.Proofs.Token.Machine
import SearchQuery.Proofs.Simplify.Canonical
import SearchQuery.Proofs.Simplify.Places
import SearchQuery.Proofs.Score.Exact
import SearchQuery.Proofs.Query.Texts
import SearchQuery.Proofs.Simplify.Weight
import SearchQuery.Proofs.Query.Parsed
import SearchQuery.Proofs.Engine.Limit
import SearchQuery.Proofs.Order.Rearranged
import SearchQuery.Proofs.Vocabulary
import SearchQuery.Proofs.Kinds
import SearchQuery.Proofs.Query.Kinds
import SearchQuery.Proofs.Engine.Kinds
import SearchQuery.Proofs.Calendar.Days
import SearchQuery.Proofs.Calendar.Rfc3339
import SearchQuery.Proofs.Json.Values
import SearchQuery.Proofs.Json.Conditions
import SearchQuery.Proofs.Json.Numbers
import SearchQuery.Proofs.Json.Reader
import SearchQuery.Proofs.Json.RoundTrip
import SearchQuery.Proofs.Cache.Flush
import SearchQuery.Proofs.Settings.Layouts
import SearchQuery.Proofs.Query.Typed
import SearchQuery.Proofs.Codec.Order
import SearchQuery.Proofs.Codec.Reduced
import SearchQuery.Proofs.Simplify.Kept
import SearchQuery.Proofs.Simplify.Signs
import SearchQuery.Proofs.Engine.Hollow
import SearchQuery.Proofs.Query.Negated
import SearchQuery.Proofs.Matching.Positions
import SearchQuery.Proofs.Settings.Kinds
import SearchQuery.Proofs.Codec.Date
import SearchQuery.Proofs.Token.Progress
import SearchQuery.Proofs.Token.Bounds
import SearchQuery.Proofs.Token.Parts
