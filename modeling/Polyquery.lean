import Polyquery.Main
import Polyquery.Memory.Store
import Polyquery.Proofs.Truth
import Polyquery.Proofs.Condition.Shape
import Polyquery.Proofs.Condition.DeMorgan
import Polyquery.Proofs.Condition.Meaning
import Polyquery.Proofs.Condition.Comparison
import Polyquery.Proofs.Memory.Evaluation
import Polyquery.Proofs.Memory.Kleene
import Polyquery.Proofs.Sql.Like
import Polyquery.Proofs.Sql.Meaning
import Polyquery.Proofs.Sql.Filter
import Polyquery.Proofs.Mongo.Regex
import Polyquery.Proofs.Mongo.Meaning
import Polyquery.Proofs.Mongo.Filter
import Polyquery.Proofs.Condition.Emptiness
import Polyquery.Proofs.Condition.Collecting
import Polyquery.Proofs.Condition.Faults
import Polyquery.Proofs.Condition.Place
import Polyquery.Proofs.Condition.Wrapper
import Polyquery.Proofs.Condition.Alike
import Polyquery.Proofs.Query.Invisible
import Polyquery.Proofs.Search.Wildcard
import Polyquery.Proofs.Search.Filter
import Polyquery.Proofs.Sql.Scope
import Polyquery.Proofs.Document.ConditionKeys
import Polyquery.Proofs.Document.Readings
import Polyquery.Proofs.Mongo.Literals
import Polyquery.Proofs.Mongo.Coverage
import Polyquery.Proofs.Query.Gate
import Polyquery.Proofs.Query.Made
import Polyquery.Proofs.Document.RoundTrip
import Polyquery.Proofs.Backend.Hindrances
import Polyquery.Proofs.Backend.Natives
import Polyquery.Proofs.Memory.Answer
import Polyquery.Proofs.Query.Customizers
import Polyquery.Proofs.Backend.Columns
import Polyquery.Proofs.Json.Same
import Polyquery.Proofs.Memory.Proper
import Polyquery.Proofs.Memory.Order
import Polyquery.Proofs.Memory.Distinct
import Polyquery.Proofs.Memory.Contract
import Polyquery.Proofs.Memory.Preorder
import Polyquery.Proofs.Query.Pages
import Polyquery.Proofs.Memory.Lifting
import Polyquery.Proofs.Mongo.DistinctRows
import Polyquery.Proofs.Memory.Sums
import Polyquery.Proofs.Memory.Grouping
import Polyquery.Proofs.Memory.DrillDown
import Polyquery.Proofs.Backend.GeneratedNames
import Polyquery.Proofs.Memory.Counting
import Polyquery.Proofs.Backend.Patterns
import Polyquery.Proofs.Mongo.SortDocument
import Polyquery.Proofs.Sql.Orderable
import Polyquery.Proofs.Memory.LiteralMatches
import Polyquery.Proofs.Memory.Slices
import Polyquery.Proofs.Json.Derivations
import Polyquery.Proofs.Memory.Positions
import Polyquery.Proofs.Shell.Brackets
import Polyquery.Proofs.Shell.Submission
import Polyquery.Proofs.Memory.Extremes
import Polyquery.Proofs.Memory.Reading
import Polyquery.Proofs.Expression.Unambiguous
