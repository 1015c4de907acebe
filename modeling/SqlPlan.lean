import SqlPlan.Main
import SqlPlan.Node.Build
import SqlPlan.Node.Case
import SqlPlan.Proofs.Nodes
import SqlPlan.Proofs.Outcome
import SqlPlan.Proofs.Typing
import SqlPlan.Proofs.Rows
import SqlPlan.Proofs.Clauses
import SqlPlan.Proofs.Compilable
import SqlPlan.Proofs.Values
import SqlPlan.Proofs.Scopes
import SqlPlan.Proofs.Merging
import SqlPlan.Proofs.Numerals
import SqlPlan.Proofs.CalendarText
import SqlPlan.Proofs.JsonText
import SqlPlan.Proofs.Documents
import SqlPlan.Proofs.NodeText
import SqlPlan.Proofs.Promotion
import SqlPlan.Proofs.Extents
import SqlPlan.Proofs.CommonType
import SqlPlan.Proofs.SignedZeros
import SqlPlan.Proofs.Equality
import SqlPlan.Proofs.References
import SqlPlan.Proofs.Relations
import SqlPlan.Proofs.Columns
import SqlPlan.Proofs.Construction
import SqlPlan.Proofs.Lexing
import SqlPlan.Proofs.Trees
import SqlPlan.Proofs.Wording
import SqlPlan.Proofs.Texts
import SqlPlan.Proofs.Comments
import SqlPlan.Proofs.Alike
import SqlPlan.Proofs.Contents
import SqlPlan.Proofs.Steps
import SqlPlan.Proofs.Aggregates
import SqlPlan.Proofs.Nesting
import SqlPlan.Proofs.Reading
import SqlPlan.Proofs.Unambiguous
import SqlPlan.Proofs.Branches
import SqlPlan.Proofs.Restriction
import SqlPlan.Proofs.Registration
import SqlPlan.Proofs.Configuration
import SqlPlan.Proofs.UpperBounds
import SqlPlan.Proofs.Exchange
import SqlPlan.Proofs.Conformance
import SqlPlan.Proofs.SqlDocuments
import SqlPlan.Proofs.Precisions
import SqlPlan.Proofs.Shapes
import SqlPlan.Proofs.Subqueries
import SqlPlan.Proofs.FloatText
import SqlPlan.Proofs.Encodings
import SqlPlan.Proofs.Picks
import SqlPlan.Proofs.Filters
import SqlPlan.Proofs.Identities
import SqlPlan.Proofs.Positions
import SqlPlan.Proofs.Intervals
import SqlPlan.Proofs.Canonical
import SqlPlan.Proofs.Decimals
import SqlPlan.Proofs.Labels
