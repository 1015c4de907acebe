import SqlPlan.DataType.Unit
import SqlPlan.Node.Kind

/-!
# Dialects

What a dialect of SQL can express and which words it has for units.
-/

namespace SqlPlan

/-- The keywords for units, as far as there are any. -/
abbrev Vocabulary : Type := TemporalUnit → Option String

namespace Vocabulary

/-- The vocabulary with one more keyword, in place of an earlier one. -/
def insert (v : Vocabulary) (unit : TemporalUnit) (keyword : String) : Vocabulary := fun u =>
  if u = unit then some keyword else v u

/-- The vocabulary of a list, in which the last keyword for a unit counts. -/
def ofList (entries : List (TemporalUnit × String)) : Vocabulary :=
  entries.foldl (fun v (unit, keyword) => v.insert unit keyword) fun _ => none

/-- The units that have keywords, from the longest to the shortest. -/
def toList (v : Vocabulary) : List (TemporalUnit × String) :=
  TemporalUnit.all.filterMap fun u => (v u).map (u, ·)

end Vocabulary

structure Dialect where
  name : String
  /-- The operations that the dialect does not have. -/
  unsupported : List Kind
  /-- The words for units in truncations. -/
  truncateUnits : Vocabulary
  /-- The words for units in intervals. -/
  intervalUnits : Vocabulary
  /-- Whether a first or last value needs an order. -/
  orderRequired : Bool
  correlationModes : List CorrelationMode
  /-- Whether there is a `CURRENT_DATE`. -/
  nativeCurrentDate : Bool
  /-- Whether aggregates take a `FILTER`. -/
  aggregateFilter : Bool

namespace Dialect

/-- Truncation takes all units down to microseconds. -/
def plainTruncateUnits : Vocabulary
  | .year => some "year"
  | .quarter => some "quarter"
  | .month => some "month"
  | .week => some "week"
  | .day => some "day"
  | .hour => some "hour"
  | .minute => some "minute"
  | .second => some "second"
  | .millisecond => some "millisecond"
  | .microsecond => some "microsecond"
  | .nanosecond => none

/-- Intervals have no quarters and end at microseconds. -/
def plainIntervalUnits : Vocabulary
  | .year => some "YEAR"
  | .quarter => none
  | .month => some "MONTH"
  | .week => some "WEEK"
  | .day => some "DAY"
  | .hour => some "HOUR"
  | .minute => some "MINUTE"
  | .second => some "SECOND"
  | .millisecond => some "MILLISECOND"
  | .microsecond => some "MICROSECOND"
  | .nanosecond => none

/-- Plain SQL with every operation. -/
def base : Dialect where
  name := "base"
  unsupported := []
  truncateUnits := plainTruncateUnits
  intervalUnits := plainIntervalUnits
  orderRequired := false
  correlationModes := [.sample, .population]
  nativeCurrentDate := true
  aggregateFilter := true

def postgres : Dialect :=
  { base with
    name := "postgres"
    truncateUnits :=
      (plainTruncateUnits.insert .millisecond "milliseconds").insert .microsecond "microseconds"
    correlationModes := [.population] }

def duckdb : Dialect :=
  { base with
    name := "duckdb"
    correlationModes := [.population] }

/-- The words of `postgres` with fewer functions. -/
def risingwave : Dialect :=
  { postgres with
    name := "risingwave"
    unsupported := [.arbitrary, .dateFromYmd, .mode, .randomUuid]
    orderRequired := true
    nativeCurrentDate := false }

def builtins : List Dialect := [base, postgres, duckdb, risingwave]

def supports (d : Dialect) (kind : Kind) : Bool := !d.unsupported.contains kind

def supportsCorrelation (d : Dialect) (mode : CorrelationMode) : Bool := d.correlationModes.contains mode

end Dialect

end SqlPlan
