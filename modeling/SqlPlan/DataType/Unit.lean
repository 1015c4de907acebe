/-!
# Temporal units

The calendar and clock units in which dates and times are truncated and intervals are counted.
-/

namespace SqlPlan

inductive TemporalUnit where
  | year
  | quarter
  | month
  | week
  | day
  | hour
  | minute
  | second
  | millisecond
  | microsecond
  | nanosecond
deriving Repr, DecidableEq

namespace TemporalUnit

/-- All units, from the longest to the shortest. -/
def all : List TemporalUnit :=
  [.year, .quarter, .month, .week, .day, .hour, .minute, .second, .millisecond, .microsecond, .nanosecond]

def name : TemporalUnit → String
  | .year => "year"
  | .quarter => "quarter"
  | .month => "month"
  | .week => "week"
  | .day => "day"
  | .hour => "hour"
  | .minute => "minute"
  | .second => "second"
  | .millisecond => "millisecond"
  | .microsecond => "microsecond"
  | .nanosecond => "nanosecond"

def ofName? (text : String) : Option TemporalUnit := all.find? (·.name == text)

/-- The short code of a unit. -/
def code : TemporalUnit → String
  | .year => "Y"
  | .quarter => "Q"
  | .month => "M"
  | .week => "W"
  | .day => "D"
  | .hour => "h"
  | .minute => "m"
  | .second => "s"
  | .millisecond => "ms"
  | .microsecond => "us"
  | .nanosecond => "ns"

def ofCode? (text : String) : Option TemporalUnit := all.find? (·.code == text)

/-- Units in which a date is counted. -/
def isDateUnit : TemporalUnit → Bool
  | .year | .quarter | .month | .week | .day => true
  | _ => false

/-- Units in which a time of day is counted. -/
def isTimeUnit (u : TemporalUnit) : Bool := !u.isDateUnit

/-- The list of units is complete. -/
theorem mem_all (u : TemporalUnit) : u ∈ all := by cases u <;> decide

/-- Every unit is found under its name. -/
theorem ofName?_name (u : TemporalUnit) : ofName? u.name = some u := by cases u <;> decide

/-- Every unit is found under its code. -/
theorem ofCode?_code (u : TemporalUnit) : ofCode? u.code = some u := by cases u <;> decide

end TemporalUnit

end SqlPlan
