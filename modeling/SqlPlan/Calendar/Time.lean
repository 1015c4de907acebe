import SqlPlan.Calendar.Date

/-!
# Times of day and timestamps

A time of day has a resolution of a nanosecond, and every minute may have a sixty-first second, the leap second.
-/

namespace SqlPlan

namespace Calendar

def isTime (hour minute second nano : Nat) : Bool :=
  hour < 24 && minute < 60 && second ≤ 60 && nano < 1000000000

/-- Reads the digits of a fraction of a second as nanoseconds. Digits after the ninth are read and ignored. -/
def fraction? (cs : List Char) : Option (Nat × List Char) := do
  let (n, rest) ← digits? 9 cs
  let used := cs.length - rest.length
  return (n * Nat.pow 10 (9 - used), rest.dropWhile Char.isDigit)

/-- Reads a second and, behind a point, its fraction. -/
def second? (cs : List Char) : Option (Nat × Nat × List Char) := do
  let (second, cs) ← number? 2 cs
  match cs with
  | '.' :: rest =>
    let (nano, rest) ← fraction? rest
    return (second, nano, rest)
  | _ => return (second, 0, cs)

/-- The fraction of a second with three, six or nine digits, whichever is the least that is exact. -/
def fractionText (nano : Nat) : String :=
  if nano = 0 then ""
  else if nano % 1000000 = 0 then "." ++ padded 3 (nano / 1000000)
  else if nano % 1000 = 0 then "." ++ padded 6 (nano / 1000)
  else "." ++ padded 9 nano

end Calendar

/-- A time of day; `second` is 60 in a leap second. -/
structure TimeOfDay where
  hour : Nat
  minute : Nat
  second : Nat
  nano : Nat
  exists_time : Calendar.isTime hour minute second nano = true
deriving DecidableEq

namespace TimeOfDay

open Calendar

def ofParts? (hour minute second nano : Nat) : Option TimeOfDay :=
  if h : isTime hour minute second nano then some ⟨hour, minute, second, nano, h⟩ else none

/-- Reads hour and minute. -/
def minutes? (cs : List Char) : Option (Nat × Nat × List Char) := do
  let (hour, cs) ← number? 2 cs
  let cs ← mark? ':' cs
  let (minute, cs) ← number? 2 cs
  return (hour, minute, cs)

/-- Reads a time with its seconds and returns the text behind it. -/
def read? (cs : List Char) : Option (TimeOfDay × List Char) := do
  let (hour, minute, cs) ← minutes? cs
  let cs ← mark? ':' cs
  let (second, nano, cs) ← second? cs
  let time ← ofParts? hour minute second nano
  return (time, cs)

/-- Reads a text that holds a time and nothing else. The seconds may be left out. -/
def ofText? (text : String) : Option TimeOfDay := do
  let (hour, minute, rest) ← minutes? text.toList
  if (skipBlanks rest).isEmpty then ofParts? hour minute 0 0
  else
    let (time, rest) ← read? text.toList
    if (skipBlanks rest).isEmpty then some time else none

def text (t : TimeOfDay) : String :=
  padded 2 t.hour ++ ":" ++ padded 2 t.minute ++ ":" ++ padded 2 t.second ++ fractionText t.nano

end TimeOfDay

/-- A date and a time of day, in no particular time zone. -/
structure Timestamp where
  date : Date
  time : TimeOfDay
deriving DecidableEq

namespace Timestamp

/-- Reads a text that holds a date, the letter `T` and a time with its seconds, and nothing else. -/
def ofText? (text : String) : Option Timestamp := do
  let (date, cs) ← Date.read? text.toList
  let cs ← Calendar.mark? 'T' cs
  let (time, rest) ← TimeOfDay.read? cs
  if (skipBlanks rest).isEmpty then some ⟨date, time⟩ else none

/-- Date and time with `separator` between them. -/
def text (t : Timestamp) (separator : String) : String :=
  t.date.text ++ separator ++ t.time.text

end Timestamp

end SqlPlan
