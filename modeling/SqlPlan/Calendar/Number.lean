import SqlPlan.Text.Blank
import SqlPlan.Text.Digits

/-!
# Numbers and marks in calendar text

The parts of a date or a time are numbers with a limited count of digits, kept apart by marks. White space may stand
before each of them.
-/

namespace SqlPlan.Calendar

/-- Reads at least one and at most `width` digits, at the very start of the text. -/
def digits? (width : Nat) (cs : List Char) : Option (Nat × List Char) :=
  match (cs.take width).takeWhile Char.isDigit with
  | [] => none
  | d :: ds => some (digitsValue (d :: ds), cs.drop (d :: ds).length)

/-- Reads a number of at most `width` digits, after white space. -/
def number? (width : Nat) (cs : List Char) : Option (Nat × List Char) :=
  digits? width (skipBlanks cs)

/-- Reads a year: up to four digits, or a sign and any count of digits. -/
def year? (cs : List Char) : Option (Int × List Char) :=
  match skipBlanks cs with
  | '-' :: rest => (digits? rest.length rest).map fun (n, r) => (-(n : Int), r)
  | '+' :: rest => (digits? rest.length rest).map fun (n, r) => ((n : Int), r)
  | rest => (digits? 4 rest).map fun (n, r) => ((n : Int), r)

/-- Reads the mark `c`, after white space. -/
def mark? (c : Char) (cs : List Char) : Option (List Char) :=
  match skipBlanks cs with
  | d :: rest => if d = c then some rest else none
  | [] => none

/-- A number with leading zeros up to `width` digits. -/
def padded (width n : Nat) : String :=
  let ds := Nat.toDigits 10 n
  String.ofList (List.replicate (width - ds.length) '0' ++ ds)

end SqlPlan.Calendar
