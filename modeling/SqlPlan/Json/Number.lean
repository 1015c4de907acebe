import SqlPlan.Json.Basic
import SqlPlan.Text.Digits

/-!
# Reading JSON numbers

A number is read as a significand of 64 bits and a power of ten. Digits that the significand has no room for are
counted when they stand before the point and dropped when they stand behind it. The float is then the significand
times or divided by the power of ten.
-/

namespace SqlPlan.Json

/-- Appends decimal digits to a significand as long as it stays below `2 ^ 64`, and returns the digits left over. -/
def absorb (significand : Nat) : List Char → Nat × List Char
  | [] => (significand, [])
  | d :: ds =>
    let next := 10 * significand + (d.toNat - '0'.toNat)
    if next < Nat.pow 2 64 then absorb next ds else (significand, d :: ds)

/-- A power of ten as a float. -/
def powerOfTen (n : Nat) : Float := Float.ofScientific 1 false n

/-- `significand · 10 ^ exponent` as a float, or nothing if it is too large. A division by more than `10 ^ 308` is
done in two steps; after two divisions by `10 ^ 308` nothing is left of any significand. -/
def scaled? (significand : Nat) (exponent : Int) : Option Float :=
  let f := (UInt64.ofNat significand).toFloat
  let n := exponent.natAbs
  if exponent < 0 then
    if n ≤ 308 then some (f / powerOfTen n)
    else if n ≤ 616 then some (f / powerOfTen 308 / powerOfTen (n - 308))
    else some 0
  else if n ≤ 308 then
    let x := f * powerOfTen n
    if x.isInf then none else some x
  else if significand = 0 then some 0
  else none

/-- Reads the exponent behind the letter `e`. -/
def exponent? (cs : List Char) : Option (Int × List Char) :=
  let (negative, cs) :=
    match cs with
    | '+' :: rest => (false, rest)
    | '-' :: rest => (true, rest)
    | _ => (false, cs)
  match digitRun cs with
  | ([], _) => none
  | (ds, rest) => some (if negative then -(digitsValue ds : Int) else digitsValue ds, rest)

def floatOf (negative : Bool) (significand : Nat) (exponent : Int) (rest : List Char) :
    Option (Json × List Char) :=
  (scaled? significand exponent).map fun x => (.float (if negative then -x else x), rest)

/-- Reads the exponent, if there is one, of a number that is known to be a float. -/
def finishFloat? (negative : Bool) (significand : Nat) (exponent : Int) (cs : List Char) :
    Option (Json × List Char) :=
  match cs with
  | 'e' :: rest | 'E' :: rest => do
    let (e, rest) ← exponent? rest
    floatOf negative significand (exponent + e) rest
  | _ => floatOf negative significand exponent cs

/-- An integer of 64 bits; a negative one out of range, and a negative zero, is a float. -/
def integerOf (negative : Bool) (significand : Nat) : Json :=
  if !negative then .int significand
  else if significand = 0 || Nat.pow 2 63 < significand then .float (-(UInt64.ofNat significand).toFloat)
  else .int (-(significand : Int))

/-- Reads a number after its sign. -/
def unsigned? (negative : Bool) (cs : List Char) : Option (Json × List Char) :=
  match digitRun cs with
  | ([], _) => none
  | (d :: ds, rest) =>
    if d = '0' && !ds.isEmpty then none
    else
      let (significand, surplus) := absorb 0 (d :: ds)
      match rest with
      | '.' :: fraction =>
        match digitRun fraction with
        | ([], _) => none
        | (fs, rest) =>
          let (significand, dropped) := absorb significand fs
          let places := fs.length - dropped.length
          finishFloat? negative significand ((surplus.length : Int) - places) rest
      | 'e' :: _ | 'E' :: _ => finishFloat? negative significand surplus.length rest
      | _ =>
        if surplus.isEmpty then some (integerOf negative significand, rest)
        else floatOf negative significand surplus.length rest

/-- Reads a number and returns the text behind it. -/
def number? (cs : List Char) : Option (Json × List Char) :=
  match cs with
  | '-' :: rest => unsigned? true rest
  | _ => unsigned? false cs

end SqlPlan.Json
