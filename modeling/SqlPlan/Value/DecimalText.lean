/-!
# Decimal text

A decimal is written as an optional minus sign, one or more digits and, optionally, a point and any number of digits.
-/

namespace SqlPlan

/-- A text without a leading minus sign. -/
def withoutSign : List Char → List Char
  | '-' :: rest => rest
  | cs => cs

/-- The parts of a text before and after its first point. -/
def splitPoint (cs : List Char) : List Char × List Char :=
  (cs.takeWhile (· != '.'), (cs.dropWhile (· != '.')).drop 1)

/-- Whether a text is a decimal with at most `scale` digits after the point and at most `precision - scale` digits,
leading zeros not counted, before it. -/
def decimalFits (text : String) (precision scale : UInt8) : Bool :=
  let (integral, fraction) := splitPoint (withoutSign text.toList)
  !integral.isEmpty && integral.all Char.isDigit && fraction.all Char.isDigit &&
    fraction.length ≤ scale.toNat &&
    (integral.dropWhile (· == '0')).length ≤ precision.toNat - scale.toNat

end SqlPlan
