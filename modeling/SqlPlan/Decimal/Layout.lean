import SqlPlan.Decimal.Shortest

/-!
# Writing floats

A float is written with the shortest digits that read back as it, either positionally or with an exponent. A
`FloatLayout` holds the decisions of one written form.
-/

namespace SqlPlan

/-- The decisions of a written form of floats. -/
structure FloatLayout where
  /-- The least exponent of the first digit that is still written positionally. -/
  leastPlain : Int
  /-- The greatest such exponent. -/
  greatestPlain : Int
  /-- What stands before the digits of an exponent that is not negative. -/
  plusSign : String
  tie : Tie
deriving Repr, DecidableEq

/-- Floats in JSON documents: `0.00001`, `1e-6`, `1000000000000000.0`, `1e+16`. -/
def FloatLayout.json : FloatLayout := ⟨-5, 15, "+", .toEven⟩

/-- Floats in SQL text and in messages: `0.0001`, `1e-5`, `1000000000000000.0`, `1e16`. -/
def FloatLayout.sql : FloatLayout := ⟨-4, 15, "", .up⟩

namespace FloatLayout

def zeros (n : Nat) : List Char := List.replicate n '0'

/-- Digits `ds` with the last of them at the power `exponent` of ten, always with a fraction. -/
def positional (ds : List Char) (exponent : Int) : List Char :=
  if 0 ≤ exponent then ds ++ zeros exponent.toNat ++ ['.', '0']
  else
    let places := (-exponent).toNat
    if places < ds.length then ds.take (ds.length - places) ++ '.' :: ds.drop (ds.length - places)
    else '0' :: '.' :: (zeros (places - ds.length) ++ ds)

/-- Digits `ds` with the point after the first of them, which stands at the power `leading` of ten. -/
def scientific (layout : FloatLayout) (ds : List Char) (leading : Int) : List Char :=
  let fraction := if ds.length ≤ 1 then [] else '.' :: ds.drop 1
  let sign := if leading < 0 then "-" else layout.plusSign
  ds.take 1 ++ fraction ++ 'e' :: (sign.toList ++ Nat.toDigits 10 leading.natAbs)

/-- The written form of a float that is neither infinite nor a NaN. -/
def write (layout : FloatLayout) (x : Float) : String :=
  let sign := if isNegative x then ['-'] else []
  let magnitude := Dyadic.ofFloat x
  if magnitude.mantissa = 0 then String.ofList (sign ++ ['0', '.', '0'])
  else
    let decimal := magnitude.shortest layout.tie
    let ds := Nat.toDigits 10 decimal.digits
    let leading := decimal.exponent + (ds.length : Int) - 1
    String.ofList <| sign ++
      if layout.leastPlain ≤ leading && leading ≤ layout.greatestPlain then positional ds decimal.exponent
      else layout.scientific ds leading

end FloatLayout

end SqlPlan
