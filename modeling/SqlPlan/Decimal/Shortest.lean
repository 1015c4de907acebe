/-!
# Shortest decimal digits of a float

A finite float is `m · 2^q`. The reals that round to it form an interval around it, whose ends belong to it when `m`
is even. Of the decimals in this interval the ones with the fewest digits are taken, and of those the nearest; only
where two are equally near is there a choice left, which the caller makes.
-/

namespace SqlPlan

/-- A number `digits · 10 ^ exponent`. -/
structure Decimal where
  digits : Nat
  exponent : Int
deriving Repr, DecidableEq

/-- Which of two equally near decimals is taken: the one with the even last digit, or the greater one. -/
inductive Tie where
  | toEven
  | up
deriving Repr, DecidableEq

/-- The magnitude of a finite float. The next smaller float is only half as far away as the next greater one when
the mantissa is at the lower end of a binade. -/
structure Dyadic where
  mantissa : Nat
  exponent : Int
  binadeStart : Bool
deriving Repr, DecidableEq

/-- The magnitude of a float that is neither infinite nor a NaN. -/
def Dyadic.ofFloat (x : Float) : Dyadic :=
  let bits := x.toBits.toNat
  let fraction : Nat := bits % Nat.pow 2 52
  let biased : Nat := bits / Nat.pow 2 52 % Nat.pow 2 11
  if biased = 0 then ⟨fraction, -1074, false⟩
  else ⟨Nat.pow 2 52 + fraction, Int.ofNat biased - 1075, fraction = 0 && 1 < biased⟩

def isNegative (x : Float) : Bool := x.toBits.toNat / Nat.pow 2 63 = 1

/-- The order of `c · 10 ^ p` and `n · 2 ^ r`. -/
def comparePowers (c : Nat) (p : Int) (n : Nat) (r : Int) : Ordering :=
  compare (c * Nat.pow 10 p.toNat * Nat.pow 2 (-r).toNat) (n * Nat.pow 2 r.toNat * Nat.pow 10 (-p).toNat)

namespace Dyadic

/-- Whether `c · 10 ^ p` rounds to `x`. -/
def covers (x : Dyadic) (c : Nat) (p : Int) : Bool :=
  let even := x.mantissa % 2 = 0
  let below := if x.binadeStart then 4 * x.mantissa - 1 else 4 * x.mantissa - 2
  let lower := comparePowers c p below (x.exponent - 2)
  let upper := comparePowers c p (4 * x.mantissa + 2) (x.exponent - 2)
  (lower == .gt || lower == .eq && even) && (upper == .lt || upper == .eq && even)

/-- The integral part of `x / 10 ^ p`. -/
def unitsOf (x : Dyadic) (p : Int) : Nat :=
  (x.mantissa * Nat.pow 2 x.exponent.toNat * Nat.pow 10 (-p).toNat) /
    (Nat.pow 2 (-x.exponent).toNat * Nat.pow 10 p.toNat)

/-- The exponent of the first decimal digit of a positive `x`. -/
def leadingExponent (x : Dyadic) : Int :=
  let num := x.mantissa * Nat.pow 2 x.exponent.toNat
  let den := Nat.pow 2 (-x.exponent).toNat
  if den ≤ num then ((Nat.toDigits 10 (num / den)).length : Int) - 1
  else if num = 0 then 0
  else
    let inverse := (den - 1) / num
    if inverse = 0 then 0 else -((Nat.toDigits 10 inverse).length : Int)

/-- Of the multiples `c` and `c + 1` of `10 ^ p` around `x`, the one nearer to it. -/
def nearer (x : Dyadic) (tie : Tie) (c : Nat) (p : Int) : Nat :=
  match comparePowers (2 * c + 1) p x.mantissa (x.exponent + 1) with
  | .gt => c
  | .lt => c + 1
  | .eq =>
    match tie with
    | .toEven => if c % 2 = 0 then c else c + 1
    | .up => c + 1

/-- The multiple of `10 ^ p` nearest to `x` among those that round to it. -/
def multiple? (x : Dyadic) (tie : Tie) (p : Int) : Option Nat :=
  let c := x.unitsOf p
  match x.covers c p, x.covers (c + 1) p with
  | true, true => some (x.nearer tie c p)
  | true, false => some c
  | false, true => some (c + 1)
  | false, false => none

/-- The shortest decimal that rounds to a positive `x`; seventeen digits are always enough. -/
def shortest (x : Dyadic) (tie : Tie) : Decimal :=
  let e := x.leadingExponent
  let found := (List.range 17).findSome? fun (k : Nat) =>
    let p := e - Int.ofNat k
    (x.multiple? tie p).map fun c => if c % 10 = 0 then (⟨c / 10, p + 1⟩ : Decimal) else ⟨c, p⟩
  found.getD ⟨x.unitsOf (e - 17), e - 17⟩

end Dyadic

end SqlPlan
