import Mathlib.Algebra.Order.Field.Power
import Mathlib.Algebra.Order.Ring.Int
import Mathlib.Algebra.Order.Ring.Rat
import Mathlib.Tactic.Linarith
import Mathlib.Tactic.Positivity
import Mathlib.Tactic.Ring
import SqlPlan.Decimal.Shortest

/-!
# Decimals that round to floats

The numbers that round to a float lie between the middles to its neighbours, so that no number rounds to two floats,
and a decimal of seventeen digits always lies between them.

* `Dyadic.Bounded.rounds_shortest`: the shortest digits of a float round to it.
* `Dyadic.eq_of_rounds`: of two floats of one sign, a number rounds to at most one.
-/

namespace SqlPlan

/-! ### Powers of two and ten -/

private theorem zpow_mul_pow_toNat {b : ℚ} (hb : b ≠ 0) (p : Int) : b ^ p * b ^ (-p).toNat = b ^ p.toNat := by
  rw [← zpow_natCast, ← zpow_natCast, ← zpow_add₀ hb]
  congr 1
  omega

section

variable (c : Nat) (p : Int) (n : Nat) (r : Int)

private theorem scaled_left :
    (c * 10 ^ p : ℚ) * (10 ^ (-p).toNat * 2 ^ (-r).toNat) =
      ((c * Nat.pow 10 p.toNat * Nat.pow 2 (-r).toNat : Nat) : ℚ) := by
  push_cast [Nat.pow_eq]
  rw [← zpow_mul_pow_toNat (by norm_num : (10 : ℚ) ≠ 0) p]
  ring

private theorem scaled_right :
    (n * 2 ^ r : ℚ) * (10 ^ (-p).toNat * 2 ^ (-r).toNat) =
      ((n * Nat.pow 2 r.toNat * Nat.pow 10 (-p).toNat : Nat) : ℚ) := by
  push_cast [Nat.pow_eq]
  rw [← zpow_mul_pow_toNat (by norm_num : (2 : ℚ) ≠ 0) r]
  ring

private theorem comparePowers_eq_lt_iff : comparePowers c p n r = .lt ↔ (c * 10 ^ p : ℚ) < n * 2 ^ r := by
  have hfactor : (0 : ℚ) < 10 ^ (-p).toNat * 2 ^ (-r).toNat := by positivity
  rw [comparePowers, Nat.compare_eq_lt, ← mul_lt_mul_iff_left₀ hfactor, scaled_left, scaled_right, Nat.cast_lt]

private theorem comparePowers_eq_eq_iff : comparePowers c p n r = .eq ↔ (c * 10 ^ p : ℚ) = n * 2 ^ r := by
  have hfactor : (10 ^ (-p).toNat * 2 ^ (-r).toNat : ℚ) ≠ 0 := by positivity
  rw [comparePowers, Nat.compare_eq_eq, ← mul_left_inj' hfactor, scaled_left, scaled_right, Nat.cast_inj]

private theorem comparePowers_eq_gt_iff : comparePowers c p n r = .gt ↔ (n * 2 ^ r : ℚ) < c * 10 ^ p := by
  have hfactor : (0 : ℚ) < 10 ^ (-p).toNat * 2 ^ (-r).toNat := by positivity
  rw [comparePowers, Nat.compare_eq_gt, ← mul_lt_mul_iff_left₀ hfactor, scaled_left, scaled_right, Nat.cast_lt]

end

namespace Dyadic

variable {x : Dyadic} {tie : Tie} {c : Nat} {p : Int} {v : ℚ}

/-! ### The numbers that round to a float -/

def value (x : Dyadic) : ℚ := x.mantissa * 2 ^ x.exponent

/-- The middle between a float and the next smaller one. -/
def lower (x : Dyadic) : ℚ :=
  (if x.binadeStart then 4 * x.mantissa - 1 else 4 * x.mantissa - 2 : Nat) * 2 ^ (x.exponent - 2)

/-- The middle between a float and the next greater one. -/
def upper (x : Dyadic) : ℚ := (4 * x.mantissa + 2 : Nat) * 2 ^ (x.exponent - 2)

/-- A number rounds to a float: it lies between the middles, which themselves round to the even one of two floats. -/
def Rounds (x : Dyadic) (v : ℚ) : Prop :=
  (x.lower < v ∨ x.lower = v ∧ x.mantissa % 2 = 0) ∧ (v < x.upper ∨ v = x.upper ∧ x.mantissa % 2 = 0)

private theorem covers_iff : x.covers c p = true ↔ x.Rounds (c * 10 ^ p) := by
  simp only [covers, Rounds, lower, upper, Bool.and_eq_true, Bool.or_eq_true, beq_iff_eq, decide_eq_true_eq,
    comparePowers_eq_lt_iff, comparePowers_eq_eq_iff, comparePowers_eq_gt_iff]
  rw [eq_comm (a := (c * 10 ^ p : ℚ))]

private theorem value_eq (x : Dyadic) : x.value = (4 * x.mantissa : Nat) * 2 ^ (x.exponent - 2) := by
  rw [value, zpow_sub₀ (by norm_num : (2 : ℚ) ≠ 0)]
  push_cast
  ring

/-- A float lies below the middle to the next one. -/
theorem value_lt_upper (x : Dyadic) : x.value < x.upper := by
  rw [value_eq, upper]
  gcongr
  omega

private theorem lower_lt_value (h : 0 < x.mantissa) : x.lower < x.value := by
  rw [value_eq, lower]
  gcongr
  split <;> omega

private theorem lower_lt_upper (x : Dyadic) : x.lower < x.upper := by
  rw [lower, upper]
  gcongr
  split <;> omega

private theorem Rounds.lower_le (h : x.Rounds v) : x.lower ≤ v := h.1.elim le_of_lt fun h => le_of_eq h.1

private theorem Rounds.le_upper (h : x.Rounds v) : v ≤ x.upper := h.2.elim le_of_lt fun h => le_of_eq h.1

/-! ### Multiples of a power of ten -/

/-- A float lies between the multiples `unitsOf` and `unitsOf + 1` of a power of ten. -/
private theorem unitsOf_bounds (x : Dyadic) (p : Int) :
    (x.unitsOf p * 10 ^ p : ℚ) ≤ x.value ∧ x.value < (x.unitsOf p + 1 : Nat) * 10 ^ p := by
  unfold unitsOf
  generalize hnum : x.mantissa * Nat.pow 2 x.exponent.toNat * Nat.pow 10 (-p).toNat = num
  generalize hden : Nat.pow 2 (-x.exponent).toNat * Nat.pow 10 p.toNat = den
  have hpos : (0 : ℚ) < den := by
    rw [← hden]
    push_cast [Nat.pow_eq]
    positivity
  have hvalue : x.value * den = num * 10 ^ p := by
    rw [← hnum, ← hden, value]
    push_cast [Nat.pow_eq]
    rw [← zpow_mul_pow_toNat (by norm_num : (2 : ℚ) ≠ 0) x.exponent,
      ← zpow_mul_pow_toNat (by norm_num : (10 : ℚ) ≠ 0) p]
    ring
  have hlow : ((num / den : Nat) : ℚ) * den ≤ num := by exact_mod_cast Nat.div_mul_le_self num den
  have hhigh : (num : ℚ) < (num / den + 1 : Nat) * den := by
    exact_mod_cast (Nat.div_lt_iff_lt_mul (by exact_mod_cast hpos)).1 (Nat.lt_succ_self (num / den))
  constructor
  · refine le_of_mul_le_mul_right ?_ hpos
    calc
      ((num / den : Nat) * 10 ^ p : ℚ) * den = (num / den : Nat) * den * 10 ^ p := by ring
      _ ≤ num * 10 ^ p := by gcongr
      _ = x.value * den := hvalue.symm
  · refine lt_of_mul_lt_mul_right ?_ hpos.le
    calc
      x.value * den = num * 10 ^ p := hvalue
      _ < (num / den + 1 : Nat) * den * 10 ^ p := by gcongr
      _ = ((num / den + 1 : Nat) * 10 ^ p : ℚ) * den := by ring

private theorem nearer_eq (x : Dyadic) (tie : Tie) (c : Nat) (p : Int) :
    x.nearer tie c p = c ∨ x.nearer tie c p = c + 1 := by
  unfold nearer
  split
  · exact .inl rfl
  · exact .inr rfl
  · cases tie with
    | up => exact .inr rfl
    | toEven =>
      dsimp only
      split
      · exact .inl rfl
      · exact .inr rfl

private theorem rounds_of_multiple? (h : x.multiple? tie p = some c) : x.Rounds (c * 10 ^ p) := by
  rw [← covers_iff]
  unfold multiple? at h
  dsimp only at h
  split at h
  · obtain rfl := Option.some.inj h
    rcases x.nearer_eq tie (x.unitsOf p) p with hc | hc <;> rwa [hc]
  · obtain rfl := Option.some.inj h
    assumption
  · obtain rfl := Option.some.inj h
    assumption
  · cases h

/-- A grid that is finer than the numbers that round to a float has one of them. -/
private theorem isSome_multiple? (hx : 0 < x.mantissa) (tie : Tie) (hp : 10 ^ p < x.upper - x.lower) :
    (x.multiple? tie p).isSome = true := by
  obtain ⟨hlow, hhigh⟩ := x.unitsOf_bounds p
  have hcovers : x.covers (x.unitsOf p) p = true ∨ x.covers (x.unitsOf p + 1) p = true := by
    rw [covers_iff, covers_iff]
    rcases lt_or_ge x.lower (x.unitsOf p * 10 ^ p) with h | h
    · exact .inl ⟨.inl h, .inl (hlow.trans_lt x.value_lt_upper)⟩
    · refine .inr ⟨.inl ((lower_lt_value hx).trans hhigh), .inl ?_⟩
      push_cast
      linarith
  unfold multiple?
  dsimp only
  split
  · rfl
  · rfl
  · rfl
  · simp_all

/-! ### Seventeen digits -/

private theorem pow_length_toDigits_le {n : Nat} (hn : 0 < n) : 10 ^ ((Nat.toDigits 10 n).length - 1) ≤ n := by
  by_cases hlength : (Nat.toDigits 10 n).length = 1
  · rw [hlength]
    exact hn
  · have hpos : 0 < (Nat.toDigits 10 n).length := Nat.length_toDigits_pos
    have hle := Nat.length_toDigits_le_iff (b := 10) (n := n) (k := (Nat.toDigits 10 n).length - 1) (by decide)
      (by omega)
    omega

private theorem lt_pow_length_toDigits (n : Nat) : n < 10 ^ (Nat.toDigits 10 n).length :=
  (Nat.length_toDigits_le_iff (by decide) Nat.length_toDigits_pos).1 (Nat.le_refl _)

/-- A float is at least the power of ten at its first digit. -/
private theorem zpow_leadingExponent_le (hx : 0 < x.mantissa) : (10 : ℚ) ^ x.leadingExponent ≤ x.value := by
  unfold leadingExponent
  generalize hnum : x.mantissa * Nat.pow 2 x.exponent.toNat = num
  generalize hden : Nat.pow 2 (-x.exponent).toNat = den
  have hnumpos : 0 < num := by
    rw [← hnum, Nat.pow_eq]
    positivity
  have hpos : 0 < den := by
    rw [← hden, Nat.pow_eq]
    positivity
  have hvalue : x.value * den = num := by
    rw [← hnum, ← hden, value]
    push_cast [Nat.pow_eq]
    rw [← zpow_mul_pow_toNat (by norm_num : (2 : ℚ) ≠ 0) x.exponent]
    ring
  -- times the denominator, it is a statement about natural numbers
  refine le_of_mul_le_mul_right ?_ (by exact_mod_cast hpos : (0 : ℚ) < den)
  rw [hvalue]
  dsimp only
  split
  · rename_i hle
    have hdigits := pow_length_toDigits_le (Nat.div_pos hle hpos)
    have hlength : 0 < (Nat.toDigits 10 (num / den)).length := Nat.length_toDigits_pos
    rw [show ((Nat.toDigits 10 (num / den)).length : Int) - 1 =
        ((Nat.toDigits 10 (num / den)).length - 1 : Nat) by omega,
      zpow_natCast]
    exact_mod_cast (Nat.mul_le_mul_right den hdigits).trans (Nat.div_mul_le_self num den)
  · rename_i hlt
    rw [if_neg (by omega)]
    -- below one, the exponent comes from the digits of the inverse
    have hinverse := lt_pow_length_toDigits ((den - 1) / num)
    rw [Nat.div_lt_iff_lt_mul hnumpos] at hinverse
    split
    · rename_i hzero
      have := (Nat.div_eq_zero_iff_lt hnumpos).1 hzero
      omega
    · rw [zpow_neg, zpow_natCast, inv_mul_le_iff₀ (by positivity)]
      have hden : den ≤ 10 ^ (Nat.toDigits 10 ((den - 1) / num)).length * num := by omega
      exact_mod_cast hden

/-- What is known of the magnitudes of floats: the mantissa has 53 bits, and only the least mantissa starts a
binade. -/
structure Bounded (x : Dyadic) : Prop where
  mantissa_lt : x.mantissa < 2 ^ 53
  mantissa_eq : x.binadeStart = true → x.mantissa = 2 ^ 52

/-- Seventeen digits lie on a grid that is finer than the numbers that round to a float. -/
private theorem Bounded.zpow_lt (h : x.Bounded) (hx : 0 < x.mantissa) :
    (10 : ℚ) ^ (x.leadingExponent - 16) < x.upper - x.lower := by
  have hunit : (0 : ℚ) < 2 ^ (x.exponent - 2) := by positivity
  obtain ⟨width, hwidth, hlt⟩ : ∃ width : Nat, x.upper - x.lower = width * 2 ^ (x.exponent - 2) ∧
      4 * x.mantissa < width * 10 ^ 16 := by
    cases hstart : x.binadeStart with
    | true =>
      have hmantissa := h.mantissa_eq hstart
      refine ⟨3, ?_, by omega⟩
      rw [upper, lower, hstart, ← sub_mul, if_pos rfl, hmantissa]
      norm_num
    | false =>
      have hmantissa := h.mantissa_lt
      refine ⟨4, ?_, by omega⟩
      rw [upper, lower, hstart, ← sub_mul, if_neg (by decide), Nat.cast_sub (by omega)]
      push_cast
      ring
  have hlt : (4 * x.mantissa : Nat) < (width * 10 ^ 16 : ℚ) := by exact_mod_cast hlt
  rw [hwidth, zpow_sub₀ (by norm_num : (10 : ℚ) ≠ 0), div_lt_iff₀ (by positivity)]
  calc
    (10 : ℚ) ^ x.leadingExponent ≤ x.value := zpow_leadingExponent_le hx
    _ = (4 * x.mantissa : Nat) * 2 ^ (x.exponent - 2) := x.value_eq
    _ < width * 10 ^ 16 * 2 ^ (x.exponent - 2) := by gcongr
    _ = width * 2 ^ (x.exponent - 2) * 10 ^ (16 : Int) := by ring

/-- The shortest digits of a float round to it. -/
theorem Bounded.rounds_shortest (h : x.Bounded) (hx : 0 < x.mantissa) (tie : Tie) :
    x.Rounds ((x.shortest tie).digits * 10 ^ (x.shortest tie).exponent) := by
  unfold shortest
  dsimp only
  generalize hfound : List.findSome? _ (List.range 17) = found
  have hsome : found.isSome = true := by
    rw [← hfound, List.findSome?_isSome_iff]
    refine ⟨16, by simp, ?_⟩
    rw [Option.isSome_map]
    exact isSome_multiple? hx tie (h.zpow_lt hx)
  obtain ⟨d, rfl⟩ := Option.isSome_iff_exists.1 hsome
  obtain ⟨k, -, hk⟩ := List.exists_of_findSome?_eq_some hfound
  obtain ⟨c, hc, rfl⟩ := Option.map_eq_some_iff.1 hk
  have hrounds := rounds_of_multiple? hc
  rw [Option.getD_some]
  split
  · rename_i hzero
    have hdigits : (c : ℚ) = (c / 10 : Nat) * 10 := by
      exact_mod_cast (Nat.div_mul_cancel (Nat.dvd_of_mod_eq_zero hzero)).symm
    rw [hdigits] at hrounds
    rw [zpow_add_one₀ (by norm_num)]
    convert hrounds using 1
    ring
  · exact hrounds

/-! ### All floats of one sign -/

/-- The magnitude of a float with the given bits behind its sign. -/
def ofIndex (i : Nat) : Dyadic :=
  if i < 2 ^ 52 then ⟨i, -1074, false⟩
  else ⟨2 ^ 52 + i % 2 ^ 52, (i / 2 ^ 52 : Nat) - 1075, i % 2 ^ 52 = 0 ∧ 2 ^ 53 ≤ i⟩

/-- The magnitude of a float is that of its bits without the sign. -/
theorem ofFloat_eq_ofIndex (x : Float) : ofFloat x = ofIndex (x.toBits.toNat % 2 ^ 63) := by
  unfold ofFloat ofIndex
  generalize x.toBits.toNat = bits
  simp only [Nat.pow_eq]
  have hfraction : bits % 2 ^ 63 % 2 ^ 52 = bits % 2 ^ 52 := by omega
  have hbiased : bits % 2 ^ 63 / 2 ^ 52 = bits / 2 ^ 52 % 2 ^ 11 := by omega
  rw [hfraction, hbiased]
  split
  · rw [if_pos (by omega)]
    congr 1
    omega
  · rw [if_neg (by omega)]
    congr 1
    rw [Bool.eq_iff_iff]
    simp only [Bool.and_eq_true, decide_eq_true_eq]
    omega

/-- The magnitudes of floats are bounded. -/
theorem bounded_ofIndex (i : Nat) : (ofIndex i).Bounded := by
  unfold ofIndex
  split
  · exact ⟨by dsimp only; omega, by simp⟩
  · refine ⟨by dsimp only; omega, fun h => ?_⟩
    have hzero : i % 2 ^ 52 = 0 ∧ 2 ^ 53 ≤ i := by simpa using h
    dsimp only
    omega

private theorem mantissa_ofIndex_mod_two (i : Nat) : (ofIndex i).mantissa % 2 = i % 2 := by
  unfold ofIndex
  split
  · rfl
  · dsimp only
    omega

/-- The middles between floats are those between neighbours. -/
private theorem upper_ofIndex (i : Nat) : (ofIndex i).upper = (ofIndex (i + 1)).lower := by
  unfold upper lower ofIndex
  by_cases hi : i < 2 ^ 52
  · rw [if_pos hi]
    by_cases hsucc : i + 1 < 2 ^ 52
    · rw [if_pos hsucc]
      simp only [Bool.false_eq_true, if_false]
      congr 2
    · obtain rfl : i = 2 ^ 52 - 1 := by omega
      norm_num
  · rw [if_neg hi, if_neg (show ¬i + 1 < 2 ^ 52 by omega)]
    by_cases hbinade : (i + 1) % 2 ^ 52 = 0
    · -- the next float starts a binade, in which the floats are twice as far apart
      have hfraction : i % 2 ^ 52 = 2 ^ 52 - 1 := by omega
      have hbiased : (i + 1) / 2 ^ 52 = i / 2 ^ 52 + 1 := by omega
      have hexponent : ((i / 2 ^ 52 + 1 : Nat) : Int) - 1075 - 2 = (i / 2 ^ 52 : Nat) - 1075 - 2 + 1 := by omega
      simp only [hbinade, hfraction, hbiased, true_and, decide_eq_true_eq, if_pos (show 2 ^ 53 ≤ i + 1 by omega)]
      rw [hexponent, zpow_add_one₀ (by norm_num)]
      norm_num
      ring
    · have hfraction : (i + 1) % 2 ^ 52 = i % 2 ^ 52 + 1 := by omega
      have hbiased : (i + 1) / 2 ^ 52 = i / 2 ^ 52 := by omega
      have hstart : ¬(i % 2 ^ 52 + 1 = 0 ∧ 2 ^ 53 ≤ i + 1) := by omega
      simp only [hfraction, hbiased, hstart, decide_false, Bool.false_eq_true, if_false]
      congr 2

/-- A number rounds to one float only. -/
theorem eq_of_rounds {i j : Nat} (hi : (ofIndex i).Rounds v) (hj : (ofIndex j).Rounds v) : i = j := by
  have hmono : StrictMono fun i => (ofIndex i).upper := by
    refine strictMono_nat_of_lt_succ fun i => ?_
    rw [upper_ofIndex]
    exact lower_lt_upper _
  -- if the float of `i` is the smaller one, the number is the middle between the two
  have hlt : ∀ {i j : Nat}, (ofIndex i).Rounds v → (ofIndex j).Rounds v → ¬i < j := by
    intro i j hi hj hlt
    obtain ⟨k, rfl⟩ : ∃ k, j = k + 1 := ⟨j - 1, by omega⟩
    have hle : (ofIndex i).upper ≤ (ofIndex k).upper := hmono.monotone (by omega)
    have hlow := hj.lower_le
    rw [← upper_ofIndex] at hlow
    have hmiddle : (ofIndex i).upper = (ofIndex k).upper := le_antisymm hle (hlow.trans hi.le_upper)
    obtain rfl : i = k := hmono.injective hmiddle
    rcases hi.2 with h | ⟨-, heven⟩
    · exact absurd h (not_lt.2 hlow)
    rcases hj.1 with h | ⟨-, heven'⟩
    · rw [← upper_ofIndex] at h
      exact absurd h (not_lt.2 hi.le_upper)
    rw [mantissa_ofIndex_mod_two] at heven heven'
    omega
  have := hlt hi hj
  have := hlt hj hi
  omega

end Dyadic

end SqlPlan
