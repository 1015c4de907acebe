import Mathlib.Algebra.Order.Field.Basic
import Mathlib.Algebra.Order.Ring.Int
import Mathlib.Algebra.Order.Ring.Rat
import Mathlib.Tactic.FieldSimp
import Mathlib.Tactic.NormNum
import Mathlib.Tactic.Positivity
import Mathlib.Tactic.Ring
import SqlPlan.Text.Digits
import SqlPlan.Value.DecimalText

/-!
# Decimals that fit

A text is the text of a decimal if it consists of the parts of one, and then the parts can be read off it. The digits
that a decimal has before its point, without leading zeros, bound its absolute value.

* `length_dropWhile_zero_le_iff`: the digits of a number without leading zeros bound the number.
* `DecimalText.splitPoint_chars`: the parts of a decimal are read off its text.
* `decimalFits_iff`: the texts that fit are those of the decimals in range.
-/

namespace SqlPlan

/-! ### Numbers of digits -/

private theorem digitsValue_cons (d : Char) (ds : List Char) :
    digitsValue (d :: ds) = 10 ^ ds.length * (d.toNat - '0'.toNat) + digitsValue ds := by
  have hcons : Nat.ofDigitChars 10 (d :: ds) 0 =
      10 ^ ds.length * (d.toNat - '0'.toNat) + Nat.ofDigitChars 10 ds 0 := by
    rw [Nat.ofDigitChars_cons, Nat.ofDigitChars_eq_ofDigitChars_zero, Nat.mul_zero, Nat.zero_add]
  exact hcons

private theorem toNat_of_isDigit {d : Char} (h : d.isDigit = true) : '0'.toNat ≤ d.toNat ∧ d.toNat ≤ '9'.toNat := by
  simp only [Char.isDigit, Bool.and_eq_true, decide_eq_true_eq] at h
  exact h

private theorem digitsValue_lt {ds : List Char} (hds : ∀ d ∈ ds, d.isDigit = true) :
    digitsValue ds < 10 ^ ds.length := by
  induction ds with
  | nil => decide
  | cons d ds ih =>
    obtain ⟨hd, hds⟩ := List.forall_mem_cons.1 hds
    have hdigit : d.toNat - '0'.toNat ≤ 9 := Nat.sub_le_of_le_add (toNat_of_isDigit hd).2
    calc digitsValue (d :: ds)
        = 10 ^ ds.length * (d.toNat - '0'.toNat) + digitsValue ds := digitsValue_cons d ds
      _ < 10 ^ ds.length * 9 + 10 ^ ds.length := add_lt_add_of_le_of_lt (Nat.mul_le_mul_left _ hdigit) (ih hds)
      _ = 10 ^ (d :: ds).length := by rw [List.length_cons, pow_succ]; ring

/-- Without its leading zeros, a number has at most `k` digits if and only if it is less than `10 ^ k`. -/
theorem length_dropWhile_zero_le_iff {ds : List Char} (hds : ∀ d ∈ ds, d.isDigit = true) {k : Nat} :
    (ds.dropWhile (· == '0')).length ≤ k ↔ digitsValue ds < 10 ^ k := by
  induction ds with
  | nil => exact iff_of_true (Nat.zero_le k) (Nat.pow_pos (by decide))
  | cons d ds ih =>
    by_cases hzero : d = '0'
    · subst hzero
      rw [List.dropWhile_cons_of_pos (by simp), ih (List.forall_mem_cons.1 hds).2, digitsValue_cons, Nat.sub_self,
        Nat.mul_zero, Nat.zero_add]
    · rw [List.dropWhile_cons_of_neg (by simpa using hzero), List.length_cons]
      constructor
      · intro hlength
        exact lt_of_lt_of_le (digitsValue_lt hds) (Nat.pow_le_pow_right (by decide) hlength)
      -- the first digit alone makes the number as large as a power of ten
      · intro hvalue
        have hfirst : 1 ≤ d.toNat - '0'.toNat := by
          have hbounds := toNat_of_isDigit (hds d List.mem_cons_self)
          have hne : d.toNat ≠ '0'.toNat := fun heq => hzero (Char.toNat_inj.1 heq)
          omega
        have hpow : 10 ^ ds.length < 10 ^ k := by
          refine lt_of_le_of_lt ?_ hvalue
          rw [digitsValue_cons]
          exact Nat.le_add_right_of_le (Nat.le_mul_of_pos_right _ hfirst)
        exact (Nat.pow_lt_pow_iff_right (by decide)).1 hpow

/-! ### The parts of a decimal -/

/-- A decimal by the parts of its text: perhaps a sign, digits, and perhaps a point with digits behind it. -/
structure DecimalText where
  negative : Bool
  integral : List Char
  /-- What stands behind the point, if there is one. -/
  fraction? : Option (List Char)
  integral_ne_nil : integral ≠ []
  isDigit_integral : ∀ d ∈ integral, d.isDigit = true
  isDigit_fraction : ∀ ds ∈ fraction?, ∀ d ∈ ds, d.isDigit = true

namespace DecimalText

variable (t : DecimalText)

/-- The digits behind the point. -/
def fraction : List Char := t.fraction?.getD []

def sign : List Char := if t.negative then ['-'] else []

/-- The point and the digits behind it. -/
def point : List Char := (t.fraction?.map ('.' :: ·)).getD []

def chars : List Char := t.sign ++ t.integral ++ t.point

def text : String := String.ofList t.chars

/-- The number that the text stands for. -/
def value : ℚ :=
  (if t.negative then -1 else 1) * (digitsValue t.integral + digitsValue t.fraction / 10 ^ t.fraction.length)

private theorem isDigit_of_mem_fraction : ∀ d ∈ t.fraction, d.isDigit = true := by
  rw [fraction]
  cases hfraction : t.fraction? with
  | none => simp
  | some ds => exact t.isDigit_fraction ds hfraction

private theorem withoutSign_chars : withoutSign t.chars = t.integral ++ t.point := by
  rw [chars, sign, List.append_assoc]
  cases t.negative with
  | true => rfl
  | false =>
    obtain ⟨d, ds, hds⟩ := List.exists_cons_of_ne_nil t.integral_ne_nil
    have hd : d.isDigit = true := t.isDigit_integral d (by simp [hds])
    have hsign : d ≠ '-' := by
      rintro rfl
      cases hd
    simp [hds, withoutSign, hsign]

/-- The parts of a decimal are read off its text. -/
theorem splitPoint_chars : splitPoint (withoutSign t.chars) = (t.integral, t.fraction) := by
  have hdigits : ∀ d ∈ t.integral, (d != '.') = true := by
    intro d hd
    rw [bne_iff_ne]
    rintro rfl
    cases t.isDigit_integral '.' hd
  rw [withoutSign_chars, splitPoint, List.takeWhile_append_of_pos hdigits, List.dropWhile_append_of_pos hdigits,
    point, fraction]
  cases t.fraction? <;> simp

private theorem abs_value : |t.value| = digitsValue t.integral + digitsValue t.fraction / 10 ^ t.fraction.length := by
  have hnonneg : (0 : ℚ) ≤ digitsValue t.integral + digitsValue t.fraction / 10 ^ t.fraction.length := by positivity
  have hsign : |(if t.negative then -1 else 1 : ℚ)| = 1 := by
    cases t.negative <;> simp
  rw [value, abs_mul, hsign, one_mul, abs_of_nonneg hnonneg]

/-- The digits before the point bound the absolute value, as the digits behind it do not add up to one. -/
private theorem abs_value_lt_iff {precision scale : Nat} (hscale : scale ≤ precision)
    (hfraction : t.fraction.length ≤ scale) :
    |t.value| * 10 ^ scale < 10 ^ precision ↔ digitsValue t.integral < 10 ^ (precision - scale) := by
  obtain ⟨k, rfl⟩ := Nat.exists_eq_add_of_le hscale
  obtain ⟨zeros, rfl⟩ := Nat.exists_eq_add_of_le hfraction
  have hlt := digitsValue_lt t.isDigit_of_mem_fraction
  have hscaled : |t.value| * 10 ^ (t.fraction.length + zeros) =
      ((digitsValue t.integral * 10 ^ t.fraction.length + digitsValue t.fraction : Nat) : ℚ) * 10 ^ zeros := by
    rw [abs_value, pow_add]
    push_cast
    field_simp
  have hbound : (10 : ℚ) ^ (t.fraction.length + zeros + k) =
      ((10 ^ k * 10 ^ t.fraction.length : Nat) : ℚ) * 10 ^ zeros := by
    push_cast
    ring
  rw [hscaled, hbound, mul_lt_mul_iff_left₀ (by positivity), Nat.cast_lt, Nat.add_sub_cancel_left]
  generalize digitsValue t.integral = n, digitsValue t.fraction = m, 10 ^ t.fraction.length = b at hlt
  constructor
  · intro h
    exact Nat.lt_of_mul_lt_mul_right (lt_of_le_of_lt (Nat.le_add_right _ m) h)
  · intro h
    calc n * b + m < n * b + b := Nat.add_lt_add_left hlt _
      _ = (n + 1) * b := by ring
      _ ≤ 10 ^ k * b := Nat.mul_le_mul_right b h

/-- A text with digits before its point and nothing but digits behind it is the text of a decimal. -/
private theorem exists_chars_eq {cs : List Char} (hne : (splitPoint (withoutSign cs)).1 ≠ [])
    (hintegral : ∀ d ∈ (splitPoint (withoutSign cs)).1, d.isDigit = true)
    (hfraction : ∀ d ∈ (splitPoint (withoutSign cs)).2, d.isDigit = true) : ∃ t : DecimalText, t.chars = cs := by
  obtain ⟨negative, hsign⟩ : ∃ negative : Bool, (if negative then ['-'] else []) ++ withoutSign cs = cs := by
    unfold withoutSign
    split
    · exact ⟨true, rfl⟩
    · exact ⟨false, rfl⟩
  obtain ⟨fraction?, hpoint⟩ : ∃ fraction? : Option (List Char),
      (fraction?.map ('.' :: ·)).getD [] = (withoutSign cs).dropWhile (· != '.') := by
    cases hrest : (withoutSign cs).dropWhile (· != '.') with
    | nil => exact ⟨none, rfl⟩
    | cons c rest =>
      have hc := List.head?_dropWhile_not (· != '.') (withoutSign cs)
      rw [hrest] at hc
      obtain rfl : c = '.' := by simpa using hc
      exact ⟨some rest, rfl⟩
  have hdigits : ∀ ds ∈ fraction?, ∀ d ∈ ds, d.isDigit = true := by
    rintro ds rfl
    simpa [splitPoint, ← hpoint] using hfraction
  refine ⟨⟨negative, _, fraction?, hne, hintegral, hdigits⟩, ?_⟩
  rw [chars, sign, point, hpoint, List.append_assoc]
  exact (congrArg _ List.takeWhile_append_dropWhile).trans hsign

/-- A decimal fits if it has no more digits behind the point than the scale allows, and is in range before it. -/
private theorem decimalFits_text (t : DecimalText) (precision scale : UInt8) :
    decimalFits t.text precision scale = true ↔
      t.fraction.length ≤ scale.toNat ∧ digitsValue t.integral < 10 ^ (precision.toNat - scale.toNat) := by
  have hform : (!t.integral.isEmpty && t.integral.all Char.isDigit && t.fraction.all Char.isDigit) = true := by
    simp only [Bool.and_eq_true, Bool.not_eq_true', List.isEmpty_eq_false_iff, List.all_eq_true]
    exact ⟨⟨t.integral_ne_nil, t.isDigit_integral⟩, t.isDigit_of_mem_fraction⟩
  rw [← length_dropWhile_zero_le_iff t.isDigit_integral, decimalFits, text, String.toList_ofList, splitPoint_chars]
  simp [hform]

end DecimalText

/-- A text fits if it is an optional sign, digits and perhaps a point with digits behind it, at most as many as the
scale allows, and the digits before the point stand for a number in range. If the scale is at most the precision, this
says that the absolute value, in units of the last place, is less than the power of ten to the precision. -/
theorem decimalFits_iff (text : String) (precision scale : UInt8) :
    (decimalFits text precision scale = true ↔
      ∃ t : DecimalText, t.text = text ∧ t.fraction.length ≤ scale.toNat ∧
        digitsValue t.integral < 10 ^ (precision.toNat - scale.toNat)) ∧
    (scale ≤ precision → ∀ t : DecimalText, t.text = text → t.fraction.length ≤ scale.toNat →
      (decimalFits text precision scale = true ↔ |t.value| * 10 ^ scale.toNat < 10 ^ precision.toNat)) := by
  refine ⟨⟨fun h => ?_, ?_⟩, ?_⟩
  · have hform := h
    simp only [decimalFits, Bool.and_eq_true, Bool.not_eq_true', List.isEmpty_eq_false_iff, List.all_eq_true] at hform
    obtain ⟨t, ht⟩ := DecimalText.exists_chars_eq hform.1.1.1.1 hform.1.1.1.2 hform.1.1.2
    have htext : t.text = text := by rw [DecimalText.text, ht, String.ofList_toList]
    exact ⟨t, htext, (t.decimalFits_text precision scale).1 (by rwa [htext])⟩
  · rintro ⟨t, rfl, hfits⟩
    exact (t.decimalFits_text precision scale).2 hfits
  · rintro hscale t rfl hfraction
    rw [t.decimalFits_text, t.abs_value_lt_iff (UInt8.le_iff_toNat_le.1 hscale) hfraction, and_iff_right hfraction]

/-- The number -0999.99, which has a leading zero. -/
def paddedDecimal : DecimalText where
  negative := true
  integral := ['0', '9', '9', '9']
  fraction? := some ['9', '9']
  integral_ne_nil := by decide
  isDigit_integral := by decide
  isDigit_fraction := by decide

/-- With three digits before the point and two behind it, the least decimal of five digits fits. -/
theorem decimalFits_iff_paddedDecimal :
    paddedDecimal.text = "-0999.99" ∧ paddedDecimal.value = -99999 / 100 ∧ decimalFits "-0999.99" 5 2 = true := by
  have hvalue : paddedDecimal.value = -99999 / 100 := by
    have hintegral : digitsValue paddedDecimal.integral = 999 := by decide
    have hfraction : digitsValue paddedDecimal.fraction = 99 := by decide
    rw [DecimalText.value, hintegral, hfraction]
    norm_num [paddedDecimal, DecimalText.fraction]
  have hiff := (decimalFits_iff "-0999.99" 5 2).2 (by decide) paddedDecimal (by decide) (by decide)
  refine ⟨by decide, hvalue, hiff.2 ?_⟩
  rw [hvalue, show (2 : UInt8).toNat = 2 from rfl, show (5 : UInt8).toNat = 5 from rfl]
  norm_num [abs_div]

example : decimalFits "--1" 5 2 = false ∧ decimalFits "1.2.3" 5 2 = false ∧ decimalFits "00." 2 5 = true := by decide

end SqlPlan
