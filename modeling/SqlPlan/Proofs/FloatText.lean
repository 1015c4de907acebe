import SqlPlan.Proofs.Documents
import SqlPlan.Proofs.Rounding
import SqlPlan.Proofs.Words

/-!
# Written floats

Two floats are written with the same text only if they are the same: the digits and the exponent in a text stand for a
number, and this number rounds to the float.

* `numeralValue`: the number that a text stands for.
* `FloatLayout.numeralValue_positional`, `FloatLayout.numeralValue_scientific`: both written forms stand for the
  digits that are written.
* `FloatLayout.write_injective`: floats are told apart by their texts.
-/

namespace SqlPlan

/-! ### The number of a text -/

/-- The exponent behind the mark of a number. -/
def exponentOf : List Char → Int
  | '-' :: ds => -(Nat.ofDigitChars 10 ds 0 : Int)
  | ds => Nat.ofDigitChars 10 ds 0

/-- The number that a text without a sign stands for: its digits, up to the point and behind it, and its exponent. -/
def numeralValue (cs : List Char) : ℚ :=
  let mantissa := cs.takeWhile (· != 'e')
  let fraction := (mantissa.dropWhile (· != '.')).drop 1
  let digits := Nat.ofDigitChars 10 (mantissa.takeWhile (· != '.') ++ fraction) 0
  digits * 10 ^ (exponentOf ((cs.dropWhile (· != 'e')).drop 1) - fraction.length)

section

variable {whole point tail ds : List Char}

private theorem takeWhile_append_mark {c : Char} {as bs : List Char} (has : c ∉ as) (hbs : ∀ b ∈ bs.head?, b = c) :
    (as ++ bs).takeWhile (· != c) = as ∧ (as ++ bs).dropWhile (· != c) = bs := by
  have hall : ∀ a ∈ as, (a != c) = true := by
    intro a ha
    rw [bne_iff_ne]
    rintro rfl
    exact has ha
  rw [List.takeWhile_append_of_pos hall, List.dropWhile_append_of_pos hall]
  cases bs with
  | nil => simp
  | cons b bs =>
    obtain rfl := hbs b rfl
    simp

private theorem numeralValue_eq (hwhole : '.' ∉ whole) (hmantissa : 'e' ∉ whole ++ point)
    (hpoint : ∀ c ∈ point.head?, c = '.') (htail : ∀ c ∈ tail.head?, c = 'e') :
    numeralValue (whole ++ point ++ tail) =
      Nat.ofDigitChars 10 (whole ++ point.drop 1) 0 * 10 ^ (exponentOf (tail.drop 1) - (point.drop 1).length) := by
  obtain ⟨htake, hdrop⟩ := takeWhile_append_mark hmantissa htail
  obtain ⟨htake', hdrop'⟩ := takeWhile_append_mark hwhole hpoint
  simp only [numeralValue, htake, hdrop, htake', hdrop']

private theorem not_mem_of_isDigit {c : Char} (hds : ∀ d ∈ ds, d.isDigit = true) (hc : c.isDigit = false) :
    c ∉ ds := by
  intro hmem
  rw [hds c hmem] at hc
  cases hc

/-- Digits with a point between them stand for a fraction. -/
private theorem numeralValue_point {fraction : List Char} (hwhole : ∀ d ∈ whole, d.isDigit = true)
    (hfraction : ∀ d ∈ fraction, d.isDigit = true) :
    numeralValue (whole ++ '.' :: fraction) =
      Nat.ofDigitChars 10 (whole ++ fraction) 0 * 10 ^ (-(fraction.length : Int)) := by
  have he : 'e' ∉ whole ++ '.' :: fraction := by
    simp [not_mem_of_isDigit hwhole, not_mem_of_isDigit hfraction]
  have htail : ∀ c ∈ ([] : List Char).head?, c = 'e' := by simp
  simpa [exponentOf] using numeralValue_eq (not_mem_of_isDigit hwhole rfl) he (by simp) htail

end

namespace FloatLayout

variable {ds : List Char}

private theorem isDigit_of_mem_zeros {n : Nat} : ∀ d ∈ zeros n, d.isDigit = true := by
  intro d hd
  rw [List.eq_of_mem_replicate hd]
  rfl

/-- Digits that are written positionally stand for a multiple of the power of their last one. -/
theorem numeralValue_positional (hds : ∀ d ∈ ds, d.isDigit = true) (exponent : Int) :
    numeralValue (positional ds exponent) = Nat.ofDigitChars 10 ds 0 * 10 ^ exponent := by
  unfold positional
  split
  · rename_i hexponent
    obtain ⟨n, rfl⟩ := Int.eq_ofNat_of_zero_le hexponent
    rw [numeralValue_point (List.forall_mem_append.2 ⟨hds, isDigit_of_mem_zeros⟩) (by decide)]
    simp only [zeros, Nat.ofDigitChars_append, Nat.ofDigitChars_replicate_zero, Nat.ofDigitChars_cons,
      Nat.ofDigitChars_nil, Int.toNat_natCast, zpow_natCast]
    norm_num
    ring
  · rename_i hexponent
    dsimp only
    split
    · rename_i hplaces
      rw [numeralValue_point (fun d hd => hds d (List.mem_of_mem_take hd))
          fun d hd => hds d (List.mem_of_mem_drop hd),
        List.take_append_drop, List.length_drop]
      congr 2
      omega
    · rename_i hplaces
      have hdigits : Nat.ofDigitChars 10 (['0'] ++ (zeros ((-exponent).toNat - ds.length) ++ ds)) 0 =
          Nat.ofDigitChars 10 ds 0 := by
        simp [zeros, Nat.ofDigitChars_append, Nat.ofDigitChars_cons, Nat.ofDigitChars_replicate_zero]
      have hlength : -((zeros ((-exponent).toNat - ds.length) ++ ds).length : Int) = exponent := by
        rw [zeros, List.length_append, List.length_replicate]
        omega
      have hvalue := numeralValue_point (by decide : ∀ d ∈ ['0'], d.isDigit = true)
        (List.forall_mem_append.2 ⟨isDigit_of_mem_zeros, hds⟩ :
          ∀ d ∈ zeros ((-exponent).toNat - ds.length) ++ ds, d.isDigit = true)
      rwa [hdigits, hlength] at hvalue

private theorem exponentOf_sign (leading : Int) :
    exponentOf ((if leading < 0 then ['-'] else []) ++ Nat.toDigits 10 leading.natAbs) = leading := by
  split
  · simp only [List.singleton_append, exponentOf, Nat.ofDigitChars_ten_toDigits]
    omega
  · have hdigits : ∀ cs : List Char, cs.head? ≠ some '-' → exponentOf cs = Nat.ofDigitChars 10 cs 0 := by
      intro cs hcs
      unfold exponentOf
      split
      · exact absurd rfl hcs
      · rfl
    rw [List.nil_append, hdigits _ (Sql.Numeral.toDigits _).head?_ne, Nat.ofDigitChars_ten_toDigits]
    omega

/-- Digits that are written with an exponent stand for a multiple of the power of their first one. -/
theorem numeralValue_scientific (hne : ds ≠ []) (hds : ∀ d ∈ ds, d.isDigit = true) (leading : Int) :
    numeralValue (sql.scientific ds leading) = Nat.ofDigitChars 10 ds 0 * 10 ^ (leading - (ds.length : Int) + 1) := by
  obtain ⟨d, rest, rfl⟩ := List.exists_cons_of_ne_nil hne
  have hdigit : ∀ {c : Char}, c.isDigit = false → c ∉ d :: rest := not_mem_of_isDigit hds
  obtain ⟨point, hpoint, hdrop, hmark, hchars⟩ :
      ∃ point, (if (d :: rest).length ≤ 1 then [] else '.' :: (d :: rest).drop 1) = point ∧ point.drop 1 = rest ∧
        (∀ c ∈ point.head?, c = '.') ∧ 'e' ∉ [d] ++ point := by
    have he := hdigit (c := 'e') rfl
    cases rest with
    | nil => exact ⟨[], rfl, rfl, by simp, by simpa using he⟩
    | cons d' rest => exact ⟨'.' :: d' :: rest, by simp, rfl, by simp, by simpa using he⟩
  have hsign : (if leading < 0 then "-" else sql.plusSign).toList = if leading < 0 then ['-'] else [] := by
    split <;> rfl
  have hwhole : '.' ∉ [d] := fun h => hdigit rfl (List.mem_cons.2 (.inl (List.mem_singleton.1 h)))
  unfold scientific
  dsimp only
  rw [hpoint, hsign, List.take_succ_cons, List.take_zero, numeralValue_eq hwhole hchars hmark (by simp), hdrop,
    List.drop_one, List.tail_cons, exponentOf_sign, List.singleton_append, List.length_cons]
  congr 2
  omega

/-- The number that is written for a float, up to its sign. -/
def writtenValue (x : Float) : ℚ :=
  if (Dyadic.ofFloat x).mantissa = 0 then 0
  else ((Dyadic.ofFloat x).shortest sql.tie).digits * 10 ^ ((Dyadic.ofFloat x).shortest sql.tie).exponent

private theorem numeralValue_write {x : Float} {cs : List Char}
    (h : (sql.write x).toList = (if isNegative x then ['-'] else []) ++ cs) : numeralValue cs = writtenValue x := by
  have hds : ∀ n, ∀ d ∈ Nat.toDigits 10 n, d.isDigit = true := fun _ _ => isDigit_of_mem_toDigits
  unfold write at h
  unfold writtenValue
  dsimp only at h
  split at h
  · rename_i hzero
    rw [String.toList_ofList] at h
    obtain rfl := List.append_cancel_left h
    have hdigit : ∀ d ∈ ['0'], d.isDigit = true := by decide
    have hvalue := numeralValue_point hdigit hdigit
    rw [if_pos hzero]
    simpa [Nat.ofDigitChars_cons] using hvalue
  · rename_i hzero
    rw [String.toList_ofList] at h
    obtain rfl := List.append_cancel_left h
    rw [if_neg hzero]
    split
    · rw [numeralValue_positional (hds _), Nat.ofDigitChars_ten_toDigits]
    · rw [numeralValue_scientific Nat.toDigits_ne_nil (hds _), Nat.ofDigitChars_ten_toDigits]
      congr 2
      omega

private theorem rounds_writtenValue (x : Float) : (Dyadic.ofFloat x).Rounds (writtenValue x) := by
  unfold writtenValue
  split
  · rename_i hzero
    have hupper := (Dyadic.ofFloat x).value_lt_upper
    rw [Dyadic.value, hzero, Nat.cast_zero, zero_mul] at hupper
    exact ⟨.inr ⟨by simp [Dyadic.lower, hzero], by rw [hzero]⟩, .inl hupper⟩
  · rename_i hzero
    rw [Dyadic.ofFloat_eq_ofIndex] at hzero ⊢
    exact (Dyadic.bounded_ofIndex _).rounds_shortest (Nat.pos_of_ne_zero hzero) _

private theorem head?_write_of_isNegative {x : Float} (h : isNegative x = true) :
    (sql.write x).toList.head? = some '-' := by
  obtain ⟨cs, -, htext⟩ := Sql.numeral_write x
  rw [htext, h]
  rfl

/-- The text of a float starts with a sign or a digit. -/
theorem head?_write_ne {c : Char} (hminus : c ≠ '-') (hdigit : c.isDigit = false) (x : Float) :
    (sql.write x).toList.head? ≠ some c := by
  obtain ⟨cs, hcs, htext⟩ := Sql.numeral_write x
  obtain ⟨d, rest, rfl, hd⟩ := hcs.head
  rw [htext]
  split
  · simpa using hminus.symm
  · rintro ⟨⟩
    exact absurd hd (by simp [hdigit])

/-- The text of a float is told from that of an integer by its point or its exponent. -/
theorem mark_mem_write (x : Float) : '.' ∈ (sql.write x).toList ∨ 'e' ∈ (sql.write x).toList := by
  have hpoint : ∀ ds exponent, '.' ∈ positional ds exponent := by
    intro ds exponent
    unfold positional
    dsimp only
    split
    · simp
    · split <;> simp
  unfold write
  dsimp only
  split
  · simp
  · rw [String.toList_ofList]
    refine Or.imp (List.mem_append_right _) (List.mem_append_right _) ?_
    split
    · exact .inl (hpoint _ _)
    · exact .inr (by simp [scientific])

/-- Floats with the same text are the same. -/
theorem write_injective : Function.Injective sql.write := by
  intro x y h
  have hsign : isNegative x = isNegative y := by
    rw [Bool.eq_iff_iff]
    constructor
    · exact fun hx => Sql.isNegative_of_head?_write (h ▸ head?_write_of_isNegative hx)
    · exact fun hy => Sql.isNegative_of_head?_write (h ▸ head?_write_of_isNegative hy)
  obtain ⟨cs, -, hx⟩ := Sql.numeral_write x
  obtain ⟨ds, -, hy⟩ := Sql.numeral_write y
  obtain rfl : cs = ds := by
    rw [h, hy, hsign] at hx
    exact (List.append_cancel_left hx).symm
  -- the number in the text rounds to both floats
  have hrounds := rounds_writtenValue x
  have hrounds' := rounds_writtenValue y
  rw [← numeralValue_write hx, Dyadic.ofFloat_eq_ofIndex] at hrounds
  rw [← numeralValue_write hy, Dyadic.ofFloat_eq_ofIndex] at hrounds'
  have hindex := Dyadic.eq_of_rounds hrounds hrounds'
  have hbits : x.toBits.toNat / 2 ^ 63 = 1 ↔ y.toBits.toNat / 2 ^ 63 = 1 := by simpa [isNegative] using hsign
  have hxlt := x.toBits.toNat_lt
  have hylt := y.toBits.toNat_lt
  exact eq_of_toBits (by omega)

end FloatLayout

end SqlPlan
