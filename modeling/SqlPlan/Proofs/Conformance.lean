import SqlPlan.Proofs.Extents

/-!
# Literals of a common type

A literal of a type is a literal of every common type of it as well: integers lie between wider bounds, or become
numbers without bounds, and nothing else about a type changes when it is promoted. There are two exceptions. A date is
no timestamp, and the text of a decimal needs as many digits in the common type as in its own, which the greatest
precision may not leave.

* `Primitive.inBounds_of_join?`: the bounds of integers under promotion.
* `Primitive.decimal_of_join?`: the precision of a common decimal.
* `conformsTo_promote`: the values that conform to a common type.
-/

namespace SqlPlan

namespace Value

/-- A value occurs in another one: it is that value, or it occurs in an item of it. -/
inductive Contains : Value → Value → Prop
  | self (v : Value) : Contains v v
  | item {items : List Value} {item w : Value} (hitem : item ∈ items) (h : Contains item w) :
    Contains (.array items) w

theorem allConformTo_iff {vs : List Value} {t : DataType} :
    allConformTo vs t = true ↔ ∀ v ∈ vs, v.conformsTo t = true := by
  induction vs with
  | nil => simp [allConformTo]
  | cons v vs ih => rw [allConformTo, Bool.and_eq_true, ih, List.forall_mem_cons]

/-! ### Bounds of integers -/

variable {n : Int} {a b : Width}

private theorem inBounds_int :
    inBounds n (.int a) = true ↔ -Int.pow 2 (a.bits - 1) ≤ n ∧ n ≤ Int.pow 2 (a.bits - 1) - 1 := by
  simp [inBounds, DataType.integerBounds?]

private theorem inBounds_uint : inBounds n (.uint a) = true ↔ 0 ≤ n ∧ n ≤ Int.pow 2 a.bits - 1 := by
  simp [inBounds, DataType.integerBounds?]

private theorem two_pow_le {i j : Nat} (h : i ≤ j) : Int.pow 2 i ≤ Int.pow 2 j := by
  have hcast (k : Nat) : Int.pow 2 k = (Nat.pow 2 k : Nat) := (Int.natCast_pow 2 k).symm
  rw [hcast, hcast]
  exact Int.ofNat_le.2 (Nat.pow_le_pow_right (by decide) h)

private theorem inBounds_int_of_le (h : a.bits ≤ b.bits) (hn : inBounds n (.int a) = true) :
    inBounds n (.int b) = true := by
  have hpow := two_pow_le (Nat.sub_le_sub_right h 1)
  rw [inBounds_int] at hn ⊢
  omega

private theorem inBounds_uint_of_le (h : a.bits ≤ b.bits) (hn : inBounds n (.uint a) = true) :
    inBounds n (.uint b) = true := by
  have hpow := two_pow_le h
  rw [inBounds_uint] at hn ⊢
  omega

/-- A signed type takes one bit for the sign. -/
private theorem inBounds_int_of_uint (h : a.bits < b.bits) (hn : inBounds n (.uint a) = true) :
    inBounds n (.int b) = true := by
  have hpow := two_pow_le (Nat.le_sub_one_of_lt h)
  rw [inBounds_uint] at hn
  rw [inBounds_int]
  omega

end Value

namespace Width

private theorem bits_pos (w : Width) : 0 < w.bits := by cases w <;> decide

private theorem bits_le_max (a b : Width) : a.bits ≤ (a.max b).bits := by
  unfold max
  split <;> omega

private theorem bits_of_double? {a b : Width} (h : a.double? = some b) : b.bits = 2 * a.bits := by
  cases a <;> cases h <;> rfl

end Width

namespace Primitive

variable {p q r : Primitive}

open Value

@[simp] theorem dataType_isInteger (p : Primitive) : DataType.isInteger (.primitive p) = p.isInteger := by
  cases p <;> rfl

/-- A signed type for the values of a signed and an unsigned one is as wide as the one and wider than the other. -/
private theorem exists_signedFor {a b : Width} (h : (signedFor a b).isInteger = true) :
    ∃ w, signedFor a b = .int w ∧ a.bits ≤ w.bits ∧ b.bits < w.bits := by
  unfold signedFor at h ⊢
  by_cases hlt : b.bits < a.bits
  · rw [if_pos hlt]
    exact ⟨a, rfl, Nat.le_refl _, hlt⟩
  · rw [if_neg hlt] at h ⊢
    cases hdouble : b.double? with
    | none =>
      rw [hdouble] at h
      cases h
    | some w =>
      have hbits := Width.bits_of_double? hdouble
      have hpos := b.bits_pos
      exact ⟨w, rfl, by omega, by omega⟩

/-- Two numbers of which one is no integer come to a float or a decimal. -/
private theorem isInteger_of_join? (hp : p.isNumeric = true) (hq : q.isNumeric = true) (h : p.join? q = some r)
    (hr : r.isInteger = true) : p.isInteger = true := by
  by_contra hinteger
  have hinteger := Bool.eq_false_iff.2 hinteger
  by_cases hne : q = p
  · obtain rfl : p = r := by simpa [hne] using h
    exact Bool.false_ne_true (hinteger.symm.trans hr)
  · rw [join?_comm, join?_of_not_isInteger hq hp hne hinteger] at h
    obtain rfl := Option.some.inj h
    simp at hr

/-- An integer in the bounds of a type is in the bounds of every common type that has bounds. -/
theorem inBounds_of_join? {n : Int} (hp : p.isNumeric = true) (hq : q.isNumeric = true) (h : p.join? q = some r)
    (hr : r.isInteger = true) (hn : inBounds n (.primitive p) = true) : inBounds n (.primitive r) = true := by
  have hpinteger := isInteger_of_join? hp hq h hr
  have hqinteger := isInteger_of_join? hq hp (by rw [join?_comm, h]) hr
  by_cases hne : p = q
  · obtain rfl : p = r := by simpa [← hne] using h
    exact hn
  -- with different types of integers left, the width is the greater one, or one with room for the sign
  rw [join?, if_neg hne] at h
  cases p with
  | int a =>
    cases q with
    | int b =>
      obtain rfl := Option.some.inj h
      exact inBounds_int_of_le (a.bits_le_max b) hn
    | uint b =>
      obtain rfl := Option.some.inj h
      obtain ⟨w, hw, hle, -⟩ := exists_signedFor hr
      rw [hw]
      exact inBounds_int_of_le hle hn
    | _ => cases hqinteger
  | uint a =>
    cases q with
    | int b =>
      obtain rfl := Option.some.inj h
      obtain ⟨w, hw, -, hlt⟩ := exists_signedFor hr
      rw [hw]
      exact inBounds_int_of_uint hlt hn
    | uint b =>
      obtain rfl := Option.some.inj h
      exact inBounds_uint_of_le (a.bits_le_max b) hn
    | _ => cases hqinteger
  | _ => cases hpinteger

/-! ### Digits of decimals -/

private theorem decimal_of_join?_of_not_isInteger {precision scale : UInt8} (hp : p.isNumeric = true)
    (hq : q.isNumeric = true) (hne : p ≠ q) (hinteger : q.isInteger = false)
    (h : p.join? q = some (.decimal precision scale)) :
    precision.toNat = min (max p.integral q.integral + scale.toNat) maxPrecision ∧
      scale.toNat = max p.places.toNat q.places.toNat := by
  rw [join?_of_not_isInteger hp hq hne hinteger] at h
  have htype := Option.some.inj h
  cases hfloating : (p.extent ⊔ q.extent).floating with
  | true =>
    rw [Extent.type_of_floating hfloating] at htype
    split at htype <;> cases htype
  | false =>
    rw [Extent.type_of_not_floating hfloating] at htype
    obtain ⟨rfl, rfl⟩ := decimal.inj htype
    exact ⟨toNat_precision _, Extent.toNat_places_sup⟩

/-- The precision of a common decimal is that of the digits of both types, as far as the greatest one allows. -/
theorem decimal_of_join? {precision scale : UInt8} (hp : p.isNumeric = true) (hq : q.isNumeric = true) (hne : p ≠ q)
    (h : p.join? q = some (.decimal precision scale)) :
    precision.toNat = min (max p.integral q.integral + scale.toNat) maxPrecision ∧
      scale.toNat = max p.places.toNat q.places.toNat := by
  by_cases hqinteger : q.isInteger = true
  · by_cases hpinteger : p.isInteger = true
    · -- two integers come to an integer or a float
      obtain ⟨r, hr, hfloat | ⟨hinteger, -⟩⟩ := join?_of_isInteger hpinteger hqinteger
      all_goals obtain rfl := Option.some.inj (hr.symm.trans h)
      · cases hfloat
      · cases hinteger
    · rw [join?_comm] at h
      rw [Nat.max_comm p.integral, Nat.max_comm p.places.toNat]
      exact decimal_of_join?_of_not_isInteger hq hp (Ne.symm hne) (Bool.eq_false_iff.2 hpinteger) h
  · exact decimal_of_join?_of_not_isInteger hp hq hne (Bool.eq_false_iff.2 hqinteger) h

end Primitive

private theorem decimalFits_mono {text : String} {precision scale precision' scale' : UInt8}
    (hscale : scale.toNat ≤ scale'.toNat)
    (hintegral : precision.toNat - scale.toNat ≤ precision'.toNat - scale'.toNat)
    (h : decimalFits text precision scale = true) : decimalFits text precision' scale' = true := by
  simp only [decimalFits, Bool.and_eq_true, decide_eq_true_eq] at h ⊢
  obtain ⟨⟨hform, hfraction⟩, hdigits⟩ := h
  exact ⟨⟨hform, Nat.le_trans hfraction hscale⟩, Nat.le_trans hdigits hintegral⟩

/-- The text of a decimal fits into a common decimal if the digits of both types do. -/
private theorem Primitive.decimalFits_of_join? {text : String} {precision scale precision' scale' : UInt8}
    {q : Primitive} (h : (decimal precision scale).join? q = some (.decimal precision' scale'))
    (hroom : decimal precision scale = q ∨ q = .null ∨
      max (precision.toNat - scale.toNat) q.integral + scale'.toNat ≤ maxPrecision)
    (hfits : decimalFits text precision scale = true) : decimalFits text precision' scale' = true := by
  by_cases hne : decimal precision scale = q
  · obtain ⟨rfl, rfl⟩ : precision = precision' ∧ scale = scale' := by simpa [← hne] using h
    exact hfits
  cases joins_of_join? h with
  | self => exact absurd rfl hne
  | nullRight => exact hfits
  | number hp hq =>
    obtain ⟨hprecision, hscale⟩ := decimal_of_join? hp hq hne h
    have hroom : max (precision.toNat - scale.toNat) q.integral + scale'.toNat ≤ maxPrecision := by
      rcases hroom with rfl | rfl | hroom
      · exact absurd rfl hne
      · cases hq
      · exact hroom
    simp only [integral, places] at hprecision hscale
    refine decimalFits_mono (by omega) ?_ hfits
    omega

/-! ### Values -/

namespace Value

variable {v : Value} {p q r : Primitive}

/-- Only null is a value of the type of null. -/
private theorem eq_null_of_conformsTo (h : v.conformsTo .null = true) : v = .null := by
  cases v with
  | null => rfl
  | _ => cases h

private theorem isFloating_or_isDecimal (hr : r.isNumeric = true) (hinteger : r.isInteger = false) :
    (DataType.isFloating (.primitive r) || DataType.isDecimal (.primitive r)) = true := by
  cases r with
  | float32 | float64 | decimal => rfl
  | int | uint => cases hinteger
  | _ => cases hr

/-- A number other than the text of a decimal conforms to the common type of its type and another type of numbers. -/
private theorem conformsTo_of_isNumeric (hp : p.isNumeric = true) (hq : q.isNumeric = true) (hr : r.isNumeric = true)
    (h : p.join? q = some r) (hdecimal : ∀ text, v ≠ .decimal text) (hv : v.conformsTo (.primitive p) = true) :
    v.conformsTo (.primitive r) = true := by
  cases v with
  | null => rfl
  | int n | uint n =>
    rw [conformsTo, Primitive.dataType_isInteger] at hv ⊢
    cases hinteger : r.isInteger with
    | true =>
      rw [if_pos (Primitive.isInteger_of_join? hp hq h hinteger)] at hv
      rw [if_pos rfl]
      exact Primitive.inBounds_of_join? hp hq h hinteger hv
    | false => simp [isFloating_or_isDecimal hr hinteger]
  | float x =>
    rw [conformsTo]
    refine isFloating_or_isDecimal hr (Bool.eq_false_iff.2 fun hinteger => ?_)
    have hpinteger := Primitive.isInteger_of_join? hp hq h hinteger
    cases p with
    | int | uint => cases hv
    | _ => cases hpinteger
  | decimal text => exact absurd rfl (hdecimal text)
  | array => cases hv
  | boolean | string | binary | date | time | timestamp | json =>
    cases p with
    | int | uint | float32 | float64 | decimal => cases hv
    | _ => cases hp

private theorem conformsTo_of_join? (h : p.join? q = some r) (hdate : ∀ d, v ≠ .date d)
    (hdecimal : ∀ text, v ≠ .decimal text) (hv : v.conformsTo (.primitive p) = true) :
    v.conformsTo (.primitive r) = true := by
  cases Primitive.joins_of_join? h with
  | self | nullRight | dateRight => exact hv
  | nullLeft =>
    rw [eq_null_of_conformsTo hv]
    rfl
  | dateLeft =>
    cases v with
    | null => rfl
    | date d => exact absurd rfl (hdate d)
    | _ => cases hv
  | number hp hq hr => exact conformsTo_of_isNumeric hp hq hr h hdecimal hv

/-- A value without dates and texts of decimals conforms to the common type of its type and another one. -/
theorem conformsTo_of_promote {a b c : DataType} (h : a.promote b = .ok c) (hdate : ∀ d, ¬v.Contains (.date d))
    (hdecimal : ∀ text, ¬v.Contains (.decimal text)) (hv : v.conformsTo a = true) : v.conformsTo c = true := by
  induction v using Value.induction generalizing a b c with
  | step v ih =>
    cases DataType.promote_eq_ok_iff.1 h with
    | nullRight => exact hv
    | nullLeft =>
      rw [eq_null_of_conformsTo hv]
      rfl
    | primitive hjoin =>
      exact conformsTo_of_join? hjoin (fun d hd => hdate d (hd ▸ .self _))
        (fun text ht => hdecimal text (ht ▸ .self _)) hv
    | array item =>
      cases v with
      | null => rfl
      | array items =>
        have hitems := allConformTo_iff.1 hv
        refine allConformTo_iff.2 fun w hw => ?_
        exact ih items rfl w hw item (fun d hd => hdate d (.item hw hd)) (fun text ht => hdecimal text (.item hw ht))
          (hitems w hw)
      | _ => cases hv
    | map | struct =>
      cases v with
      | null => rfl
      | _ => cases hv

/-- Only a decimal type has decimals as values. -/
theorem exists_decimal_of_conformsTo {text : String} {a : DataType} (h : (decimal text).conformsTo a = true) :
    ∃ precision scale, a = .decimal precision scale ∧ decimalFits text precision scale = true := by
  cases a with
  | primitive p =>
    cases p with
    | decimal precision scale => exact ⟨precision, scale, rfl, h⟩
    | _ => cases h
  | array | struct | map => cases h

end Value

namespace DataType

variable {a b : DataType} {precision scale : UInt8}

/-- The digits that a number of a type may have before the point. -/
def integral : DataType → Nat
  | .primitive p => p.integral
  | _ => 0

/-- A decimal that is the common type of two types is one of them, or has the digits of both before the point and the
greater of their scales, as far as the greatest precision allows. -/
private theorem decimal_of_promote (h : a.promote b = .ok (.decimal precision scale)) :
    a = b ∨ a = .null ∨ b = .null ∨
      precision.toNat = min (max a.integral b.integral + scale.toNat) maxPrecision := by
  cases promote_eq_ok_iff.1 h with
  | nullLeft => exact .inr (.inl rfl)
  | nullRight => exact .inr (.inr (.inl rfl))
  | @primitive p q _ hjoin =>
    by_cases hne : p = q
    · exact .inl (by rw [hne])
    cases Primitive.joins_of_join? hjoin with
    | self => exact absurd rfl hne
    | nullLeft => exact .inr (.inl rfl)
    | nullRight => exact .inr (.inr (.inl rfl))
    | number hp hq => exact .inr (.inr (.inr (Primitive.decimal_of_join? hp hq hne hjoin).1))

end DataType

private theorem Value.decimal_conformsTo_of_promote {text : String} {a b : DataType} {precision scale : UInt8}
    (h : a.promote b = .ok (.decimal precision scale))
    (hroom : a = b ∨ b = .null ∨ max a.integral b.integral + scale.toNat ≤ maxPrecision)
    (hv : (decimal text).conformsTo a = true) : (decimal text).conformsTo (.decimal precision scale) = true := by
  obtain ⟨digits, places, rfl, hfits⟩ := exists_decimal_of_conformsTo hv
  cases DataType.promote_eq_ok_iff.1 h with
  | nullRight => exact hfits
  | primitive hjoin =>
    refine Primitive.decimalFits_of_join? hjoin (hroom.imp ?_ (Or.imp_left ?_)) hfits
    · exact DataType.primitive.inj
    · exact DataType.primitive.inj

/-- A value that conforms to a type conforms to the common type of it and another one, if there is no date and no text
of a decimal in it. The text of a decimal does so if the common type is a decimal whose precision is not limited by
the greatest one: none is worked out, or that of the digits before the point and of the scale is not too great. -/
theorem conformsTo_promote {a b c : DataType} (h : a.promote b = .ok c) :
    (∀ v : Value, (∀ d, ¬v.Contains (.date d)) → (∀ text, ¬v.Contains (.decimal text)) →
      v.conformsTo a = true → v.conformsTo c = true) ∧
    ∀ precision scale : UInt8, c = .decimal precision scale →
      (a = b ∨ a = .null ∨ b = .null ∨
        precision.toNat = min (max a.integral b.integral + scale.toNat) maxPrecision) ∧
      ((a = b ∨ b = .null ∨ max a.integral b.integral + scale.toNat ≤ maxPrecision) →
        ∀ text : String, (Value.decimal text).conformsTo a = true → (Value.decimal text).conformsTo c = true) := by
  refine ⟨fun v hdate hdecimal hv => v.conformsTo_of_promote h hdate hdecimal hv, ?_⟩
  rintro precision scale rfl
  exact ⟨DataType.decimal_of_promote h, fun hroom text hv => Value.decimal_conformsTo_of_promote h hroom hv⟩

/-- The greatest integer of 8 bits without a sign, in an array, and a decimal with all its digits. -/
theorem conformsTo_promote_extremes :
    (DataType.promote (.array (.uint .w8)) (.array (.int .w8)) = .ok (.array (.int .w16)) ∧
      (Value.array [.uint 255, .null]).conformsTo (.array (.uint .w8)) = true ∧
      (Value.array [.uint 255, .null]).conformsTo (.array (.int .w16)) = true) ∧
    DataType.promote (.decimal 5 2) (.uint .w64) = .ok (.decimal 22 2) ∧
      (Value.decimal "-999.99").conformsTo (.decimal 5 2) = true ∧
      (Value.decimal "-999.99").conformsTo (.decimal 22 2) = true := by
  have harrays : DataType.promote (.array (.uint .w8)) (.array (.int .w8)) = .ok (.array (.int .w16)) := rfl
  have hbytes : (Value.array [.uint 255, .null]).conformsTo (.array (.uint .w8)) = true := rfl
  have hparts : ∀ w, (Value.array [.uint 255, .null]).Contains w →
      (∀ d, w ≠ .date d) ∧ ∀ text, w ≠ .decimal text := by
    rintro w (_ | ⟨hitem, h⟩)
    · simp
    · simp only [List.mem_cons, List.not_mem_nil, or_false] at hitem
      rcases hitem with rfl | rfl <;> cases h <;> simp
  have hdecimals : DataType.promote (.decimal 5 2) (.uint .w64) = .ok (.decimal 22 2) := rfl
  have hdecimal : (Value.decimal "-999.99").conformsTo (.decimal 5 2) = true := by decide
  refine ⟨⟨harrays, hbytes, (conformsTo_promote harrays).1 _ ?_ ?_ hbytes⟩, hdecimals, hdecimal,
    ((conformsTo_promote hdecimals).2 22 2 rfl).2 (.inr (.inr (by decide))) _ hdecimal⟩
  · exact fun d hd => (hparts _ hd).1 d rfl
  · exact fun text ht => (hparts _ ht).2 text rfl

end SqlPlan
