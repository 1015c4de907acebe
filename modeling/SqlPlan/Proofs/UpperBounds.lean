import SqlPlan.Proofs.Extents

/-!
# Common types as upper bounds

The common type of two types lies above both of them: it is their common type with it as well, and both can be cast to
it. For decimals this holds although the precision is cut off, since a precision that is cut off once is cut off in
the same place again.

* `Primitive.join?_absorb`, `DataType.promote_absorb`: a common type is not changed by what it was made from.
* `DataType.castable_of_absorb`: a type can be cast to every type that is the common type of both.
-/

namespace SqlPlan

/-! ### Primitive types -/

namespace Primitive

variable {p q r : Primitive}

/-- Beside a float or a decimal, two numbers have the least float or decimal with room for both, and it absorbs
them. -/
private theorem join?_absorb_of_not_isInteger (hp : p.isNumeric = true) (hq : q.isNumeric = true) (hne : p ≠ q)
    (hinteger : q.isInteger = false) (h : p.join? q = some r) : r.join? p = some r ∧ r.join? q = some r := by
  have hloose : (p.extent ⊔ q.extent).floating = true ∨ (p.extent ⊔ q.extent).wide = true := by
    rcases isLoose_of_not_isInteger hq hinteger with he | he <;> simp [he]
  rw [join?_of_not_isInteger hp hq hne hinteger] at h
  obtain rfl := Option.some.inj h
  rw [join?_type hloose hp, join?_type hloose hq]
  exact ⟨by rw [sup_eq_left.2 le_sup_left], by rw [sup_eq_left.2 le_sup_right]⟩

private theorem join?_absorb_of_isInteger (hp : p.isInteger = true) (hq : q.isInteger = true)
    (h : p.join? q = some r) : r.join? p = some r := by
  have hcomm := Collects.join?_right_comm (.inl hp) hq hp
  simpa [h] using hcomm

/-- The common type of two primitive types is not changed by the first of them. -/
theorem join?_absorb (h : p.join? q = some r) : r.join? p = some r := by
  cases joins_of_join? h with
  | self | nullRight => exact join?_self p
  | nullLeft => exact join?_null_right q
  | dateLeft => rfl
  | dateRight => exact join?_self _
  | number hp hq _ =>
    by_cases hne : p = q
    · obtain rfl := hne
      obtain rfl : p = r := by simpa using h
      exact join?_self p
    -- two integers have their common type by widths and signs, not by extents
    by_cases hqinteger : q.isInteger = true
    · by_cases hpinteger : p.isInteger = true
      · exact join?_absorb_of_isInteger hpinteger hqinteger h
      · rw [join?_comm] at h
        exact (join?_absorb_of_not_isInteger hq hp (Ne.symm hne) (Bool.eq_false_iff.2 hpinteger) h).2
    · exact (join?_absorb_of_not_isInteger hp hq hne (Bool.eq_false_iff.2 hqinteger) h).1

private theorem castable_self (p : Primitive) : p.castable p = true := by simp [castable]

/-- There are casts between all types of numbers. -/
private theorem castable_of_isNumeric (hp : p.isNumeric = true) (hq : q.isNumeric = true) : p.castable q = true := by
  cases p with
  | int | uint | float32 | float64 | decimal =>
    cases q with
    | int | uint | float32 | float64 | decimal => simp [castable, isNumeric]
    | _ => cases hq
  | _ => cases hp

/-- A primitive type can be cast to the common type of it and another one. -/
private theorem castable_of_join? (h : p.join? q = some r) : p.castable r = true := by
  cases joins_of_join? h with
  | self | nullRight => exact castable_self p
  | nullLeft => simp [castable]
  | dateLeft => rfl
  | dateRight => exact castable_self _
  | number hp _ hr => exact castable_of_isNumeric hp hr

end Primitive

/-! ### Types -/

namespace DataType

variable {a b c : DataType} {cs ds es : List (Column DataType)}

/-- The common columns of two structs are also those with the first of them, if this is so for their types. -/
theorem ColumnsPromote.absorb (h : ColumnsPromote cs ds es)
    (hcolumns : ∀ column ∈ cs, ∀ b c, promote column.type b = .ok c → promote column.type c = .ok c) :
    ColumnsPromote cs es es := by
  induction h with
  | nil => exact .nil
  | @cons name t t' u nullable nullable' cs ds es head _ ih =>
    obtain ⟨hcolumn, hcolumns⟩ := List.forall_mem_cons.1 hcolumns
    have hcons := @ColumnsPromote.cons name t u u nullable (nullable || nullable') cs es es (hcolumn _ _ head)
      (ih hcolumns)
    -- a common column is nullable if one of the two is, and so is the one that it has with the first of them
    rwa [← Bool.or_assoc, Bool.or_self] at hcons

/-- The common type of two types is their common type with the first of them as well. -/
theorem promote_absorb (h : promote a b = .ok c) : promote a c = .ok c := by
  induction a using DataType.induction generalizing b c with
  | primitive p =>
    cases promote_eq_ok_iff.1 h with
    | nullLeft => exact promote_null_left b
    | nullRight => exact promote_self _
    | primitive hjoin =>
      exact promote_eq_ok_iff.2 (.primitive (by rw [Primitive.join?_comm, Primitive.join?_absorb hjoin]))
  | array item ih =>
    cases promote_eq_ok_iff.1 h with
    | nullRight => exact promote_self _
    | array item => exact promote_eq_ok_iff.2 (.array (ih item))
  | map key value ihkey ihvalue =>
    cases promote_eq_ok_iff.1 h with
    | nullRight => exact promote_self _
    | map key value => exact promote_eq_ok_iff.2 (.map (ihkey key) (ihvalue value))
  | struct columns ih =>
    cases promote_eq_ok_iff.1 h with
    | nullRight => exact promote_self _
    | struct columns =>
      exact promote_eq_ok_iff.2 (.struct (columns.absorb fun column hcolumn _ _ => ih column hcolumn))

private theorem ColumnsPromote.castable (h : ColumnsPromote cs ds es)
    (hcolumns : ∀ column ∈ cs, ∀ b c, promote column.type b = .ok c → column.type.castable c = true) :
    castableColumns cs es = true := by
  induction h with
  | nil => rfl
  | cons head _ ih =>
    obtain ⟨hcolumn, hcolumns⟩ := List.forall_mem_cons.1 hcolumns
    rw [castableColumns, hcolumn _ _ head, ih hcolumns, Bool.and_self]

/-- A type can be cast to every type that is the common type of both. -/
theorem castable_of_absorb (h : promote a c = .ok c) : a.castable c = true := by
  induction a using DataType.induction generalizing c with
  | primitive p =>
    cases promote_eq_ok_iff.1 h with
    | nullLeft | nullRight => exact castable_null _
    | primitive hjoin => rw [castable, Primitive.castable_of_join? hjoin]
  | array item ih =>
    cases promote_eq_ok_iff.1 h with
    | array item => rw [castable, ih item]
  | map key value ihkey ihvalue =>
    cases promote_eq_ok_iff.1 h with
    | map key value => rw [castable, ihkey key, ihvalue value, Bool.and_self]
  | struct columns ih =>
    cases promote_eq_ok_iff.1 h with
    | struct columns =>
      rw [castable, columns.castable fun column hcolumn _ _ hpromote => ih column hcolumn (promote_absorb hpromote)]

/-- The common type of two types is an upper bound of both: it is their common type with it as well, and both can be
cast to it. -/
theorem promote_upperBound (h : a.promote b = .ok c) :
    a.promote c = .ok c ∧ b.promote c = .ok c ∧ a.castable c = true ∧ b.castable c = true := by
  have ha := promote_absorb h
  have hb := promote_absorb (promote_comm h)
  exact ⟨ha, hb, castable_of_absorb ha, castable_of_absorb hb⟩

/-- A decimal with more places than digits and a decimal with too many digits, with one another and with an
integer. -/
theorem promote_upperBound_decimals :
    promote (.map (.decimal 2 5) (.array (.decimal 50 0))) (.map (.decimal 50 0) (.array (.uint .w64))) =
      .ok (.map (.decimal 38 5) (.array (.decimal 38 0))) ∧
    promote (.map (.decimal 2 5) (.array (.decimal 50 0))) (.map (.decimal 38 5) (.array (.decimal 38 0))) =
      .ok (.map (.decimal 38 5) (.array (.decimal 38 0))) ∧
    promote (.map (.decimal 50 0) (.array (.uint .w64))) (.map (.decimal 38 5) (.array (.decimal 38 0))) =
      .ok (.map (.decimal 38 5) (.array (.decimal 38 0))) ∧
    castable (.map (.decimal 2 5) (.array (.decimal 50 0))) (.map (.decimal 38 5) (.array (.decimal 38 0))) = true ∧
    castable (.map (.decimal 50 0) (.array (.uint .w64))) (.map (.decimal 38 5) (.array (.decimal 38 0))) = true :=
  ⟨rfl, promote_upperBound rfl⟩

end DataType

end SqlPlan
