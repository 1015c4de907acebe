import SqlPlan.Proofs.Promotion

/-!
# Exchanged operands

The common type of two types does not depend on which of them comes first, and neither does the place at which they do
not go together: the same parts are reported, in the other order. So the type of an operator does not depend on the
order of its operands, with the exception of the difference, which takes an interval from a date and not a date from
an interval.

* `DataType.promote_swap`: the common type of two types that are exchanged, errors included.
* `BinaryOp.type?_comm`: the type of an operator whose operands are exchanged.
-/

namespace SqlPlan

/-- The mismatch of the two types in the other order. -/
def Mismatch.swap (m : Mismatch) : Mismatch := ⟨m.right, m.left⟩

/-! ### Promotion -/

namespace DataType

variable {cs ds : List (Column DataType)}

/-- The columns of two structs of the same length that are exchanged. The columns come in pairs from the left in both
orders, so the first pair without a common type is the same. -/
private theorem promoteColumns_swap (whole : Mismatch) (hlength : cs.length = ds.length)
    (hcolumns : ∀ column ∈ cs, ∀ b, promote b column.type = (promote column.type b).mapError Mismatch.swap) :
    promoteColumns whole.swap ds cs = (promoteColumns whole cs ds).mapError Mismatch.swap := by
  induction cs generalizing ds with
  | nil =>
    obtain rfl := List.length_eq_zero_iff.1 hlength.symm
    rfl
  | cons column cs ih =>
    obtain ⟨column', ds, rfl⟩ := List.exists_cons_of_length_eq_add_one hlength.symm
    obtain ⟨name, t, nullable⟩ := column
    obtain ⟨name', t', nullable'⟩ := column'
    obtain ⟨hcolumn, hcolumns⟩ := List.forall_mem_cons.1 hcolumns
    rw [promoteColumns, promoteColumns, hcolumn t', ih (Nat.succ.inj hlength) hcolumns]
    by_cases hname : name = name'
    · rw [if_pos hname, if_pos hname.symm, hname, Bool.or_comm]
      cases promote t t' with
      | error e => rfl
      | ok u => cases promoteColumns whole cs ds <;> rfl
    · rw [if_neg hname, if_neg (Ne.symm hname)]
      rfl

/-- Two types that are exchanged have the same common type, or the same parts without one. -/
theorem promote_swap (a b : DataType) : promote b a = (promote a b).mapError Mismatch.swap := by
  induction a using DataType.induction generalizing b with
  | primitive p =>
    cases b with
    | primitive q =>
      rw [promote, promote, Primitive.join?_comm]
      cases p.join? q <;> rfl
    | array | struct | map => cases p <;> rfl
  | array item ih =>
    cases b with
    | primitive q => cases q <;> rfl
    | array item' =>
      rw [promote, promote, ih]
      cases promote item item' <;> rfl
    | struct | map => rfl
  | map key value ihkey ihvalue =>
    cases b with
    | primitive q => cases q <;> rfl
    | map key' value' =>
      rw [promote, promote, ihkey, ihvalue]
      cases promote key key' with
      | error e => rfl
      | ok k => cases promote value value' <;> rfl
    | array | struct => rfl
  | struct columns ih =>
    cases b with
    | primitive q => cases q <;> rfl
    | struct columns' =>
      rw [promote, promote]
      -- structs of different lengths do not fit as a whole, and no columns are looked at
      by_cases hlength : columns.length = columns'.length
      · have hcolumns := promoteColumns_swap ⟨.struct columns, .struct columns'⟩ hlength ih
        rw [if_pos hlength, if_pos hlength.symm]
        rw [Mismatch.swap] at hcolumns
        rw [hcolumns]
        cases promoteColumns ⟨.struct columns, .struct columns'⟩ columns columns' <;> rfl
      · rw [if_neg hlength, if_neg (Ne.symm hlength)]
        rfl
    | array | map => rfl

private theorem comparable_comm (a b : DataType) : b.comparable a = a.comparable b := by
  rw [Bool.eq_iff_iff, comparable_iff, comparable_iff, succeeds_promote_symm]

end DataType

/-! ### Operators -/

namespace BinaryOp

variable {op : BinaryOp} {a b t : DataType}

private theorem logicalType_eq_ok_iff :
    logicalType op a b = .ok t ↔
      (a.isBoolean || a.isNull) = true ∧ (b.isBoolean || b.isNull) = true ∧ t = .boolean := by
  unfold logicalType Kind.reject
  cases a.isBoolean || a.isNull <;> cases b.isBoolean || b.isNull <;> simp [eq_comm]

private theorem intervalType?_multiply (a : DataType) (u : TemporalUnit) :
    BinaryOp.multiply.intervalType? a (.interval u) = if a.isInteger then some (.interval u) else none := by
  cases a with
  | primitive p => cases p <;> rfl
  | array | struct | map => rfl

/-- Sums and products with an interval have the same type in both orders. -/
private theorem intervalType?_comm (hop : op ≠ .subtract) (h : op.intervalType? a b = some t) :
    op.intervalType? b a = some t := by
  unfold intervalType? at h
  split at h
  -- the rules for a sum come in pairs, one for each order; those for a difference do not
  case h_2 | h_4 | h_8 => exact absurd rfl hop
  case h_1 | h_3 | h_5 | h_6 => exact h
  case h_7 u v =>
    by_cases hunit : u = v
    · subst hunit
      exact h
    · simp [hunit] at h
  case h_9 u => exact (intervalType?_multiply b u).trans h
  case h_10 => exact h
  case h_11 => cases h

private theorem arithmeticType_comm (hop : op ≠ .subtract) (h : arithmeticType op a b = .ok t) :
    arithmeticType op b a = .ok t := by
  unfold arithmeticType at h ⊢
  rw [Bool.and_comm]
  split at h
  · rename_i hnumeric
    rw [if_pos hnumeric]
    cases hpromote : a.promote b with
    | error m => simp [hpromote] at h
    | ok promoted => simpa [hpromote, DataType.promote_comm hpromote] using h
  · rename_i hnumeric
    rw [if_neg hnumeric]
    cases hinterval : op.intervalType? a b with
    | none => simp [hinterval] at h
    | some type => simpa [hinterval, intervalType?_comm hop hinterval] using h

/-- Every operator other than the difference has the same type when its operands are exchanged. -/
theorem type?_comm (hop : op ≠ .subtract) (h : op.type? a b = .ok t) : op.type? b a = .ok t := by
  unfold BinaryOp.type? at h ⊢
  split at h
  · rename_i hlogical
    obtain ⟨ha, hb, ht⟩ := logicalType_eq_ok_iff.1 h
    rw [if_pos hlogical]
    exact logicalType_eq_ok_iff.2 ⟨hb, ha, ht⟩
  · rename_i hlogical
    rw [if_neg hlogical]
    split at h
    · rename_i hcomparison
      rw [if_pos hcomparison, DataType.comparable_comm]
      split at h
      · rename_i hcomparable
        rw [if_pos hcomparable, h]
      · cases h
    · rename_i hcomparison
      rw [if_neg hcomparison]
      exact arithmeticType_comm hop h

/-- The operators whose type does not depend on the order of the operands. -/
private theorem forall_type?_comm_iff :
    (∀ a b t, op.type? a b = .ok t ↔ op.type? b a = .ok t) ↔ op ≠ .subtract := by
  constructor
  · rintro h rfl
    -- an interval is taken from a date, but no date from an interval
    have hdate := (h .date (.interval .day) .date).1 rfl
    cases hdate
  · exact fun hop a b t => ⟨type?_comm hop, type?_comm hop⟩

end BinaryOp

/-- The order of two types does not matter for their common type, and where there is none, the same parts are reported
in the other order. So the order of the operands does not matter for the types of sums, products, comparisons and
logical operators; the difference is the only operator for which it does. -/
theorem promote_type?_comm :
    (∀ a b c : DataType, b.promote a = .ok c ↔ a.promote b = .ok c) ∧
    (∀ (a b left right : DataType) (context : MismatchContext),
      (b.promote a).mapError NodeError.ofMismatch = .error (.typeMismatch context right left) ↔
        (a.promote b).mapError NodeError.ofMismatch = .error (.typeMismatch context left right)) ∧
    ∀ op : BinaryOp, (∀ a b t : DataType, op.type? a b = .ok t ↔ op.type? b a = .ok t) ↔ op ≠ .subtract := by
  refine ⟨fun a b c => ⟨DataType.promote_comm, DataType.promote_comm⟩, fun a b left right context => ?_,
    fun op => BinaryOp.forall_type?_comm_iff⟩
  rw [DataType.promote_swap a b]
  cases a.promote b with
  | ok c => simp [Except.mapError]
  | error m => simp [Except.mapError, NodeError.ofMismatch, Mismatch.swap, and_comm]

end SqlPlan
