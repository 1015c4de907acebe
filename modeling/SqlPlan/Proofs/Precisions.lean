import SqlPlan.Proofs.CommonType
import SqlPlan.Proofs.Conformance
import SqlPlan.Proofs.Construction

/-!
# Precisions of decimals

A decimal type with more than 38 digits, or with more digits behind the point than it has in all, is never the result
of an operation over types without one: such a type stands in a tree only if it was written there.

* `Primitive.Bounded.join?`: a common type of two primitive types.
* `DataType.Bounded.promote`: common types at all places.
* `Op.HasType.bounded`: the types of operations.
* `Node.Valid.bounded_type_of_contains`: the types of all nodes of a tree.
-/

namespace SqlPlan

/-! ### Bounded types -/

namespace Primitive

/-- A decimal has at most 38 digits, and no more of them behind the point than there are. -/
def Bounded : Primitive → Prop
  | .decimal precision scale => scale ≤ precision ∧ precision ≤ 38
  | _ => True

variable {p q r : Primitive}

private theorem bounded_decimal_iff {precision scale : UInt8} :
    (decimal precision scale).Bounded ↔ scale.toNat ≤ precision.toNat ∧ precision.toNat ≤ maxPrecision := by
  simp [Bounded, UInt8.le_iff_toNat_le, maxPrecision]

private theorem Bounded.places_le (h : p.Bounded) : p.places.toNat ≤ maxPrecision := by
  cases p with
  | decimal precision scale => exact Nat.le_trans (bounded_decimal_iff.1 h).1 (bounded_decimal_iff.1 h).2
  | _ => exact Nat.zero_le _

/-- The scale of a common decimal is one of the two scales, so that it still fits when the precision is cut to 38. -/
theorem Bounded.join? (hp : p.Bounded) (hq : q.Bounded) (h : p.join? q = some r) : r.Bounded := by
  by_cases hne : p = q
  · subst hne
    obtain rfl : p = r := by simpa using h
    exact hp
  cases joins_of_join? h with
  | self | nullRight => exact hp
  | nullLeft => exact hq
  | dateLeft | dateRight => trivial
  | number hpnumeric hqnumeric =>
    cases r with
    | decimal precision scale =>
      obtain ⟨hprecision, hscale⟩ := decimal_of_join? hpnumeric hqnumeric hne h
      have := hp.places_le
      have := hq.places_le
      rw [bounded_decimal_iff]
      omega
    | _ => trivial

end Primitive

namespace DataType

/-- All decimals at the places of a type are bounded. -/
def Bounded (t : DataType) : Prop := ∀ place, ∀ p ∈ t.primitiveAt? place, p.Bounded

variable {a b c t u : DataType}

private theorem bounded_iff :
    t.Bounded ↔ (∀ p ∈ t.primitive?, p.Bounded) ∧ ∀ step, ∀ u ∈ t.part? step, u.Bounded := by
  constructor
  · intro h
    refine ⟨h [], fun step u hu place p hp => h (step :: place) p ?_⟩
    rw [primitiveAt?, hu]
    exact hp
  · rintro ⟨hprimitive, hpart⟩ place p hp
    cases place with
    | nil => exact hprimitive p hp
    | cons step place =>
      obtain ⟨u, hu, hp⟩ := Option.bind_eq_some_iff.1 hp
      exact hpart step u hu place p hp

@[simp] theorem bounded_null : Bounded .null := by simp [Bounded]

@[simp] theorem bounded_primitive {p : Primitive} : Bounded (.primitive p) ↔ p.Bounded := by
  rw [bounded_iff]
  constructor
  · rintro ⟨h, -⟩
    cases p with
    | null => trivial
    | _ => exact h _ rfl
  · intro h
    refine ⟨fun q hq => ?_, fun step u hu => by cases step <;> cases hu⟩
    cases p <;> cases hq <;> exact h

private theorem bounded_array {item : DataType} : Bounded (.array item) ↔ item.Bounded := by
  rw [bounded_iff]
  constructor
  · exact fun h => h.2 .item item rfl
  · intro h
    refine ⟨by rintro p ⟨⟩, fun step u hu => ?_⟩
    cases step <;> cases hu
    exact h

private theorem bounded_struct {columns : List (Column DataType)} :
    Bounded (.struct columns) ↔ ∀ column ∈ columns, column.type.Bounded := by
  rw [bounded_iff]
  constructor
  · rintro ⟨-, h⟩ column hcolumn
    obtain ⟨i, hi⟩ := List.getElem?_of_mem hcolumn
    exact h (.column i) column.type (by simp [part?, hi])
  · intro h
    refine ⟨by rintro p ⟨⟩, fun step u hu => ?_⟩
    cases step with
    | column i =>
      obtain ⟨column, hcolumn, rfl⟩ := Option.map_eq_some_iff.1 hu
      exact h column (List.mem_of_getElem? hcolumn)
    | item | key | value => cases hu

private theorem Bounded.part_getD (h : t.Bounded) (step : Step) : ((t.part? step).getD .null).Bounded := by
  cases hu : t.part? step with
  | none => exact bounded_null
  | some u => exact (bounded_iff.1 h).2 step u hu

private theorem Bounded.primitive_getD (h : t.Bounded) : (t.primitive?.getD .null).Bounded := by
  cases hp : t.primitive? with
  | none => trivial
  | some p => exact (bounded_iff.1 h).1 p hp

/-- The common type of types with bounded decimals has bounded decimals. -/
theorem Bounded.promote (ha : a.Bounded) (hb : b.Bounded) (h : a.promote b = .ok c) : c.Bounded := by
  induction c using induction_part generalizing a b with
  | h c ih =>
    refine bounded_iff.2 ⟨fun p hp => ?_, fun step u hu => ?_⟩
    · have hjoin := promote_primitive h
      rw [hp, Option.getD_some] at hjoin
      exact ha.primitive_getD.join? hb.primitive_getD hjoin
    · have hpart := promote_part h step
      rw [hu, Option.getD_some] at hpart
      exact ih step u hu (ha.part_getD step) (hb.part_getD step) hpart

/-- The common type of several types with bounded decimals has bounded decimals. -/
theorem Common.bounded {types : List DataType} (h : Common types t) (htypes : ∀ a ∈ types, a.Bounded) :
    t.Bounded := by
  induction h with
  | nil => exact bounded_null
  | concat _ last ih =>
    rw [List.forall_mem_append] at htypes
    exact (ih htypes.1).promote (htypes.2 _ (by simp)) last

end DataType

/-! ### Types of operations -/

variable {left right t u : DataType}

private theorem BinaryOp.bounded_of_intervalType? {op : BinaryOp} (h : op.intervalType? left right = some t) :
    t.Bounded := by
  unfold intervalType? at h
  split at h <;> try split at h
  all_goals cases h
  all_goals simp [Primitive.Bounded]

private theorem bounded_of_arithmeticType {op : BinaryOp} (hleft : left.Bounded) (hright : right.Bounded)
    (h : arithmeticType op left right = .ok t) : t.Bounded := by
  unfold arithmeticType at h
  split at h
  · split at h
    · cases h
    · rename_i promoted hpromoted
      obtain rfl := Except.ok.inj h
      split
      · simp [Primitive.Bounded]
      · exact hleft.promote hright hpromoted
  · split at h
    · rename_i hinterval
      obtain rfl := Except.ok.inj h
      exact BinaryOp.bounded_of_intervalType? hinterval
    · cases h

private theorem BinaryOp.bounded_of_type? {op : BinaryOp} (hleft : left.Bounded) (hright : right.Bounded)
    (h : op.type? left right = .ok t) : t.Bounded := by
  unfold BinaryOp.type? at h
  split at h
  · unfold logicalType at h
    split at h
    · cases h
    split at h
    · cases h
    · obtain rfl := Except.ok.inj h
      simp [Primitive.Bounded]
  split at h
  · split at h
    · obtain rfl := Except.ok.inj h
      simp [Primitive.Bounded]
    · cases h
  · exact bounded_of_arithmeticType hleft hright h

/-- The sum of decimals has their scale and 38 digits. -/
private theorem Reduction.bounded_of_type? {func : Reduction} (harg : t.Bounded) (h : func.type? t = .ok u) :
    u.Bounded := by
  cases func with
  | count =>
    obtain rfl := Except.ok.inj h
    simp [Primitive.Bounded]
  | sum =>
    cases t with
    | primitive p =>
      cases p with
      | decimal precision scale =>
        obtain rfl := Except.ok.inj h
        have hscale := (DataType.bounded_primitive.1 harg).places_le
        exact DataType.bounded_primitive.2 (Primitive.bounded_decimal_iff.2 ⟨hscale, Nat.le_refl _⟩)
      | boolean | int | uint | float32 | float64 =>
        obtain rfl := Except.ok.inj h
        simp [Primitive.Bounded]
      | _ => cases h
    | _ => cases h
  | mean =>
    cases t with
    | primitive p =>
      cases p with
      | decimal precision scale =>
        obtain rfl := Except.ok.inj h
        exact harg
      | boolean | int | uint | float32 | float64 =>
        obtain rfl := Except.ok.inj h
        simp [Primitive.Bounded]
      | _ => cases h
    | _ => cases h
  | min | max | arbitrary | mode =>
    obtain rfl := Except.ok.inj h
    exact harg

namespace Op

/-- The types that an operation writes down. -/
def writtenTypes {α : Type} : Op α → List DataType
  | .literal _ type | .null type => [type]
  | .cast _ target => [target]
  | .table _ schema => schema.map (·.type)
  | _ => []

variable {op : Op Node}

private theorem bounded_of_unify {results : List Node} (hresults : ∀ m ∈ results, m.type.Bounded)
    (h : unify results = .ok t) : t.Bounded :=
  (common_of_unify h).bounded (List.forall_mem_map.2 hresults)

/-- The type of an operation is bounded if those that it writes down and those of its inputs are. -/
theorem HasType.bounded (h : op.HasType t) (hwritten : ∀ t ∈ op.writtenTypes, t.Bounded)
    (hinputs : ∀ m ∈ op.children, m.type.Bounded) : t.Bounded := by
  -- a type is written in the operation, comes from an input, or is fixed and no decimal
  cases op with
  | literal value type =>
    obtain ⟨-, -, rfl⟩ := h
    exact hwritten _ (by simp [writtenTypes])
  | null type =>
    obtain rfl := h
    exact hwritten _ (by simp [writtenTypes])
  | cast arg target =>
    obtain ⟨-, rfl⟩ := h
    exact hwritten _ (by simp [writtenTypes])
  | table name schema =>
    obtain ⟨-, rfl⟩ := h
    simpa [writtenTypes, DataType.bounded_struct] using hwritten
  | field relation name =>
    obtain ⟨schema, column, hschema, hfind, rfl⟩ := h
    have hrelation := hinputs relation (by simp [children])
    rw [Node.type_of_schema? hschema, DataType.bounded_struct] at hrelation
    exact hrelation column (List.mem_of_find?_eq_some hfind)
  | binary op left right =>
    exact BinaryOp.bounded_of_type? (hinputs left (by simp [children])) (hinputs right (by simp [children])) h
  | unary op arg =>
    cases op with
    | negate =>
      obtain ⟨-, rfl⟩ := h
      exact hinputs arg (by simp [children])
    | isNull | notNull =>
      obtain rfl := h
      simp [Primitive.Bounded]
    | not | lowercase | uppercase | stringLength =>
      obtain ⟨-, rfl⟩ := h
      simp [Primitive.Bounded]
  | simpleCase | searchedCase =>
    obtain ⟨-, -, hresults⟩ := h
    exact bounded_of_unify (fun m hm => hinputs m (by simp_all [children])) hresults
  | truncate clock arg unit =>
    cases clock with
    | timestamp =>
      obtain ⟨-, rfl⟩ := h
      exact hinputs arg (by simp [children])
    | date | time =>
      obtain ⟨-, -, rfl⟩ := h
      simp [Primitive.Bounded]
  | generate source => cases source <;> obtain rfl := h <;> simp [Primitive.Bounded]
  | dateFromYmd | interval =>
    obtain ⟨-, rfl⟩ := h
    simp [Primitive.Bounded]
  | correlate =>
    obtain ⟨-, -, rfl⟩ := h
    simp [Primitive.Bounded]
  | reduce func arg condition => exact Reduction.bounded_of_type? (hinputs arg (by simp [children])) h.2
  | pick func arg condition order =>
    obtain ⟨-, rfl⟩ := h
    exact hinputs arg (by simp [children])
  | project parent values =>
    obtain ⟨-, -, rfl⟩ := h
    refine DataType.bounded_struct.2 (List.forall_mem_map.2 fun v hv => ?_)
    exact hinputs v.value (.tail _ (List.mem_map_of_mem hv))
  | aggregate parent groups metrics =>
    obtain ⟨-, -, -, rfl⟩ := h
    refine DataType.bounded_struct.2 (List.forall_mem_map.2 fun v hv => ?_)
    exact hinputs v.value (.tail _ (List.mem_map_of_mem hv))
  | filter parent predicates =>
    obtain ⟨-, rfl⟩ := h
    exact hinputs parent (by simp [children])
  | sort parent | limit parent =>
    obtain rfl := h
    exact hinputs parent (by simp [children])

end Op

namespace Node

variable {n m : Node}

private theorem forall_contains_iff {P : Node → Prop} :
    (∀ k, n.Contains k → P k) ↔ P n ∧ ∀ m ∈ n.children, ∀ k, m.Contains k → P k := by
  constructor
  · exact fun h => ⟨h n .refl, fun m hm k hk => h k (.head hm hk)⟩
  · rintro ⟨hn, hinputs⟩ k hk
    rcases hk.cases_head with rfl | ⟨m, hm, hk⟩
    · exact hn
    · exact hinputs m hm k hk

private theorem Valid.bounded_type (h : n.Valid) (hwritten : ∀ k, n.Contains k → ∀ t ∈ k.op.writtenTypes, t.Bounded) :
    n.type.Bounded := by
  induction n using Node.induction with
  | step n ih =>
    obtain ⟨hn, hinputs⟩ := forall_contains_iff.1 hwritten
    exact h.hasType.bounded hn fun m hm => ih m hm (h.inputs m hm) (hinputs m hm)

/-- If all decimals that are written in a tree have at most 38 digits, and no more of them behind the point than there
are, then so have all decimals in the types of its nodes. -/
theorem Valid.bounded_type_of_contains (h : n.Valid)
    (hwritten : ∀ k, n.Contains k → ∀ t ∈ k.op.writtenTypes, t.Bounded) (hm : n.Contains m) : m.type.Bounded :=
  (h.of_contains hm).bounded_type fun k hk => hwritten k (hm.trans hk)

/-- What was sold, at prices of up to 38 digits. -/
def sales : Node :=
  let schema : Schema :=
    [⟨"price", .decimal 38 6, true⟩, ⟨"discount", .decimal 9 9, true⟩, ⟨"rates", .array (.decimal 38 38), true⟩]
  ⟨.table "sales" schema, .struct schema, .tabular⟩

def price : Node := ⟨.field sales "price", .decimal 38 6, .columnar⟩

def discount : Node := ⟨.field sales "discount", .decimal 9 9, .columnar⟩

/-- What the discounts come to. The digits of both types before and behind the point are 41. -/
def rebate : Node := ⟨.binary .multiply price discount, .decimal 38 9, .columnar⟩

private theorem sales_valid : sales.Valid := ⟨by simp [children, sales, Op.children], rfl⟩

private theorem rebate_valid : rebate.Valid := by
  have hprice : price.Valid := ⟨by simp [children, price, Op.children, sales_valid], rfl⟩
  have hdiscount : discount.Valid := ⟨by simp [children, discount, Op.children, sales_valid], rfl⟩
  exact ⟨by simp [children, rebate, Op.children, hprice, hdiscount], rfl⟩

/-- The digits of the discounts take the room of digits of the prices, and no decimal in the tree gets too long. -/
theorem Valid.bounded_type_rebate :
    (∀ k, rebate.Contains k → ∀ t ∈ k.op.writtenTypes, t.Bounded) ∧ rebate.Contains rebate ∧
      rebate.type = .decimal 38 9 ∧ rebate.type.Bounded := by
  have hsales : ∀ k, sales.Contains k → ∀ t ∈ k.op.writtenTypes, t.Bounded := by
    refine forall_contains_iff.2 ⟨?_, by simp [children, sales, Op.children]⟩
    have hrates : DataType.Bounded (.array (.decimal 38 38)) := by simp [DataType.bounded_array, Primitive.Bounded]
    simp [sales, Op.writtenTypes, Primitive.Bounded, hrates]
  have hwritten : ∀ k, rebate.Contains k → ∀ t ∈ k.op.writtenTypes, t.Bounded := by
    refine forall_contains_iff.2 ⟨by simp [rebate, Op.writtenTypes], fun m hm => forall_contains_iff.2 ?_⟩
    obtain rfl | rfl : m = price ∨ m = discount := by simpa [children, rebate, Op.children] using hm
    · exact ⟨by simp [price, Op.writtenTypes], by simpa [children, price, Op.children] using hsales⟩
    · exact ⟨by simp [discount, Op.writtenTypes], by simpa [children, discount, Op.children] using hsales⟩
  exact ⟨hwritten, .refl, rfl, rebate_valid.bounded_type_of_contains hwritten .refl⟩

end Node

end SqlPlan
