import SqlPlan.Proofs.Compilable
import SqlPlan.Proofs.Correspondence

/-!
# Dialects with fewer features

A dialect is restricted by taking operations, words for units and modes of correlation away from it, or by asking for
an order of first and last values. What is left of a dialect in these respects decides whether a node is compiled, and
never how: a node that the restricted dialect compiles has the same SQL in the full one.

* `lower_keptBy`, `lowerRelation_keptBy`: a value or a relation is compiled side by side in the two dialects.
* `compile_of_restricts`: restricting a dialect does not change the SQL that is left.
-/

namespace SqlPlan

open Sql

/-- A dialect has no more to offer than another one, and agrees with it about today's date and about `FILTER`. -/
structure Dialect.Restricts (d' d : Dialect) : Prop where
  unsupported : ∀ kind ∈ d.unsupported, kind ∈ d'.unsupported
  truncateUnits : ∀ unit keyword, d'.truncateUnits unit = some keyword → d.truncateUnits unit = some keyword
  intervalUnits : ∀ unit keyword, d'.intervalUnits unit = some keyword → d.intervalUnits unit = some keyword
  orderRequired : d.orderRequired = true → d'.orderRequired = true
  correlationModes : ∀ mode ∈ d'.correlationModes, mode ∈ d.correlationModes
  nativeCurrentDate : d'.nativeCurrentDate = d.nativeCurrentDate
  aggregateFilter : d'.aggregateFilter = d.aggregateFilter

namespace Compiler

/-- A compiler for a restricted dialect with the same names for types and functions. -/
structure Restricts (c' c : Compiler) : Prop where
  family : c'.family = c.family
  dialect : c'.dialect.Restricts c.dialect

variable {c' c : Compiler}

/-! ### Types and literals -/

section

variable (h : c'.family = c.family)

include h

mutual

private theorem typeNameAs_keptBy : ∀ (family : Family) (type : DataType),
    KeptBy (c'.typeNameAs family type) (c.typeNameAs family type)
  | family, .primitive p => by
    rw [typeNameAs, typeNameAs]
    cases p.sqlName? family with
    | some name => exact .refl _
    | none => exact .error _ _
  | family, .array item => by
    rw [typeNameAs, typeNameAs, h]
    exact (typeNameAs_keptBy c.family item).bind_pure
  | family, .struct columns => by
    cases family with
    | ansi | duckdb =>
      rw [typeNameAs, typeNameAs]
      exact (columnTypes_keptBy columns).bind_pure
    | postgres | risingwave => exact .error _ _
  | family, .map key value => by
    cases family with
    | duckdb =>
      rw [typeNameAs, typeNameAs, h]
      exact (typeNameAs_keptBy c.family key).bind fun _ => (typeNameAs_keptBy c.family value).bind_pure
    | ansi | postgres | risingwave => exact .error _ _

private theorem columnTypes_keptBy : ∀ columns : List (Column DataType),
    KeptBy (c'.columnTypes columns) (c.columnTypes columns)
  | [] => .refl _
  | ⟨name, type, _⟩ :: columns => by
    rw [columnTypes, columnTypes, h]
    exact (typeNameAs_keptBy c.family type).bind fun _ => (columnTypes_keptBy columns).bind_pure

end

private theorem typeName_keptBy (type : DataType) : KeptBy (c'.typeName type) (c.typeName type) := by
  unfold typeName
  rw [h]
  exact typeNameAs_keptBy h c.family type

private theorem castTo_keptBy (e : Expr) (type : DataType) :
    KeptBy (c'.handlers.castTo e type) (c.handlers.castTo e type) :=
  (typeName_keptBy h type).bind_pure

private theorem nullLiteral_keptBy (type : DataType) :
    KeptBy (c'.handlers.nullLiteral type) (c.handlers.nullLiteral type) :=
  .ite (.refl _) (castTo_keptBy h _ type)

private theorem number_keptBy (n : Int) (type : DataType) :
    KeptBy (c'.handlers.number n type) (c.handlers.number n type) :=
  .ite (castTo_keptBy h _ type) (.refl _)

private theorem floatLiteral_keptBy (x : Float) (type : DataType) :
    KeptBy (c'.handlers.floatLiteral x type) (c.handlers.floatLiteral x type) :=
  .ite (castTo_keptBy h _ type) (.ite (castTo_keptBy h _ type) (.ite (castTo_keptBy h _ type) (.refl _)))

private theorem timestampLiteral_keptBy (t : Timestamp) (type : DataType) :
    KeptBy (c'.handlers.timestampLiteral t type) (c.handlers.timestampLiteral t type) := by
  unfold Handlers.timestampLiteral
  split
  · exact castTo_keptBy h _ _
  · exact .refl _

end

private theorem interval_keptBy (h : c'.Restricts c) (n : Int) (unit : TemporalUnit) :
    KeptBy (c'.handlers.interval n unit) (c.handlers.interval n unit) := by
  unfold Handlers.interval
  cases hunit : c'.dialect.intervalUnits unit with
  | none => exact .error _ _
  | some keyword =>
    rw [h.dialect.intervalUnits unit keyword hunit]
    exact .refl _

/-- The two compilers have spellings of their own for the same values. -/
private theorem ownLiteral?_keptBy (h : c'.family = c.family) (v : Value) (type : DataType) :
    Option.Rel KeptBy (c'.ownLiteral? v type) (c.ownLiteral? v type) := by
  unfold ownLiteral?
  rw [h]
  split
  · exact .none
  · exact .some (.refl _)
  · exact .some (castTo_keptBy h _ type)
  · exact .none

private theorem literal_keptBy_of_common (h : c'.family = c.family) {v : Value} {type : DataType}
    (hcommon : KeptBy (c'.commonLiteral v type) (c.commonLiteral v type)) :
    KeptBy (c'.literal v type) (c.literal v type) := by
  have hown := ownLiteral?_keptBy h v type
  unfold literal Handlers.literal
  dsimp only
  generalize c'.ownLiteral? v type = own', c.ownLiteral? v type = own at hown ⊢
  cases hown with
  | none => exact hcommon
  | some hkept => exact hkept

mutual

private theorem commonLiteral_keptBy (h : c'.Restricts c) : ∀ (v : Value) (type : DataType),
    KeptBy (c'.commonLiteral v type) (c.commonLiteral v type)
  | .null, type => nullLiteral_keptBy h.family type
  | .int n, type => by
    unfold commonLiteral Handlers.commonLiteral
    split
    · exact interval_keptBy h _ _
    · exact number_keptBy h.family _ type
  | .uint n, type => number_keptBy h.family _ type
  | .float x, type => floatLiteral_keptBy h.family x type
  | .decimal _, type | .date _, type | .json _, type => castTo_keptBy h.family _ type
  | .string text, type => by
    unfold commonLiteral Handlers.commonLiteral
    split
    · exact castTo_keptBy h.family _ _
    · exact .refl _
  | .timestamp t, type => timestampLiteral_keptBy h.family t type
  | .boolean _, _ | .binary _, _ | .time _, _ => .refl _
  | .array items, type => by
    unfold commonLiteral Handlers.commonLiteral
    split
    · exact .ite (castTo_keptBy h.family _ _) (elementTexts_keptBy h items _).bind_pure
    · exact .error _ _

private theorem elementTexts_keptBy (h : c'.Restricts c) : ∀ (vs : List Value) (type : DataType),
    KeptBy (c'.handlers.elementTexts vs type) (c.handlers.elementTexts vs type)
  | [], _ => .refl _
  | v :: vs, type => by
    rw [elementTexts_cons, elementTexts_cons]
    refine (literal_keptBy_of_common h.family (commonLiteral_keptBy h v type)).bind fun _ => ?_
    exact (elementTexts_keptBy h vs type).bind_pure

end

private theorem literal_keptBy (h : c'.Restricts c) (v : Value) (type : DataType) :
    KeptBy (c'.literal v type) (c.literal v type) :=
  literal_keptBy_of_common h.family (commonLiteral_keptBy h v type)

/-! ### Checks and calls -/

section

variable (h : c'.Restricts c)

include h

private theorem ensureSupported_keptBy (kind : Kind) :
    KeptBy (c'.dialect.ensureSupported kind) (c.dialect.ensureSupported kind) := by
  have hmono : c'.dialect.supports kind = true → c.dialect.supports kind = true := by
    simpa [Dialect.supports] using mt (h.dialect.unsupported kind)
  unfold Dialect.ensureSupported
  by_cases hsupports : c'.dialect.supports kind = true
  · rw [if_pos hsupports, if_pos (hmono hsupports)]
    exact .refl _
  · rw [if_neg hsupports]
    exact .error _ _

private theorem ensureOrdered_keptBy (func : Pick) {order order' : List (SortKey Node)}
    (horder : order.isEmpty = order'.isEmpty) :
    KeptBy (c'.handlers.ensureOrdered func order) (c.handlers.ensureOrdered func order') := by
  have hmono : (order'.isEmpty && c.dialect.orderRequired) = true →
      (order.isEmpty && c'.dialect.orderRequired) = true := by
    rw [Bool.and_eq_true, Bool.and_eq_true, horder]
    exact And.imp_right h.dialect.orderRequired
  unfold Handlers.ensureOrdered
  by_cases hordered : (order.isEmpty && c'.dialect.orderRequired) = true
  · rw [if_pos hordered]
    exact .error _ _
  · rw [if_neg hordered, if_neg (mt hmono hordered)]
    exact .refl _

private theorem ensureCorrelation_keptBy (mode : CorrelationMode) :
    KeptBy (c'.handlers.ensureCorrelation mode) (c.handlers.ensureCorrelation mode) := by
  have hmono : c'.dialect.supportsCorrelation mode = true → c.dialect.supportsCorrelation mode = true := by
    simpa [Dialect.supportsCorrelation] using h.dialect.correlationModes mode
  unfold Handlers.ensureCorrelation
  by_cases hsupports : c'.dialect.supportsCorrelation mode = true
  · rw [if_pos hsupports, if_pos (hmono hsupports)]
    exact .refl _
  · rw [if_neg hsupports]
    exact .error _ _

private theorem truncation_keptBy (kind : Kind) (e : Expr) (unit : TemporalUnit) :
    KeptBy (c'.truncation kind e unit) (c.truncation kind e unit) := by
  unfold truncation
  cases hunit : c'.dialect.truncateUnits unit with
  | none => exact .error _ _
  | some keyword =>
    rw [h.dialect.truncateUnits unit keyword hunit]
    exact .refl _

private theorem intervalOf_keptBy (e : Expr) (shape : Shape) (unit : TemporalUnit) :
    KeptBy (c'.intervalOf e shape unit) (c.intervalOf e shape unit) := by
  unfold intervalOf
  cases hunit : c'.dialect.intervalUnits unit with
  | none => exact .error _ _
  | some keyword =>
    rw [h.dialect.intervalUnits unit keyword hunit]
    exact .refl _

private theorem generated_keptBy (source : Generator) :
    KeptBy (c'.handlers.generated source) (c.handlers.generated source) := by
  cases source with
  | dateNow =>
    change KeptBy c'.currentDate c.currentDate
    rw [currentDate, currentDate, h.dialect.nativeCurrentDate]
    exact .ite (.refl _) (typeName_keptBy h.family _).bind_pure
  | timestampNow => exact .refl _
  | randomUuid =>
    change KeptBy (.ok c'.randomUuid) (.ok c.randomUuid)
    rw [randomUuid, randomUuid, h.family]
    exact .refl _

/-- Aggregates depend on nothing but whether there is a `FILTER`. -/
private theorem aggregate_restricts : c'.dialect.aggregate = c.dialect.aggregate := by
  funext name args condition
  cases condition with
  | none => rfl
  | some condition => rw [Dialect.aggregate, Dialect.aggregate, h.dialect.aggregateFilter]

private theorem reduction_keptBy (func : Reduction) (arg : Expr) (type : DataType) (condition : Option Expr) :
    KeptBy (c'.reduction func arg type condition) (c.reduction func arg type condition) := by
  have hmode : c'.modeOfGroup arg condition = c.modeOfGroup arg condition := by
    rw [modeOfGroup, modeOfGroup, aggregate_restricts h]
  have hplain : KeptBy (c'.plainReduction func arg type condition) (c.plainReduction func arg type condition) := by
    unfold plainReduction
    rw [aggregate_restricts h]
    dsimp only
    split
    · exact (typeName_keptBy h.family _).bind_pure
    · exact .refl _
  unfold reduction reductionAs
  rw [h.family]
  split
  · exact .of_eq (congrArg _ hmode)
  · exact .of_eq (congrArg _ hmode)
  · exact hplain

private theorem pick_eq (func : Pick) (arg : Expr) (condition : Option Expr) (order : List (SortKey Expr)) :
    c'.pick func arg condition order = c.pick func arg condition order := by
  unfold pick pickAs
  rw [aggregate_restricts h, h.family]

private theorem correlation_eq (left right : Expr) (condition : Option Expr) :
    c'.correlation left right condition = c.correlation left right condition := by
  rw [correlation, correlation, aggregate_restricts h]

private theorem unary_eq (op : UnaryOp) (arg : Expr) : c'.handlers.unary op arg = c.handlers.unary op arg := by
  cases op with
  | stringLength =>
    change c'.stringLength arg = c.stringLength arg
    rw [stringLength, stringLength, h.family]
  | _ => rfl

end

/-! ### Values and relations -/

private theorem corresponds_of_restricts (h : c'.Restricts c) : Corresponds c' c True Eq where
  supported kind := (ensureSupported_keptBy h kind).mono fun _ _ _ => True.intro
  castTo := by
    rintro e _ rfl type
    exact castTo_keptBy h.family e type
  binary := by
    rintro e _ f _ rfl op rfl
    rfl
  unary := by
    rintro e _ rfl op
    exact unary_eq h op e
  case := by
    rintro operand operand' bs bs' e _ hoperand hbranches rfl
    have hoperand : operand = operand' := by cases hoperand <;> simp_all
    have hbranches : bs = bs' := by
      refine List.forall₂_eq_eq_eq ▸ hbranches.imp fun b b' hb => ?_
      cases b
      cases b'
      simp_all
    rw [hoperand, hbranches]
  truncation := by
    rintro e _ rfl kind unit
    exact truncation_keptBy h kind e unit
  dateFromYmd := by
    rintro e _ f _ k _ rfl rfl rfl
    rfl
  intervalOf := by
    rintro e _ rfl shape unit
    exact intervalOf_keptBy h e shape unit

private theorem reduces_of_restricts (h : c'.Restricts c) : Reduces c' c True Eq Eq where
  ordered func _ _ horder := (ensureOrdered_keptBy h func horder).mono fun _ _ _ => True.intro
  correlated mode := (ensureCorrelation_keptBy h mode).mono fun _ _ _ => True.intro
  reduction := by
    rintro func e _ w w' rfl type hw
    obtain rfl : w = w' := by cases hw <;> simp_all
    exact reduction_keptBy h func e type w
  pick := by
    rintro func e _ w w' order order' rfl hw horder
    obtain rfl : w = w' := by cases hw <;> simp_all
    obtain rfl : order = order' := by
      refine List.forall₂_eq_eq_eq ▸ horder.imp fun key key' hkey => ?_
      cases key
      cases key'
      simp_all
    exact pick_eq h func e w order
  correlation := by
    rintro e _ f _ w w' rfl rfl hw
    obtain rfl : w = w' := by cases hw <;> simp_all
    exact correlation_eq h e f w
  inScope := by
    rintro e _ scope _ rfl rfl
    rfl
  none := rfl

/-- A value that is compiled for the restricted dialect is compiled to the same expression for the full one. -/
theorem lower_keptBy (h : c'.Restricts c) (scope : Option Select) (n : Node) :
    KeptBy (c'.lower scope n) (c.lower scope n) := by
  refine lower_tracks_throughout (corresponds_of_restricts h) Node.counterpart_id (reduces_of_restricts h)
    (fun n hleaf scope scope' => ?_) rfl n
  rw [id, c'.lower_leaf hleaf scope, c.lower_leaf hleaf scope']
  obtain ⟨op, type, shape⟩ := n
  rw [lower_eq, lower_eq]
  refine (ensureSupported_keptBy h op.kind).bind fun _ => ?_
  cases op with
  | literal value type => exact literal_keptBy h value type
  | null type => exact nullLiteral_keptBy h.family type
  | field relation name => exact .refl _
  | generate source => exact generated_keptBy h source
  | searchedCase => simp [Op.arguments, Op.children] at hleaf
  | table | project | filter | aggregate | sort | limit => exact .error _ _
  | _ => cases hleaf

section

variable (h : c'.Restricts c) {scope : Option Select}

include h

private theorem lowerAll_keptBy (ns : List Node) : KeptBy (c'.lowerAll scope ns) (c.lowerAll scope ns) := by
  rw [lowerAll, lowerAll, lowerEach_eq_map, lowerEach_eq_map]
  exact .collect_map fun m _ => lower_keptBy h scope m

private theorem lowerKeys_keptBy (keys : List (SortKey Node)) :
    KeptBy (c'.lowerKeys scope keys) (c.lowerKeys scope keys) := by
  rw [lowerKeys_eq_collect, lowerKeys_eq_collect]
  exact .collect_map fun key _ => (lower_keptBy h scope key.expr).map

private theorem lowerNamed_keptBy (values : List (Named Node)) :
    KeptBy (c'.lowerNamed scope values) (c.lowerNamed scope values) := by
  rw [lowerNamed_eq_collect, lowerNamed_eq_collect]
  exact .collect_map fun v _ => (lower_keptBy h scope v.value).map

end

/-- A relation that is compiled for the restricted dialect is compiled to the same statement for the full one. Which
clauses go into the statement of the parent depends on that statement alone. -/
theorem lowerRelation_keptBy (h : c'.Restricts c) (n : Node) : KeptBy (c'.lowerRelation n) (c.lowerRelation n) := by
  induction n using Node.induction with
  | step n ih =>
    obtain ⟨op, type, shape⟩ := n
    -- every step of the restricted compiler is kept, and the steps behind it start from the same statement
    cases op with
    | table name schema =>
      rw [lowerRelation, lowerRelation]
      exact (ensureSupported_keptBy h _).bind_pure
    | project parent values =>
      rw [lowerRelation, lowerRelation]
      refine (ensureSupported_keptBy h _).bind fun _ => ?_
      refine (ih parent (by simp [Node.children, Op.children])).bind fun s => ?_
      exact (lowerNamed_keptBy h _).bind_pure
    | filter parent predicates =>
      rw [lowerRelation, lowerRelation]
      refine (ensureSupported_keptBy h _).bind fun _ => ?_
      refine (ih parent (by simp [Node.children, Op.children])).bind fun s => ?_
      exact (lowerAll_keptBy h _).bind fun es => .refl _
    | aggregate parent groups metrics =>
      rw [lowerRelation, lowerRelation]
      refine (ensureSupported_keptBy h _).bind fun _ => ?_
      refine (ih parent (by simp [Node.children, Op.children])).bind fun s => ?_
      refine (lowerNamed_keptBy h _).bind fun groupItems => ?_
      exact (lowerNamed_keptBy h _).bind_pure
    | sort parent keys =>
      rw [lowerRelation, lowerRelation]
      refine (ensureSupported_keptBy h _).bind fun _ => ?_
      refine (ih parent (by simp [Node.children, Op.children])).bind fun s => ?_
      exact (lowerKeys_keptBy h _).bind_pure
    | limit parent count offset =>
      rw [lowerRelation, lowerRelation]
      refine (ensureSupported_keptBy h _).bind fun _ => ?_
      exact (ih parent (by simp [Node.children, Op.children])).bind_pure
    | _ => exact (ensureSupported_keptBy h _).bind fun _ => .error _ _

/-- A node that is compiled for a restricted dialect is compiled to the same SQL for the full one. -/
theorem compile_of_restricts {d' d : Dialect} (h : d'.Restricts d) {n : Node} {fragment : Fragment}
    (hcompile : (ofDialect d').compile n = .ok fragment) : (ofDialect d).compile n = .ok fragment := by
  have hc : (ofDialect d').Restricts (ofDialect d) := ⟨rfl, h⟩
  have hkept : KeptBy ((ofDialect d').compile n) ((ofDialect d).compile n) :=
    .ite (KeptBy.map (lowerRelation_keptBy hc n)) (KeptBy.map (lower_keptBy hc none n))
  exact hkept.eq_ok hcompile

/-- Plain SQL with truncation to days only, and without an order that comes about by itself. -/
def daily : Dialect :=
  { Dialect.base with
    name := "daily"
    unsupported := [.mode]
    truncateUnits := fun unit => if unit = .day then some "day" else none
    orderRequired := true
    correlationModes := [] }

private theorem daily_restricts : daily.Restricts .base where
  unsupported := by simp [Dialect.base]
  truncateUnits := by
    intro unit keyword h
    cases unit <;> first | exact h | cases h
  intervalUnits := fun _ _ h => h
  orderRequired := fun _ => rfl
  correlationModes := by simp [daily]
  nativeCurrentDate := rfl
  aggregateFilter := rfl

/-- Every `x` of `pairs` with today's date and the last `x` in the order of `y`. -/
def withLast : Node :=
  let today : Node := ⟨.truncate .date ⟨.generate .dateNow, .date, .scalar⟩ .day, .date, .scalar⟩
  let last : Node := ⟨.pick .last (Node.pairs.column "x") none [⟨Node.pairs.column "y", true⟩], .int .w64, .scalar⟩
  ⟨.project Node.pairs [⟨"x", Node.pairs.column "x"⟩, ⟨"today", today⟩, ⟨"last", last⟩],
    .struct [⟨"x", .int .w64, true⟩, ⟨"today", .date, true⟩, ⟨"last", .int .w64, true⟩], .tabular⟩

private theorem withLast_valid : withLast.Valid := by
  have hy : (Node.pairs.column "y").Valid :=
    ⟨by simp [Node.children, Node.column, Op.children, Node.pairs_valid], rfl⟩
  have hnow : Node.Valid ⟨.generate .dateNow, .date, .scalar⟩ := ⟨by simp [Node.children, Op.children], rfl⟩
  have htoday : Node.Valid ⟨.truncate .date ⟨.generate .dateNow, .date, .scalar⟩ .day, .date, .scalar⟩ :=
    ⟨by simpa [Node.children, Op.children] using hnow, rfl⟩
  have hlast :
      Node.Valid ⟨.pick .last (Node.pairs.column "x") none [⟨Node.pairs.column "y", true⟩], .int .w64, .scalar⟩ :=
    ⟨by simpa [Node.children, Op.children] using ⟨Node.column_valid, hy⟩, rfl⟩
  refine ⟨?_, rfl⟩
  simpa [withLast, Node.children, Op.children] using ⟨Node.pairs_valid, Node.column_valid, htoday, hlast⟩

/-- The last value is a statement of its own, and the same one in both dialects. -/
theorem compile_of_restricts_withLast :
    daily.Restricts .base ∧ withLast.Valid ∧ ∃ fragment, (ofDialect daily).compile withLast = .ok fragment ∧
      (ofDialect .base).compile withLast = .ok fragment :=
  ⟨daily_restricts, withLast_valid, _, rfl, compile_of_restricts daily_restricts rfl⟩

end Compiler

end SqlPlan
