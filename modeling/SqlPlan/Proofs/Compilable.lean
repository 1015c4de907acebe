import SqlPlan.Compiler.Relation
import SqlPlan.Proofs.Operations
import SqlPlan.Proofs.Typing

/-!
# When compilation succeeds, and why it fails

A node is compiled together with its inputs, their inputs and so on, apart from the relation that a field names.
Compilation succeeds if and only if each of these nodes passes a check of its own: the dialect has the operation with
its unit, mode or order, and there is SQL for the types and values that stand in the operation. The parts of a
statement never disturb each other: whether a part is compiled does not depend on where it stands.

A valid node is refused for one reason only: its dialect has no SQL for an operation or a type. Errors about relations
in the place of values, and the other way round, are never reported, since validity excludes them everywhere in the
tree.
-/

namespace SqlPlan

open Sql

/-! ### Types with a name -/

namespace DataType

mutual

/-- A type and all types nested in it. -/
def parts : DataType → List DataType
  | .primitive p => [.primitive p]
  | .array item => .array item :: item.parts
  | .struct columns => .struct columns :: columnParts columns
  | .map key value => .map key value :: (key.parts ++ value.parts)

def columnParts : List (Column DataType) → List DataType
  | [] => []
  | ⟨_, type, _⟩ :: columns => type.parts ++ columnParts columns

end

end DataType

/-- Whether a family has a word for a type, apart from the types nested in it. -/
def Family.spells : Family → DataType → Bool
  | _, .null | _, .unknown => false
  | family, .map _ _ => family = .duckdb
  | family, .struct _ => family = .ansi || family = .duckdb
  | _, _ => true

namespace Compiler

variable (c : Compiler)

/-- A type has a name if there is a word for it and for all types nested in it. -/
def Nameable (type : DataType) : Prop := ∀ part ∈ type.parts, c.family.spells part = true

private theorem isSome_sqlName? (family : Family) (p : Primitive) :
    (p.sqlName? family).isSome = family.spells (.primitive p) := by
  cases family <;> cases p <;> first | rfl | (rename_i x; cases x <;> rfl)

/-- The dialect of a compiler has no SQL for an operation or a type. -/
inductive Refusal : CompileError → Prop
  | operation (kind : Kind) (reason : UnsupportedReason) : Refusal (.unsupportedOperation c.name kind reason)
  | type (type : DataType) : Refusal (.unsupportedType c.name type)

/-- A step of compilation is taken if and only if `A`, and refused because of the dialect otherwise. -/
abbrev Decides {α : Type} (A : Prop) (x : Except CompileError α) : Prop := Decided c.Refusal A x

mutual

private theorem decides_typeNameAs : ∀ type : DataType, c.Decides (c.Nameable type) (c.typeNameAs c.family type)
  | .primitive p => by
    rw [typeNameAs, Nameable, DataType.parts, List.forall_mem_singleton, ← isSome_sqlName?]
    cases p.sqlName? c.family with
    | some name => exact .ok rfl name
    | none => exact .error (by simp) (.type _)
  | .array item => by
    rw [typeNameAs, Nameable, DataType.parts, List.forall_mem_cons]
    exact (decides_typeNameAs item).bind_pure.congr (and_iff_right (by cases c.family <;> rfl)).symm
  | .struct columns => by
    have hcolumns := decides_columnTypes columns
    rw [Nameable, DataType.parts, List.forall_mem_cons]
    cases hfamily : c.family with
    | ansi | duckdb =>
      rw [hfamily] at hcolumns
      rw [typeNameAs]
      exact hcolumns.bind_pure.congr (and_iff_right rfl).symm
    | postgres | risingwave => exact .error (by simp [Family.spells]) (.type _)
  | .map key value => by
    have hkey := decides_typeNameAs key
    have hvalue := decides_typeNameAs value
    rw [Nameable, DataType.parts, List.forall_mem_cons, List.forall_mem_append, ← Nameable, ← Nameable]
    cases hfamily : c.family with
    | duckdb =>
      rw [typeNameAs]
      exact (hkey.bind fun _ _ => hvalue.bind_pure).congr (and_iff_right rfl).symm
    | ansi | postgres | risingwave => exact .error (by simp [Family.spells]) (.type _)

private theorem decides_columnTypes : ∀ columns : List (Column DataType),
    c.Decides (∀ part ∈ DataType.columnParts columns, c.family.spells part = true) (c.columnTypes columns)
  | [] => .ok (by simp [DataType.columnParts]) []
  | ⟨name, type, _⟩ :: columns => by
    rw [columnTypes, DataType.columnParts, List.forall_mem_append]
    exact (decides_typeNameAs type).bind fun _ _ => (decides_columnTypes columns).bind_pure

end

private theorem nameable_primitive {p : Primitive} (hnull : p ≠ .null) (hunknown : p ≠ .unknown) :
    c.Nameable (.primitive p) := by
  rw [Nameable, DataType.parts, List.forall_mem_singleton]
  cases p <;> first | rfl | contradiction

private theorem nameable_of_isNumeric {type : DataType} (h : type.isNumeric = true) : c.Nameable type := by
  cases type with
  | primitive p => exact c.nameable_primitive (by rintro rfl; cases h) (by rintro rfl; cases h)
  | _ => cases h

private theorem decides_typeName_primitive {p : Primitive} (hnull : p ≠ .null) (hunknown : p ≠ .unknown) :
    c.Decides True (c.typeName (.primitive p)) :=
  (c.decides_typeNameAs _).congr (iff_true_intro (c.nameable_primitive hnull hunknown))

private theorem decides_castTo (e : Expr) (type : DataType) :
    c.Decides (c.Nameable type) (c.handlers.castTo e type) :=
  (c.decides_typeNameAs type).bind_pure

private theorem decides_castTo_of_nameable {type : DataType} (h : c.Nameable type) (e : Expr) :
    c.Decides True (c.handlers.castTo e type) :=
  (c.decides_castTo e type).congr (iff_true_intro h)

private theorem decides_castUnlessNull (e e' : Expr) (type : DataType) :
    c.Decides (type = .null ∨ c.Nameable type) (if type.isNull then pure e else c.handlers.castTo e' type) := by
  split
  · rename_i hnull
    obtain rfl : type = .null := by
      unfold DataType.isNull at hnull
      split at hnull
      · rfl
      · cases hnull
    exact .ok (.inl rfl) e
  · rename_i hnull
    exact (c.decides_castTo e' type).congr (or_iff_right (by rintro rfl; exact hnull rfl)).symm

/-! ### Values with a spelling -/

mutual

/-- There is SQL for a value of a type. -/
def Encodable (c : Compiler) : Value → DataType → Prop
  | .null, type => type = .null ∨ c.Nameable type
  | .int _, .interval unit => (c.dialect.intervalUnits unit).isSome = true
  | .array items, .array item => (items = [] → c.Nameable (.array item)) ∧ AllEncodable c items item
  | _, _ => True

def AllEncodable (c : Compiler) : List Value → DataType → Prop
  | [], _ => True
  | v :: vs, type => Encodable c v type ∧ AllEncodable c vs type

end

/-- The type of a value without parts has a name. -/
private theorem nameable_of_conformsTo {v : Value} {type : DataType} (h : v.conformsTo type = true)
    (hnull : v ≠ .null) (harray : ∀ items, v ≠ .array items) : c.Nameable type := by
  cases type with
  | primitive p =>
    refine c.nameable_primitive ?_ ?_ <;> rintro rfl <;> cases v <;> first | exact absurd rfl hnull | cases h
  | _ => cases v <;> first | exact absurd rfl hnull | exact absurd rfl (harray _) | cases h

/-- The spelling that a family has of its own never fails. -/
private theorem decides_literal_of_common {v : Value} {type : DataType} (hv : v.conformsTo type = true)
    (hcommon : c.Decides (c.Encodable v type) (c.commonLiteral v type)) :
    c.Decides (c.Encodable v type) (c.literal v type) := by
  rcases c.literal_cases v type with ⟨text, rfl, hown⟩ | ⟨bytes, rfl, hown⟩ | hown <;> rw [hown]
  · exact .pure _
  · exact c.decides_castTo_of_nameable (c.nameable_of_conformsTo hv (by simp) (by simp)) _
  · exact hcommon

private theorem decides_number {type : DataType} (n : Int) : c.Decides True (c.handlers.number n type) := by
  unfold Handlers.number
  split
  · rename_i hcast
    refine c.decides_castTo_of_nameable (c.nameable_of_isNumeric ?_) _
    rw [DataType.isNumeric, Bool.or_assoc, hcast, Bool.or_true]
  · exact .pure _

private theorem decides_floatLiteral {type : DataType} (h : c.Nameable type) (x : Float) :
    c.Decides True (c.handlers.floatLiteral x type) := by
  unfold Handlers.floatLiteral
  split
  · exact c.decides_castTo_of_nameable h _
  split
  · exact c.decides_castTo_of_nameable h _
  split
  · exact c.decides_castTo_of_nameable h _
  · exact .pure _

private theorem decides_timestampLiteral (t : Timestamp) (type : DataType) :
    c.Decides True (c.handlers.timestampLiteral t type) := by
  unfold Handlers.timestampLiteral
  split
  · exact c.decides_castTo_of_nameable (c.nameable_primitive (by simp) (by simp)) _
  · exact .pure _

/-- Of the values without parts, only intervals may lack a spelling. -/
private theorem decides_plainLiteral {v : Value} {type : DataType} (h : v.conformsTo type = true)
    (hnull : v ≠ .null) (harray : ∀ items, v ≠ .array items) :
    c.Decides (c.Encodable v type) (c.commonLiteral v type) := by
  have hname := c.nameable_of_conformsTo h hnull harray
  cases v with
  | null => exact absurd rfl hnull
  | array items => exact absurd rfl (harray items)
  | boolean | binary | time => exact .pure _
  | int n =>
    unfold commonLiteral Handlers.commonLiteral
    split
    · rename_i unit
      simp only [Handlers.interval, Encodable]
      cases c.dialect.intervalUnits unit with
      | some keyword => exact .ok rfl _
      | none => exact .error (by simp) (.operation _ _)
    · rename_i hinterval
      refine (c.decides_number _).congr (iff_of_true trivial ?_)
      unfold Encodable
      split <;> simp_all
  | uint n => exact c.decides_number _
  | float x => exact c.decides_floatLiteral hname x
  | decimal | date | json => exact c.decides_castTo_of_nameable hname _
  | string text =>
    unfold commonLiteral Handlers.commonLiteral
    split
    · exact c.decides_castTo_of_nameable hname _
    · exact .pure _
  | timestamp t => exact c.decides_timestampLiteral t type

/-- The elements of an array are spelled one after the other. -/
theorem elementTexts_cons (v : Value) (vs : List Value) (type : DataType) :
    c.handlers.elementTexts (v :: vs) type = do
      let expr ← c.literal v type
      let texts ← c.handlers.elementTexts vs type
      return expr.text :: texts := by
  rw [Handlers.elementTexts, literal, Handlers.literal]
  split <;> rfl

mutual

private theorem decides_commonLiteral : ∀ (v : Value) (type : DataType), v.conformsTo type = true →
    c.Decides (c.Encodable v type) (c.commonLiteral v type)
  | .null, type, _ => c.decides_castUnlessNull _ _ type
  | .array items, type, h => by
    cases type with
    | array item =>
      have hitems : Value.allConformTo items item = true := h
      unfold commonLiteral Handlers.commonLiteral Encodable
      dsimp only
      cases items with
      | nil =>
        rw [if_pos List.isEmpty_nil]
        exact (c.decides_castTo _ _).congr (by simp [AllEncodable])
      | cons v vs =>
        rw [if_neg (by simp)]
        exact (decides_elementTexts (v :: vs) item hitems).bind_pure.congr (by simp)
    | _ => cases h
  | .boolean _, _, h | .int _, _, h | .uint _, _, h | .float _, _, h | .decimal _, _, h | .string _, _, h
  | .binary _, _, h | .date _, _, h | .time _, _, h | .timestamp _, _, h | .json _, _, h =>
    c.decides_plainLiteral h (by simp) (by simp)

private theorem decides_elementTexts : ∀ (vs : List Value) (type : DataType), Value.allConformTo vs type = true →
    c.Decides (c.AllEncodable vs type) (c.handlers.elementTexts vs type)
  | [], _, _ => .ok trivial []
  | v :: vs, type, h => by
    obtain ⟨hv, hvs⟩ := Bool.and_eq_true_iff.1 h
    rw [elementTexts_cons, AllEncodable]
    refine (c.decides_literal_of_common hv (decides_commonLiteral v type hv)).bind fun _ _ => ?_
    exact (decides_elementTexts vs type hvs).bind_pure

end

private theorem decides_literal {v : Value} {type : DataType} (h : v.conformsTo type = true) :
    c.Decides (c.Encodable v type) (c.literal v type) :=
  c.decides_literal_of_common h (c.decides_commonLiteral v type h)

/-! ### Checks of operations -/

/-- What a dialect has to offer for an operation, besides the operation itself. -/
def Offers : Op Node → Prop
  | .literal value type => c.Encodable value type
  | .null type => type = .null ∨ c.Nameable type
  | .cast _ target => target = .null ∨ c.Nameable target
  | .truncate _ _ unit => (c.dialect.truncateUnits unit).isSome = true
  | .interval _ unit => (c.dialect.intervalUnits unit).isSome = true
  | .pick _ _ _ order => order ≠ [] ∨ c.dialect.orderRequired = false
  | .correlate _ _ mode _ => mode ∈ c.dialect.correlationModes
  | _ => True

/-- The check that a node passes on its own, whatever its inputs are. -/
structure Passes (n : Node) : Prop where
  supported : n.kind ∉ c.dialect.unsupported
  offered : c.Offers n.op

/-- All nodes that are compiled with a node pass their checks. -/
def AllPass (n : Node) : Prop := ∀ m, n.LoweredWith m → c.Passes m

private theorem allPass_iff {n : Node} : c.AllPass n ↔ c.Passes n ∧ ∀ k ∈ n.lowered, c.AllPass k :=
  Node.forall_loweredWith

private theorem decides_ensureSupported (kind : Kind) :
    c.Decides (kind ∉ c.dialect.unsupported) (c.dialect.ensureSupported kind) := by
  unfold Dialect.ensureSupported Dialect.supports
  split
  · exact .ok (by simp_all) ()
  · exact .error (by simp_all) (.operation _ _)

private theorem decides_reduction (func : Reduction) (arg : Expr) (type : DataType) (condition : Option Expr) :
    c.Decides True (c.reduction func arg type condition) := by
  have hplain : c.Decides True (c.plainReduction func arg type condition) := by
    unfold plainReduction
    dsimp only
    split
    · exact (c.decides_typeName_primitive (p := .int .w32) (by simp) (by simp)).bind_pure
    · exact .pure _
  unfold reduction reductionAs
  split <;> first | exact .pure _ | exact hplain

private theorem decides_generated (source : Generator) : c.Decides True (c.handlers.generated source) := by
  cases source with
  | dateNow =>
    change c.Decides True c.currentDate
    unfold currentDate
    split
    · exact .pure _
    · exact (c.decides_typeName_primitive (by simp) (by simp)).bind_pure
  | timestampNow | randomUuid => exact .pure _

private theorem decides_truncation (kind : Kind) (e : Expr) (unit : TemporalUnit) :
    c.Decides ((c.dialect.truncateUnits unit).isSome = true) (c.truncation kind e unit) := by
  unfold truncation
  cases c.dialect.truncateUnits unit with
  | some keyword => exact .ok rfl _
  | none => exact .error (by simp) (.operation _ _)

/-- An interval of a table would be a fault of shapes. -/
private theorem decides_intervalOf (e : Expr) {shape : Shape} (h : shape ≠ .tabular) (unit : TemporalUnit) :
    c.Decides ((c.dialect.intervalUnits unit).isSome = true) (c.intervalOf e shape unit) := by
  unfold intervalOf
  cases c.dialect.intervalUnits unit with
  | none => exact .error (by simp) (.operation _ _)
  | some keyword =>
    cases shape with
    | scalar | columnar => exact .ok rfl _
    | tabular => exact absurd rfl h

private theorem decides_ensureOrdered (func : Pick) (order : List (SortKey Node)) :
    c.Decides (order ≠ [] ∨ c.dialect.orderRequired = false) (c.handlers.ensureOrdered func order) := by
  unfold Handlers.ensureOrdered
  cases order <;> cases horder : c.dialect.orderRequired
  case nil.true => exact .error (by simp) (.operation _ _)
  all_goals exact .ok (by simp) ()

private theorem decides_ensureCorrelation (mode : CorrelationMode) :
    c.Decides (mode ∈ c.dialect.correlationModes) (c.handlers.ensureCorrelation mode) := by
  unfold Handlers.ensureCorrelation Dialect.supportsCorrelation
  split
  · exact .ok (by simp_all) ()
  · exact .error (by simp_all) (.operation _ _)

/-- A quotient is a number, and its type has a name. -/
private theorem decides_dividend {op : BinaryOp} {left right type : DataType} (h : op.type? left right = .ok type)
    (e : Expr) : c.Decides True (c.handlers.dividend op left right type e) := by
  unfold Handlers.dividend
  split
  · rename_i hdivide
    obtain ⟨rfl, hleft, hright⟩ := hdivide
    have hnumbers : ((left.isNumeric || left.isNull) && (right.isNumeric || right.isNull)) = true := by
      simp [DataType.isNumeric, hleft, hright]
    have htype : arithmeticType .divide left right = .ok type := h
    rw [arithmeticType, if_pos hnumbers] at htype
    refine c.decides_castTo_of_nameable ?_ e
    split at htype
    · cases htype
    · rename_i promoted _
      obtain rfl := Except.ok.inj htype
      split
      · exact c.nameable_primitive (by simp) (by simp)
      · rename_i hdecimal
        exact c.nameable_of_isNumeric (by simp_all [DataType.isNumeric])
  · exact .pure _

/-! ### Lists of inputs -/

section

variable {scope : Option Select} {A : Node → Prop}

private theorem decides_lowerAll {ns : List Node} (h : ∀ n ∈ ns, c.Decides (A n) (c.lower scope n)) :
    c.Decides (∀ n ∈ ns, A n) (c.lowerAll scope ns) := by
  rw [lowerAll, lowerEach_eq_map]
  exact .collect_map h

private theorem decides_lowerOption {o : Option Node} (h : ∀ m ∈ o.toList, c.Decides (A m) (c.lower scope m)) :
    c.Decides (∀ m ∈ o.toList, A m) (c.lowerOption scope o) := by
  cases o with
  | none => exact .ok (by simp) none
  | some n => exact (h n (by simp)).bind_pure.congr (by simp)

private theorem decides_lowerKeys {keys : List (SortKey Node)}
    (h : ∀ n ∈ keys.map (·.expr), c.Decides (A n) (c.lower scope n)) :
    c.Decides (∀ n ∈ keys.map (·.expr), A n) (c.lowerKeys scope keys) := by
  rw [lowerKeys_eq_collect]
  simp only [List.forall_mem_map] at h ⊢
  exact .collect_map fun key hkey => (h key hkey).map

private theorem decides_lowerNamed {values : List (Named Node)}
    (h : ∀ n ∈ values.map (·.value), c.Decides (A n) (c.lower scope n)) :
    c.Decides (∀ n ∈ values.map (·.value), A n) (c.lowerNamed scope values) := by
  rw [lowerNamed_eq_collect]
  simp only [List.forall_mem_map] at h ⊢
  exact .collect_map fun v hv => (h v hv).map

/-- Where there is a result for every condition, all of them are compiled. -/
private theorem decides_branches {conditions results : List Node} (hlength : conditions.length = results.length)
    (h : ∀ n ∈ conditions ++ results, c.Decides (A n) (c.lower scope n)) :
    c.Decides ((∀ n ∈ conditions, A n) ∧ ∀ n ∈ results, A n)
      (branches (c.lowerEach scope conditions) (c.lowerEach scope results)) := by
  rw [branches_eq_collect, ← forall_mem_zip hlength]
  refine .collect_map fun pair hpair => ?_
  obtain ⟨hcondition, hresult⟩ := List.of_mem_zip hpair
  refine (h _ (List.mem_append_left _ hcondition)).bind fun _ _ => ?_
  exact (h _ (List.mem_append_right _ hresult)).bind_pure

end

/-! ### Values -/

/-- A value is compiled in any scope if and only if all nodes that are compiled with it pass their checks. -/
theorem decides_lower {n : Node} (hn : n.Valid) (hvalue : n.isRelation = false) (scope : Option Select) :
    c.Decides (c.AllPass n) (c.lower scope n) := by
  induction n using Node.induction generalizing scope with
  | step n ih =>
    have hinputs := hn.inputs_isRelation.2
    have htype := hn.hasType
    have hkind : n.op.isRelation = false := n.op.isRelation_kind.symm.trans (hn.isRelation_eq.symm.trans hvalue)
    obtain ⟨op, type, shape⟩ := n
    have ih : ∀ scope, ∀ m ∈ op.arguments, c.Decides (c.AllPass m) (c.lower scope m) := by
      intro scope m hm
      exact ih m (Op.mem_children.2 (.inr hm)) (hn.argument hm) (hinputs m hm) scope
    rw [allPass_iff, lower_eq]
    -- the kind is checked first, and what is left is up to the operation
    suffices hop : c.Decides (c.Offers op ∧ ∀ k ∈ Node.lowered ⟨op, type, shape⟩, c.AllPass k)
        (c.lowerOp scope type op) by
      refine ((c.decides_ensureSupported op.kind).bind fun _ _ => hop).congr (and_assoc.symm.trans ?_)
      exact and_congr_left' ⟨fun h => ⟨h.1, h.2⟩, fun h => ⟨h.1, h.2⟩⟩
    cases op with
    | literal value type =>
      obtain ⟨-, hconforms, -⟩ := htype
      exact (c.decides_literal hconforms).congr (by simp [Offers, Node.lowered, Op.children])
    | null type =>
      exact (c.decides_castUnlessNull _ _ type).congr (by simp [Offers, Node.lowered, Op.children])
    | field relation name => exact .ok (by simp [Offers, Node.lowered]) _
    | generate source => exact (c.decides_generated source).congr (by simp [Offers, Node.lowered, Op.children])
    | cast arg target =>
      refine ((ih scope arg (by simp [Op.arguments, Op.children])).bind fun e _ =>
        c.decides_castUnlessNull e e target).congr ?_
      simp [Offers, Node.lowered, Op.children, and_comm]
    | binary op left right =>
      refine ((ih scope left (by simp [Op.arguments, Op.children])).bind fun e _ =>
        (ih scope right (by simp [Op.arguments, Op.children])).bind fun f _ =>
          (c.decides_dividend htype e).bind_pure).congr ?_
      simp [Offers, Node.lowered, Op.children]
    | unary op arg =>
      refine (ih scope arg (by simp [Op.arguments, Op.children])).bind_pure.congr ?_
      simp [Offers, Node.lowered, Op.children]
    | simpleCase base conditions results default =>
      obtain ⟨⟨-, hlength⟩, -⟩ := htype
      have hbranches := c.decides_branches hlength fun m hm =>
        ih scope m (List.mem_cons_of_mem _ (List.mem_append_left _ hm))
      refine ((ih scope base (by simp [Op.arguments, Op.children])).bind fun _ _ => hbranches.bind fun _ _ =>
        (ih scope default (by simp [Op.arguments, Op.children])).bind_pure).congr ?_
      simp [Offers, Node.lowered, Op.children, or_imp, forall_and, and_assoc]
    | searchedCase conditions results default =>
      obtain ⟨⟨-, hlength⟩, -⟩ := htype
      have hbranches := c.decides_branches hlength fun m hm => ih scope m (List.mem_append_left _ hm)
      refine (hbranches.bind fun _ _ =>
        (ih scope default (by simp [Op.arguments, Op.children])).bind_pure).congr ?_
      simp [Offers, Node.lowered, Op.children, or_imp, forall_and, and_assoc]
    | truncate clock arg unit =>
      refine ((ih scope arg (by simp [Op.arguments, Op.children])).bind fun e _ =>
        c.decides_truncation clock.kind e unit).congr ?_
      simp [Offers, Node.lowered, Op.children, and_comm]
    | dateFromYmd year month day =>
      refine ((ih scope year (by simp [Op.arguments, Op.children])).bind fun _ _ =>
        (ih scope month (by simp [Op.arguments, Op.children])).bind fun _ _ =>
          (ih scope day (by simp [Op.arguments, Op.children])).bind_pure).congr ?_
      simp [Offers, Node.lowered, Op.children]
    | interval arg unit =>
      have hshape : arg.shape ≠ .tabular := by
        simpa [Node.isRelation] using hinputs arg (by simp [Op.arguments, Op.children])
      refine ((ih scope arg (by simp [Op.arguments, Op.children])).bind fun e _ =>
        c.decides_intervalOf e hshape unit).congr ?_
      simp [Offers, Node.lowered, Op.children, and_comm]
    -- the inputs of reductions have no scope
    | reduce func arg condition =>
      have hcondition := c.decides_lowerOption fun m hm => ih none m (List.mem_cons_of_mem _ hm)
      refine ((ih none arg (by simp [Op.arguments, Op.children])).bind fun e _ => hcondition.bind fun w _ =>
        (c.decides_reduction func e arg.type w).bind_pure).congr ?_
      simp [Offers, Node.lowered, Op.children]
    | pick func arg condition order =>
      have hcondition := c.decides_lowerOption fun m hm =>
        ih none m (List.mem_cons_of_mem _ (List.mem_append_left _ hm))
      have horder := c.decides_lowerKeys fun m hm => ih none m (List.mem_cons_of_mem _ (List.mem_append_right _ hm))
      refine ((c.decides_ensureOrdered func order).bind fun _ _ =>
        (ih none arg (by simp [Op.arguments, Op.children])).bind fun _ _ => hcondition.bind fun _ _ =>
          horder.bind_pure).congr ?_
      simp [Offers, Node.lowered, Op.children, or_imp, forall_and]
    | correlate left right mode condition =>
      have hcondition := c.decides_lowerOption fun m hm =>
        ih none m (List.mem_cons_of_mem _ (List.mem_cons_of_mem _ hm))
      refine ((c.decides_ensureCorrelation mode).bind fun _ _ =>
        (ih none left (by simp [Op.arguments, Op.children])).bind fun _ _ =>
          (ih none right (by simp [Op.arguments, Op.children])).bind fun _ _ => hcondition.bind_pure).congr ?_
      simp [Offers, Node.lowered, Op.children]
    | table | project | filter | aggregate | sort | limit => cases hkind

/-! ### Relations -/

/-- An operation on a relation asks for nothing but the operation itself. -/
private theorem allPass_of_relation (op : Op Node) {parent : Node} {type : DataType} {shape : Shape}
    (hoffers : c.Offers op) (hlowered : Node.lowered ⟨op, type, shape⟩ = parent :: op.arguments) :
    op.kind ∉ c.dialect.unsupported ∧ c.AllPass parent ∧ (∀ m ∈ op.arguments, c.AllPass m) ↔
      c.AllPass ⟨op, type, shape⟩ := by
  rw [c.allPass_iff (n := ⟨op, type, shape⟩), hlowered, List.forall_mem_cons]
  exact and_congr_left' ⟨fun h => ⟨h, hoffers⟩, fun h => h.supported⟩

/-- A relation is compiled if and only if all nodes that are compiled with it pass their checks. -/
theorem decides_lowerRelation {n : Node} (hn : n.Valid) (hrelation : n.isRelation = true) :
    c.Decides (c.AllPass n) (c.lowerRelation n) := by
  induction n using Node.induction with
  | step n ih =>
    have hinputs := hn.inputs_isRelation
    have hkind : n.op.isRelation = true := n.op.isRelation_kind.symm.trans (hn.isRelation_eq.symm.trans hrelation)
    obtain ⟨op, type, shape⟩ := n
    have hparent : ∀ r ∈ op.relation?, c.Decides (c.AllPass r) (c.lowerRelation r) := by
      intro r hr
      exact ih r (Op.mem_children.2 (.inl hr)) (hn.relation hr) (hinputs.1 r hr)
    have hvalue : ∀ scope, ∀ m ∈ op.arguments, c.Decides (c.AllPass m) (c.lower scope m) :=
      fun scope m hm => c.decides_lower (hn.argument hm) (hinputs.2 m hm) scope
    have hsupported := c.decides_ensureSupported op.kind
    cases op with
    | table name schema =>
      rw [lowerRelation, allPass_iff]
      refine hsupported.bind_pure.congr ?_
      exact ⟨fun h => ⟨⟨h, trivial⟩, by simp [Node.lowered, Op.children]⟩, fun h => h.1.supported⟩
    | project parent values =>
      rw [lowerRelation, ← c.allPass_of_relation (.project parent values) trivial rfl]
      refine hsupported.bind fun _ _ => (hparent parent rfl).bind fun s _ => ?_
      exact (c.decides_lowerNamed (hvalue _)).bind_pure
    | filter parent predicates =>
      rw [lowerRelation, ← c.allPass_of_relation (.filter parent predicates) trivial rfl]
      refine hsupported.bind fun _ _ => (hparent parent rfl).bind fun s _ => ?_
      refine ((c.decides_lowerAll (hvalue _)).bind fun es _ => ?_).congr (and_iff_left True.intro)
      split <;> exact .pure _
    | aggregate parent groups metrics =>
      simp only [Op.arguments, List.map_append, List.mem_append] at hvalue
      have hgroups := c.decides_lowerNamed fun m hm => hvalue none m (.inl hm)
      have hmetrics := c.decides_lowerNamed fun m hm => hvalue none m (.inr hm)
      rw [lowerRelation, ← c.allPass_of_relation (.aggregate parent groups metrics) trivial rfl]
      refine hsupported.bind fun _ _ => (hparent parent rfl).bind fun s _ => ?_
      refine (hgroups.bind fun _ _ => hmetrics.bind_pure).congr ?_
      rw [Op.arguments, List.map_append, List.forall_mem_append]
    | sort parent keys =>
      rw [lowerRelation, ← c.allPass_of_relation (.sort parent keys) trivial rfl]
      refine hsupported.bind fun _ _ => (hparent parent rfl).bind fun s _ => ?_
      exact (c.decides_lowerKeys (hvalue none)).bind_pure
    | limit parent count offset =>
      rw [lowerRelation, ← c.allPass_of_relation (.limit parent count offset) trivial rfl]
      refine hsupported.bind fun _ _ => (hparent parent rfl).bind_pure.congr ?_
      simp [Op.arguments]
    | _ => cases hkind

private theorem decides_compile {n : Node} (hn : n.Valid) : c.Decides (c.AllPass n) (c.compile n) := by
  unfold compile
  split
  · rename_i hrelation
    exact (c.decides_lowerRelation hn hrelation).map
  · rename_i hvalue
    exact (c.decides_lower hn (by simpa using hvalue) none).map

/-- Compilation succeeds if and only if every node that is compiled passes its own check. -/
theorem compile_succeeds_iff {n : Node} (hn : n.Valid) :
    (∃ fragment, c.compile n = .ok fragment) ↔ ∀ m, n.LoweredWith m → c.Passes m :=
  (c.decides_compile hn).succeeds_iff

/-- The first value of `x` in no particular order. -/
def anyFirst : Node := ⟨.pick .first (Node.pairs.column "x") none [], .int .w64, .scalar⟩

/-- A first value without an order passes its check, unless the dialect needs an order. -/
theorem compile_succeeds_iff_anyFirst :
    anyFirst.Valid ∧ (∃ fragment, postgres.compile anyFirst = .ok fragment) ∧
      (∀ m, anyFirst.LoweredWith m → postgres.Passes m) ∧ ¬∀ m, anyFirst.LoweredWith m → risingwave.Passes m := by
  have hvalid : anyFirst.Valid := ⟨by simp [anyFirst, Node.children, Op.children, Node.column_valid], rfl⟩
  have hcompile : ∃ fragment, postgres.compile anyFirst = .ok fragment := ⟨_, rfl⟩
  refine ⟨hvalid, hcompile, (postgres.compile_succeeds_iff hvalid).1 hcompile, ?_⟩
  intro hpasses
  obtain ⟨fragment, hfragment⟩ := (risingwave.compile_succeeds_iff hvalid).2 hpasses
  cases hfragment

/-- Compilation fails only because the dialect has no SQL for an operation or a type, and the error names the dialect.
In particular it never reports a fault of shapes or a dialect that is not known. -/
theorem compile_refusal {n : Node} (hn : n.Valid) {e : CompileError} (h : c.compile n = .error e) :
    (∃ kind reason, e = .unsupportedOperation c.name kind reason) ∨ ∃ type, e = .unsupportedType c.name type := by
  cases (c.decides_compile hn).of_eq_error h with
  | operation kind reason => exact .inl ⟨kind, reason, rfl⟩
  | type type => exact .inr ⟨type, rfl⟩

/-- The rows of `pairs` in which `x` is less than a first value of `x`, in no particular order. -/
def belowFirst : Node :=
  let less : Node := ⟨.binary .less (Node.pairs.column "x") anyFirst, .boolean, .columnar⟩
  ⟨.filter Node.pairs [less], Node.pairs.type, .tabular⟩

/-- The first value is refused inside of a statement for it. -/
theorem compile_refusal_belowFirst :
    belowFirst.Valid ∧ ∃ e, risingwave.compile belowFirst = .error e ∧
      ((∃ kind reason, e = .unsupportedOperation risingwave.name kind reason) ∨
        ∃ type, e = .unsupportedType risingwave.name type) := by
  have hfirst : anyFirst.Valid := ⟨by simp [anyFirst, Node.children, Op.children, Node.column_valid], rfl⟩
  have hless : Node.Valid ⟨.binary .less (Node.pairs.column "x") anyFirst, .boolean, .columnar⟩ :=
    ⟨by simp [Node.children, Op.children, Node.column_valid, hfirst], rfl⟩
  have hvalid : belowFirst.Valid :=
    ⟨by simp [belowFirst, Node.children, Op.children, Node.pairs_valid, hless], rfl⟩
  exact ⟨hvalid, _, rfl, risingwave.compile_refusal hvalid rfl⟩

end Compiler

end SqlPlan
