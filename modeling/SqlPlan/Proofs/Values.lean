import SqlPlan.Proofs.Clauses
import SqlPlan.Proofs.Compilable

/-!
# Compiled values

What statements about all compiled values start from.

* `literal_spelling`: the literal of a value is a text, a cast of a text or an interval, whatever the dialect.
* `lower_reduction`, `lower_isReduction`: a reduction is compiled to the call of an aggregate, and in a scope to a
  statement for this call.
* `lower_closes`: what holds of an expression whenever it holds of its operands holds of every compiled value, if it
  holds of columns and reductions.
* `lower_iff`: what holds of an expression if and only if it holds of its operands holds of a compiled value if and
  only if a property of the value holds.
-/

namespace SqlPlan

open Sql

/-! ### Operands -/

namespace Sql

/-- The expressions in a call. -/
def Call.operands (function : Call Expr) : List Expr :=
  function.args ++ function.order.map (·.expr) ++ function.within.map (·.expr) ++ function.filter.toList

/-- The operands of a call, by its clauses. -/
theorem Call.forall_mem_operands {P : Expr → Prop} {function : Call Expr} :
    (∀ k ∈ function.operands, P k) ↔
      (∀ k ∈ function.args, P k) ∧ (∀ key ∈ function.order, P key.expr) ∧ (∀ key ∈ function.within, P key.expr) ∧
        ∀ k ∈ function.filter, P k := by
  simp only [operands, List.forall_mem_append, List.forall_mem_map, Option.mem_toList, Option.mem_def, and_assoc]

namespace Expr

/-- The expressions that an expression is put together from. A statement for a single value counts as a whole. -/
def operands : Expr → List Expr
  | .star | .column _ | .literal _ | .keyword _ | .subquery _ => []
  | .cast expr _ | .not expr | .negate expr | .isNull expr _ | .interval expr _ | .subscript expr _ => [expr]
  | .binary left _ right => [left, right]
  | .call function => function.operands
  | .case operand branches default =>
    operand.toList ++ branches.flatMap (fun branch => [branch.condition, branch.result]) ++ default.toList

/-- The operands of a case, by its parts. -/
theorem forall_mem_operands_case {P : Expr → Prop} {operand default : Option Expr} {branches : List (Branch Expr)} :
    (∀ k ∈ (Expr.case operand branches default).operands, P k) ↔
      (∀ k ∈ operand, P k) ∧ (∀ b ∈ branches, P b.condition ∧ P b.result) ∧ ∀ k ∈ default, P k := by
  simp only [operands, List.forall_mem_append, List.forall_mem_flatMap, List.forall_mem_cons, List.not_mem_nil,
    IsEmpty.forall_iff, implies_true, and_true, Option.mem_toList, Option.mem_def, and_assoc]

/-- Whether an expression stands for something outside of it: a column, or the value of a statement. -/
def isReference : Expr → Bool
  | .column _ | .subquery _ => true
  | _ => false

/-- Whether an expression is the call of an aggregate. -/
def isAggregate : Expr → Bool
  | .call function => aggregateNames.contains function.name
  | _ => false

def isInterval : Expr → Bool
  | .interval _ _ => true
  | _ => false

/-- The expressions in the call of a reduction's aggregate. -/
def reduced : Expr → List Expr
  | .subscript (.call function) _ => function.operands
  | e => e.operands

/-- What holds of predicates and of two predicates together holds of their conjunction. -/
theorem forall_mem_conjunction {P : Expr → Prop}
    (hand : ∀ {left right}, P left → P right → P (.binary left "AND" right)) {es : List Expr} (h : ∀ e ∈ es, P e) :
    ∀ e ∈ conjunction es, P e := by
  have hfold : ∀ (es : List Expr) (e : Expr), P e → (∀ k ∈ es, P k) →
      P (es.foldl (fun left right => .binary left "AND" right) e) := by
    intro es
    induction es with
    | nil => exact fun e he _ => he
    | cons k es ih =>
      intro e he hes
      obtain ⟨hk, hes⟩ := List.forall_mem_cons.1 hes
      exact ih _ (hand he hk) hes
  cases es with
  | nil => simp [conjunction]
  | cons e es =>
    obtain ⟨he, hes⟩ := List.forall_mem_cons.1 h
    simpa [conjunction] using hfold es e he hes

end Expr

end Sql

/-! ### Literals -/

namespace Compiler

variable (c : Compiler)

/-- A value is spelled as a text, which may be cast, or as an interval of a number of units. -/
inductive Spelling : Expr → Prop
  | literal (text : String) : Spelling (.literal text)
  | cast (text target : String) : Spelling (.cast (.literal text) target)
  | interval (n : Int) (unit : String) : Spelling (.interval (.literal (toString n)) unit)

private theorem castTo_spelling (text : String) (type : DataType) :
    Returns Spelling (c.handlers.castTo (.literal text) type) :=
  (Returns.trivial _).bind fun target _ => Returns.ok (.cast text target)

/-- A null is spelled as a value. -/
theorem nullLiteral_spelling (type : DataType) : Returns Spelling (c.handlers.nullLiteral type) := by
  unfold Handlers.nullLiteral
  split
  · exact Returns.ok (.literal _)
  · exact c.castTo_spelling _ type

private theorem commonLiteral_spelling (value : Value) (type : DataType) :
    Returns Spelling (c.commonLiteral value type) := by
  have hnumber : ∀ n, Returns Spelling (c.handlers.number n type) := by
    intro n
    unfold Handlers.number
    split
    · exact c.castTo_spelling _ type
    · exact Returns.ok (.literal _)
  cases value with
  | null => exact c.nullLiteral_spelling type
  | int n =>
    unfold commonLiteral Handlers.commonLiteral
    split
    · unfold Handlers.interval
      split
      · exact Returns.ok (.interval _ _)
      · exact Returns.error _
    · exact hnumber _
  | uint n => exact hnumber _
  | float x =>
    unfold commonLiteral Handlers.commonLiteral Handlers.floatLiteral
    split
    · exact c.castTo_spelling _ type
    split
    · exact c.castTo_spelling _ type
    split
    · exact c.castTo_spelling _ type
    · exact Returns.ok (.literal _)
  | decimal text | date d | json text => exact c.castTo_spelling _ type
  | string text =>
    unfold commonLiteral Handlers.commonLiteral
    split
    · exact c.castTo_spelling _ _
    · exact Returns.ok (.literal _)
  | boolean b | binary bytes | time t => exact Returns.ok (.literal _)
  | timestamp t =>
    unfold commonLiteral Handlers.commonLiteral Handlers.timestampLiteral
    split
    · exact c.castTo_spelling _ _
    · exact Returns.ok (.literal _)
  | array items =>
    unfold commonLiteral Handlers.commonLiteral
    split
    · split
      · exact c.castTo_spelling _ _
      · exact (Returns.trivial _).bind fun texts _ => Returns.ok (.literal _)
    · exact Returns.error _

/-- Every literal is spelled as a value. -/
theorem literal_spelling (value : Value) (type : DataType) : Returns Spelling (c.literal value type) := by
  rcases c.literal_cases value type with ⟨text, -, hown⟩ | ⟨bytes, -, hown⟩ | hown <;> rw [hown]
  · exact Returns.ok (.literal _)
  · exact c.castTo_spelling _ type
  · exact c.commonLiteral_spelling value type

/-! ### Reductions -/

/-- A condition does not change the name of an aggregate. -/
theorem name_aggregate (d : Dialect) (name : String) (args : List Expr) (condition : Option Expr) :
    (d.aggregate name args condition).name = name := by
  cases condition with
  | none => rfl
  | some condition =>
    simp only [Dialect.aggregate]
    split <;> rfl

section

variable (name : String) (args : List Expr) (condition : Option Expr)

@[simp] theorem order_aggregate (d : Dialect) : (d.aggregate name args condition).order = [] := by
  cases condition with
  | none => rfl
  | some condition =>
    simp only [Dialect.aggregate]
    split <;> rfl

@[simp] theorem within_aggregate (d : Dialect) : (d.aggregate name args condition).within = [] := by
  cases condition with
  | none => rfl
  | some condition =>
    simp only [Dialect.aggregate]
    split <;> rfl

/-- A condition of an aggregate is one of the expressions that it is made of. -/
theorem filter_aggregate (d : Dialect) :
    ∀ k ∈ (d.aggregate name args condition).filter, k ∈ args ++ condition.toList := by
  cases condition with
  | none => simp [Dialect.aggregate]
  | some condition =>
    simp only [Dialect.aggregate]
    split <;> simp

end

theorem aggregate_eq (name : String) (args : List Expr) (condition : Option Expr) :
    { c.dialect.aggregate name args condition with order := [] } = c.dialect.aggregate name args condition := by
  rw [← order_aggregate name args condition c.dialect]

/-- The name of every reduction is one of an aggregate. -/
theorem contains_sqlName (func : Reduction) : aggregateNames.contains func.sqlName = true := by
  cases func <;> decide

/-- A reduction is compiled to a call of an aggregate. -/
theorem reduction_isReduction (func : Reduction) (arg : Expr) (type : DataType) (condition : Option Expr) :
    Returns (fun e => e.isReduction = true) (c.reduction func arg type condition) := by
  have hplain : Returns (fun e => e.isReduction = true) (c.plainReduction func arg type condition) := by
    have hcall : ∀ arg, (Expr.call (c.dialect.aggregate func.sqlName [arg] condition)).isReduction = true := by
      intro arg
      rw [Expr.isReduction, name_aggregate]
      exact contains_sqlName func
    unfold plainReduction
    dsimp only
    split
    · exact (Returns.trivial _).bind fun name _ => Returns.ok (hcall _)
    · exact Returns.ok (hcall _)
  have hmode : (c.modeOfGroup arg condition).isReduction = true := by
    rw [modeOfGroup, Expr.isReduction, name_aggregate]
    decide
  unfold reduction reductionAs
  split
  · exact Returns.ok hmode
  · exact Returns.ok hmode
  · exact hplain

/-- A first or last value is compiled to a reduction. -/
theorem pick_isReduction (func : Pick) (arg : Expr) (condition : Option Expr) (order : List (SortKey Expr)) :
    (c.pick func arg condition order).isReduction = true := by
  unfold pick pickAs
  cases c.family <;> cases func <;> simp only [Expr.isReduction, name_aggregate] <;> decide

/-- A correlation is compiled to a reduction. -/
theorem correlation_isReduction (left right : Expr) (condition : Option Expr) :
    (c.correlation left right condition).isReduction = true := by
  rw [correlation, Expr.isReduction, name_aggregate]
  decide

/-- A reduction by itself is compiled to the call of an aggregate. -/
theorem lower_isReduction {n : Node} (h : n.op.isReduction = true) :
    Returns (fun e => e.isReduction = true) (c.lower none n) := by
  intro e he
  cases makes_of_lower he with
  | reduce _ _ hcall => exact c.reduction_isReduction _ _ _ _ _ hcall
  | pick => exact c.pick_isReduction _ _ _ _
  | correlate => exact c.correlation_isReduction _ _ _
  | _ => cases h

/-- A reduction in a scope is a statement for its value without a scope. -/
theorem lower_reduction {n : Node} (h : n.op.isReduction = true) (scope : Option Select) :
    c.lower scope n = (c.lower none n).map (·.inScope scope) := by
  obtain ⟨op, type, shape⟩ := n
  rw [lower_eq, lower_eq, map_bind_eq, c.lowerOp_reduction h scope]

end Compiler

/-! ### Properties that operands pass on -/

namespace Compiler

variable {c : Compiler}

section

variable {P : Expr → Prop}
  (hP : ∀ e : Expr, e.isReference = false → e.isAggregate = false → e.isInterval = false →
    (∀ k ∈ e.operands, P k) → P e)

include hP

private theorem literal_closes (text : String) : P (.literal text) := hP _ rfl rfl rfl (by simp [Expr.operands])

/-- A property that passes from operands to what is made of them is one of all spellings. -/
theorem Spelling.closes (hinterval : ∀ e unit, P e → P (.interval e unit)) {e : Expr} (h : Spelling e) : P e := by
  cases h with
  | literal text => exact literal_closes hP text
  | cast text => exact hP _ rfl rfl rfl (by simpa [Expr.operands] using literal_closes hP text)
  | interval n unit => exact hinterval _ unit (literal_closes hP _)

private theorem apply_closes {name : String} (hname : aggregateNames.contains name = false) {es : List Expr}
    (hes : ∀ e ∈ es, P e) : P (.apply name es) :=
  hP _ rfl hname rfl (by simpa [Expr.apply, Expr.operands, Call.operands] using hes)

private theorem castTo_closes {e : Expr} (he : P e) (type : DataType) : Returns P (c.handlers.castTo e type) :=
  (Returns.trivial _).bind fun _ _ => Returns.ok (hP _ rfl rfl rfl (by simpa [Expr.operands] using he))

private theorem nullLiteral_closes (type : DataType) : Returns P (c.handlers.nullLiteral type) := by
  unfold Handlers.nullLiteral
  split
  · exact Returns.ok (literal_closes hP _)
  · exact castTo_closes hP (literal_closes hP _) type

private theorem generated_closes (source : Generator) : Returns P (c.handlers.generated source) := by
  have hkeyword : ∀ text, P (.keyword text) := fun text => hP _ rfl rfl rfl (by simp [Expr.operands])
  intro e he
  rcases c.generated_cases he with ⟨text, -, rfl⟩ | ⟨name, -, rfl⟩ | ⟨name, hname, rfl⟩
  · exact hkeyword text
  · exact hP _ rfl rfl rfl (by simpa [Expr.operands] using hkeyword _)
  · have hnames : ∀ name ∈ ["UUID", "GEN_RANDOM_UUID"], aggregateNames.contains name = false := by decide
    exact apply_closes hP (hnames name hname) (by simp)

omit hP in
private theorem contains_stringLength : ∀ name ∈ ["LENGTH", "CHAR_LENGTH"], aggregateNames.contains name = false := by
  decide

private theorem unary_closes {e : Expr} (he : P e) (op : UnaryOp) : P (c.handlers.unary op e) := by
  have hargs : ∀ k ∈ [e], P k := by simpa using he
  cases op with
  | stringLength =>
    obtain ⟨name, hname, hlength⟩ := c.exists_stringLength
    rw [hlength]
    exact apply_closes hP (contains_stringLength name hname) hargs
  | lowercase | uppercase => exact apply_closes hP (by decide) hargs
  | not | negate | isNull | notNull => exact hP _ rfl rfl rfl hargs

private theorem truncation_closes {e : Expr} (he : P e) (kind : Kind) (unit : TemporalUnit) :
    Returns P (c.truncation kind e unit) := by
  unfold truncation
  split
  · exact Returns.ok (apply_closes hP (by decide) (by simpa using ⟨literal_closes hP _, he⟩))
  · exact Returns.error _

private theorem intervalOf_closes (hinterval : ∀ e unit, P e → P (.interval e unit)) {e : Expr} (he : P e)
    (shape : Shape) (unit : TemporalUnit) : Returns P (c.intervalOf e shape unit) := by
  unfold intervalOf
  split
  · exact Returns.error _
  · split
    · exact Returns.ok (hinterval e _ he)
    · have hunit := fun keyword => hinterval _ keyword (literal_closes hP "1")
      exact Returns.ok (hP _ rfl rfl rfl (by simpa [Expr.operands] using ⟨he, hunit _⟩))
    · exact Returns.error _

private theorem dividend_closes {e : Expr} (he : P e) (op : BinaryOp) (left right type : DataType) :
    Returns P (c.handlers.dividend op left right type e) := by
  unfold Handlers.dividend
  split
  · exact castTo_closes hP he type
  · exact Returns.ok he

private theorem case_closes {operand : Option Expr} {bs : List (Branch Expr)} {default : Expr}
    (hoperand : ∀ k ∈ operand, P k) (hbranches : ∀ b ∈ bs, P b.condition ∧ P b.result) (hdefault : P default) :
    P (.case operand bs (some default)) :=
  hP _ rfl rfl rfl (Expr.forall_mem_operands_case.2 ⟨hoperand, hbranches, by simpa using hdefault⟩)

end

/-- A property that operands pass on holds of a compiled value if it holds of the fields and the reductions in it. -/
theorem lower_closes {P : Expr → Prop} {scope : Option Select} {H : Node → Prop}
    (operands : ∀ e : Expr, e.isReference = false → e.isAggregate = false → (∀ k ∈ e.operands, P k) → P e)
    (inherited : ∀ n : Node, H n → n.op.isReduction = false → n.op.isRelation = false → ∀ m ∈ n.lowered, H m)
    (field : ∀ relation name type shape, H ⟨.field relation name, type, shape⟩ → P (.column name))
    (reduction : ∀ n e, H n → n.op.isReduction = true → (∀ m ∈ n.lowered, H m → Returns P (c.lower scope m)) →
      c.lower none n = .ok e → P (e.inScope scope))
    (n : Node) (hn : H n) : Returns P (c.lower scope n) := by
  have hP := fun (e : Expr) href hcall (_ : e.isInterval = false) => operands e href hcall
  have hinterval : ∀ (e : Expr) (unit : String), P e → P (.interval e unit) :=
    fun e unit he => operands _ rfl rfl (by simpa [Expr.operands] using he)
  induction n using Node.induction with
  | step n ih =>
    have hinput : ∀ m ∈ n.lowered, H m → Returns P (c.lower scope m) :=
      fun m hm => ih m (Node.mem_children_of_mem_lowered hm)
    intro e he
    cases hreduction : n.op.isReduction with
    | true =>
      rw [c.lower_reduction hreduction] at he
      obtain ⟨call, hcall, rfl⟩ := map_eq_ok.1 he
      exact reduction n call hn hreduction hinput hcall
    | false =>
      -- the inputs of all other operations are in the same scope, so that the induction is about them
      have hmakes := makes_of_lower he
      have hvalue := hmakes.isRelation_eq
      replace hmakes := hmakes.mono (J := fun scope' _ k => scope' = scope → P k) fun scope' m k hk => by
        rintro rfl
        exact hinput m hk.1 (inherited n hn hreduction hvalue m hk.1) k hk.2
      clear he
      cases hmakes with
      | literal he => exact (c.literal_spelling _ _ _ he).closes hP hinterval
      | null he => exact nullLiteral_closes hP _ _ he
      | field => exact field _ _ _ _ hn
      | generate he => exact generated_closes hP _ _ he
      | castNull _ he => exact he rfl
      | cast he hf => exact castTo_closes hP (he rfl) _ _ hf
      | binary he hf hd =>
        have hd := dividend_closes hP (he rfl) _ _ _ _ _ hd
        exact hP _ rfl rfl rfl (by simpa [Expr.operands] using ⟨hd, hf rfl⟩)
      | unary he => exact unary_closes hP (he rfl) _
      | simpleCase he hbs hd =>
        exact case_closes hP (by simpa using he rfl)
          (forall_mem_of_forall₂ (hbs.imp fun _ _ hb => ⟨hb.1 rfl, hb.2 rfl⟩)) (hd rfl)
      | searchedCase hbs hd =>
        exact case_closes hP (by simp)
          (forall_mem_of_forall₂ (hbs.imp fun _ _ hb => ⟨hb.1 rfl, hb.2 rfl⟩)) (hd rfl)
      | truncate he hf => exact truncation_closes hP (he rfl) _ _ _ hf
      | dateFromYmd hy hm hd => exact apply_closes hP (by decide) (by simpa using ⟨hy rfl, hm rfl, hd rfl⟩)
      | interval he hf => exact intervalOf_closes hP hinterval (he rfl) _ _ _ hf
      | reduce | pick | correlate => cases hreduction

end Compiler

/-! ### What reductions take in -/

namespace Compiler

section

variable {c : Compiler} {P : Expr → Prop} {H : Node → Prop}
  (hP : ∀ e : Expr, e.isReference = false → e.isAggregate = false → e.isInterval = false →
    (P e ↔ ∀ k ∈ e.operands, P k))

include hP

/-- A condition goes to `FILTER` or into the arguments. -/
private theorem aggregate_inputs_iff (name : String) {args : List Expr} (hargs : args ≠ [])
    (condition : Option Expr) :
    (∀ k ∈ (c.dialect.aggregate name args condition).args, P k) ∧
      (∀ k ∈ (c.dialect.aggregate name args condition).filter, P k) ↔
    (∀ k ∈ args, P k) ∧ ∀ k ∈ condition, P k := by
  cases condition with
  | none => rfl
  | some condition =>
    simp only [Dialect.aggregate]
    split
    · rfl
    · obtain ⟨arg, args, rfl⟩ := List.exists_cons_of_ne_nil hargs
      have hcase : ∀ arg, P (.case none [⟨condition, arg⟩] none) ↔ P condition ∧ P arg := by
        intro arg
        rw [hP _ rfl rfl rfl, Expr.forall_mem_operands_case]
        simp
      simp only [List.forall_mem_map, hcase, Option.mem_def, reduceCtorEq, Option.some.injEq, forall_eq']
      constructor
      · rintro ⟨hall, -⟩
        exact ⟨fun k hk => (hall k hk).2, (hall arg (by simp)).1⟩
      · rintro ⟨hall, hcondition⟩
        exact ⟨fun k hk => ⟨hcondition, hall k hk⟩, by simp⟩

/-- The call of an aggregate takes in its arguments, its condition and its order, in whatever way the dialect writes
them. -/
private theorem aggregate_iff (name : String) {args : List Expr} (hargs : args ≠ []) (condition : Option Expr)
    (order : List (SortKey Expr)) :
    (∀ k ∈ Call.operands { c.dialect.aggregate name args condition with order }, P k) ↔
      (∀ k ∈ args, P k) ∧ (∀ k ∈ condition, P k) ∧ ∀ key ∈ order, P key.expr := by
  have hinputs := aggregate_inputs_iff (c := c) hP name hargs condition
  rw [Call.forall_mem_operands, within_aggregate]
  constructor
  · rintro ⟨hcall, horder, -, hfilter⟩
    obtain ⟨hargs, hcondition⟩ := hinputs.1 ⟨hcall, hfilter⟩
    exact ⟨hargs, hcondition, horder⟩
  · rintro ⟨hargs, hcondition, horder⟩
    obtain ⟨hcall, hfilter⟩ := hinputs.2 ⟨hargs, hcondition⟩
    exact ⟨hcall, horder, by simp, hfilter⟩

private theorem reduction_iff (func : Reduction) (arg : Expr) (type : DataType) (condition : Option Expr) :
    Returns (fun e => (∀ k ∈ e.reduced, P k) ↔ P arg ∧ ∀ k ∈ condition, P k)
      (c.reduction func arg type condition) := by
  have hcall : ∀ name arg, (∀ k ∈ (c.dialect.aggregate name [arg] condition).operands, P k) ↔
      P arg ∧ ∀ k ∈ condition, P k := by
    intro name arg
    rw [← aggregate_eq, aggregate_iff hP name (by simp)]
    simp
  have hmode : (∀ k ∈ (c.modeOfGroup arg condition).reduced, P k) ↔ P arg ∧ ∀ k ∈ condition, P k := by
    rw [← hcall "MODE"]
    simp [modeOfGroup, Expr.reduced, Expr.operands, Call.operands]
  have hplain : Returns (fun e => (∀ k ∈ e.reduced, P k) ↔ P arg ∧ ∀ k ∈ condition, P k)
      (c.plainReduction func arg type condition) := by
    unfold plainReduction
    dsimp only
    split
    · refine (Returns.trivial _).bind fun target _ => .ok ((hcall func.sqlName _).trans ?_)
      rw [hP (.cast arg target) rfl rfl rfl, Expr.operands, List.forall_mem_singleton]
    · exact .ok (hcall func.sqlName arg)
  unfold reduction reductionAs
  split
  · exact .ok hmode
  · exact .ok hmode
  · exact hplain

private theorem pick_iff (func : Pick) (arg : Expr) (condition : Option Expr) (order : List (SortKey Expr)) :
    (∀ k ∈ (c.pick func arg condition order).reduced, P k) ↔
      P arg ∧ (∀ k ∈ condition, P k) ∧ ∀ key ∈ order, P key.expr := by
  have hcall : ∀ name order, (∀ k ∈ Call.operands { c.dialect.aggregate name [arg] condition with order }, P k) ↔
      P arg ∧ (∀ k ∈ condition, P k) ∧ ∀ key ∈ order, P key.expr := by
    intro name order
    rw [aggregate_iff hP name (by simp), List.forall_mem_singleton]
  unfold pick pickAs
  cases c.family <;> cases func
  case postgres.last =>
    refine (hcall "ARRAY_AGG" (order.map (·.reversed))).trans ?_
    rw [List.forall_mem_map]
    rfl
  all_goals exact hcall _ order

private theorem correlation_iff (left right : Expr) (condition : Option Expr) :
    (∀ k ∈ (c.correlation left right condition).reduced, P k) ↔ P left ∧ P right ∧ ∀ k ∈ condition, P k := by
  rw [correlation, ← aggregate_eq]
  refine (aggregate_iff hP "CORR" (by simp) condition []).trans ?_
  simp [and_assoc]

/-- What a reduction is compiled to takes in what its inputs are compiled to. -/
theorem lower_reduced_iff {n : Node} (hreduction : n.op.isReduction = true)
    (hinput : ∀ m ∈ n.lowered, Returns (P · ↔ H m) (c.lower none m)) :
    Returns (fun e => (∀ k ∈ e.reduced, P k) ↔ ∀ m ∈ n.lowered, H m) (c.lower none n) := by
  intro e he
  have hmakes := (makes_of_lower he).mono (J := fun scope m k => scope = none → (P k ↔ H m)) fun scope m k hk => by
    rintro rfl
    exact hinput m hk.1 k hk.2
  have hcondition : ∀ {o : Option Node} {w : Option Expr},
      Option.Rel (fun m k => (none : Option Select) = none → (P k ↔ H m)) o w →
        ((∀ k ∈ w, P k) ↔ ∀ m ∈ o.toList, H m) := by
    rintro _ _ (h | -)
    · simpa using h rfl
    · simp
  clear he
  cases hmakes with
  | reduce he hw hcall =>
    refine (reduction_iff hP _ _ _ _ _ hcall).trans ?_
    rw [he rfl, hcondition hw]
    simp [Node.lowered, Op.children]
  | pick he hw hkeys =>
    refine (pick_iff hP _ _ _ _).trans ?_
    rw [he rfl, hcondition hw, forall_mem_iff_of_forall₂ (hkeys.imp fun _ _ h => h rfl)]
    simp [Node.lowered, Op.children, or_imp, forall_and]
  | correlate he hf hw =>
    refine (correlation_iff hP _ _ _).trans ?_
    rw [he rfl, hf rfl, hcondition hw]
    simp [Node.lowered, Op.children]
  | _ => cases hreduction

end

end Compiler

/-! ### Properties that hold of an expression together with its operands -/

namespace Compiler

variable {c : Compiler} {P : Expr → Prop} {H : Node → Prop} {scope : Option Select}

section

variable (hP : ∀ e : Expr, e.isReference = false → e.isAggregate = false → e.isInterval = false →
  (P e ↔ ∀ k ∈ e.operands, P k))

include hP

private theorem literal_holds (text : String) : P (.literal text) := (hP _ rfl rfl rfl).2 (by simp [Expr.operands])

private theorem apply_iff {name : String} (hname : aggregateNames.contains name = false) {es : List Expr} :
    P (.apply name es) ↔ ∀ e ∈ es, P e := by
  rw [hP (.apply name es) rfl hname rfl]
  simp [Expr.apply, Expr.operands, Call.operands]

private theorem castTo_iff (e : Expr) (type : DataType) : Returns (P · ↔ P e) (c.handlers.castTo e type) :=
  (Returns.trivial _).bind fun _ _ => .ok ((hP _ rfl rfl rfl).trans (by simp [Expr.operands]))

private theorem dividend_iff (op : BinaryOp) (left right type : DataType) (e : Expr) :
    Returns (P · ↔ P e) (c.handlers.dividend op left right type e) := by
  unfold Handlers.dividend
  split
  · exact castTo_iff hP e type
  · exact .ok Iff.rfl

private theorem unary_iff (op : UnaryOp) (e : Expr) : P (c.handlers.unary op e) ↔ P e := by
  have hsingle : (∀ k ∈ [e], P k) ↔ P e := List.forall_mem_singleton
  cases op with
  | stringLength =>
    obtain ⟨name, hname, hlength⟩ := c.exists_stringLength
    rw [hlength]
    exact (apply_iff hP (contains_stringLength name hname)).trans hsingle
  | lowercase | uppercase => exact (apply_iff hP (by decide)).trans hsingle
  | not | negate | isNull | notNull => exact (hP _ rfl rfl rfl).trans hsingle

private theorem case_iff {operand : Option Expr} {bs : List (Branch Expr)} {default : Expr} :
    P (.case operand bs (some default)) ↔
      (∀ k ∈ operand, P k) ∧ (∀ b ∈ bs, P b.condition ∧ P b.result) ∧ P default := by
  rw [hP _ rfl rfl rfl, Expr.forall_mem_operands_case]
  simp

private theorem truncation_iff (kind : Kind) (e : Expr) (unit : TemporalUnit) :
    Returns (P · ↔ P e) (c.truncation kind e unit) := by
  unfold truncation
  split
  · refine .ok ((apply_iff hP (by decide)).trans ?_)
    exact List.forall_mem_cons.trans ((and_iff_right (literal_holds hP _)).trans List.forall_mem_singleton)
  · exact .error _

omit hP in
/-- The branches of a case take in all conditions and results if there are as many of both. -/
private theorem branches_iff {conditions results : List Node} {bs : List (Branch Expr)}
    (hlength : conditions.length = results.length)
    (h : List.Forall₂ (fun pair b => (P b.condition ↔ H pair.1) ∧ (P b.result ↔ H pair.2)) (conditions.zip results)
      bs) :
    (∀ b ∈ bs, P b.condition ∧ P b.result) ↔ (∀ m ∈ conditions, H m) ∧ ∀ m ∈ results, H m := by
  rw [← forall_mem_zip hlength]
  exact forall_mem_iff_of_forall₂ (h.imp fun _ _ hb => and_congr hb.1 hb.2)

/-- One property holds of a compiled value if and only if another one holds of the value itself, if both pass to and
from the inputs of operations and agree on literals, intervals and reductions. -/
theorem lower_iff {G : Option Select → Prop} (hcolumn : ∀ name, P (.column name))
    (literal : ∀ value type, Returns P (c.literal value type))
    (value : ∀ n : Node, n.op.isRelation = false → n.op.isReduction = false →
      (∀ arg unit, n.op ≠ .interval arg unit) → (H n ↔ ∀ m ∈ n.lowered, H m))
    (interval : ∀ scope arg unit type shape e, Node.Valid ⟨.interval arg unit, type, shape⟩ →
      c.lower scope arg = .ok e → (P e ↔ H arg) →
      Returns (P · ↔ H ⟨.interval arg unit, type, shape⟩) (c.intervalOf e arg.shape unit))
    (reduction : ∀ n scope e, n.Valid → n.op.isReduction = true → G scope →
      (∀ m ∈ n.lowered, Returns (P · ↔ H m) (c.lower none m)) → c.lower none n = .ok e → (P (e.inScope scope) ↔ H n))
    {n : Node} (hn : n.Valid) (hnone : G none) (hscope : G scope) : Returns (P · ↔ H n) (c.lower scope n) := by
  induction n using Node.induction generalizing scope with
  | step n ih =>
    have hinput : ∀ m ∈ n.lowered, ∀ {scope}, G scope → Returns (P · ↔ H m) (c.lower scope m) := by
      intro m hm scope hscope
      have hchild := Node.mem_children_of_mem_lowered hm
      exact ih m hchild (hn.inputs m hchild) hscope
    intro e he
    cases hreduction : n.op.isReduction with
    | true =>
      rw [c.lower_reduction hreduction] at he
      obtain ⟨call, hcall, rfl⟩ := map_eq_ok.1 he
      exact reduction n scope call hn hreduction hscope (fun m hm => hinput m hm hnone) hcall
    | false =>
      -- the inputs of all other operations are in the same scope, so that the induction is about them
      have hmakes := (makes_of_lower he).mono
        (J := fun scope' m k => scope' = scope → c.lower scope m = .ok k ∧ (P k ↔ H m)) fun scope' m k hk => by
          rintro rfl
          exact ⟨hk.2, hinput m hk.1 hscope k hk.2⟩
      have hvalue := fun hinterval => value n hmakes.isRelation_eq hreduction hinterval
      have hleaf : n.lowered = [] → (∀ arg unit, n.op ≠ .interval arg unit) → H n :=
        fun hlowered hinterval => (hvalue hinterval).2 (by simp [hlowered])
      have hsingle : ∀ {m}, n.lowered = [m] → (∀ arg unit, n.op ≠ .interval arg unit) → (H m ↔ H n) :=
        fun hlowered hinterval => ((hvalue hinterval).trans (by simp [hlowered])).symm
      have htype := hn.hasType
      clear he
      cases hmakes with
      | literal he => exact iff_of_true (literal _ _ _ he) (hleaf rfl (by simp))
      | null he =>
        exact iff_of_true (nullLiteral_closes (fun e href hcall hunits => (hP e href hcall hunits).2) _ _ he)
          (hleaf rfl (by simp))
      | field => exact iff_of_true (hcolumn _) (hleaf rfl (by simp))
      | generate he =>
        exact iff_of_true (generated_closes (fun e href hcall hunits => (hP e href hcall hunits).2) _ _ he)
          (hleaf rfl (by simp))
      | castNull _ he => exact (he rfl).2.trans (hsingle rfl (by simp))
      | cast he hf => exact (castTo_iff hP _ _ _ hf).trans ((he rfl).2.trans (hsingle rfl (by simp)))
      | binary he hf hd =>
        rw [hP _ rfl rfl rfl, hvalue (by simp)]
        simp [Expr.operands, Node.lowered, Op.children, (dividend_iff hP _ _ _ _ _ _ hd).trans (he rfl).2, (hf rfl).2]
      | unary he => exact (unary_iff hP _ _).trans ((he rfl).2.trans (hsingle rfl (by simp)))
      | simpleCase he hbs hd =>
        obtain ⟨⟨-, hlength⟩, -⟩ := htype
        rw [case_iff hP, hvalue (by simp), branches_iff hlength (hbs.imp fun _ _ hb => ⟨(hb.1 rfl).2, (hb.2 rfl).2⟩)]
        simp [Node.lowered, Op.children, (he rfl).2, (hd rfl).2, or_imp, forall_and, and_assoc]
      | searchedCase hbs hd =>
        obtain ⟨⟨-, hlength⟩, -⟩ := htype
        rw [case_iff hP, hvalue (by simp), branches_iff hlength (hbs.imp fun _ _ hb => ⟨(hb.1 rfl).2, (hb.2 rfl).2⟩)]
        simp [Node.lowered, Op.children, (hd rfl).2, or_imp, forall_and, and_assoc]
      | truncate he hf => exact (truncation_iff hP _ _ _ _ hf).trans ((he rfl).2.trans (hsingle rfl (by simp)))
      | dateFromYmd hy hm hd =>
        rw [apply_iff hP (by decide), hvalue (by simp)]
        simp [Node.lowered, Op.children, (hy rfl).2, (hm rfl).2, (hd rfl).2]
      | interval he hf => exact interval _ _ _ _ _ _ hn (he rfl).1 (he rfl).2 _ hf
      | reduce | pick | correlate => cases hreduction

end

section

variable (hP : ∀ e : Expr, e.isReference = false → e.isAggregate = false → (P e ↔ ∀ k ∈ e.operands, P k))

include hP

private theorem intervalOf_iff (e : Expr) (shape : Shape) (unit : TemporalUnit) :
    Returns (P · ↔ P e) (c.intervalOf e shape unit) := by
  have hunit : P (.literal "1") := (hP _ rfl rfl).2 (by simp [Expr.operands])
  unfold intervalOf
  split
  · exact .error _
  · split
    · exact .ok ((hP _ rfl rfl).trans List.forall_mem_singleton)
    · refine .ok ((hP _ rfl rfl).trans (List.forall_mem_cons.trans ?_))
      exact and_iff_left (List.forall_mem_singleton.2 ((hP _ rfl rfl).2 (by simpa [Expr.operands] using hunit)))
    · exact .error _

/-- The two properties agree on literals and intervals if they pass through all operations but reductions. -/
theorem lower_iff_of_operands {G : Option Select → Prop} (hcolumn : ∀ name, P (.column name))
    (value : ∀ n : Node, n.op.isRelation = false → n.op.isReduction = false → (H n ↔ ∀ m ∈ n.lowered, H m))
    (reduction : ∀ n scope e, n.Valid → n.op.isReduction = true → G scope →
      (∀ m ∈ n.lowered, Returns (P · ↔ H m) (c.lower none m)) → c.lower none n = .ok e → (P (e.inScope scope) ↔ H n))
    {n : Node} (hn : n.Valid) (hnone : G none) (hscope : G scope) : Returns (P · ↔ H n) (c.lower scope n) := by
  refine lower_iff (fun e href hcall _ => hP e href hcall) hcolumn (fun v type => ?_)
    (fun m hrelation hreduction _ => value m hrelation hreduction) (fun scope arg unit type shape e _ _ he => ?_)
    reduction hn hnone hscope
  · refine (c.literal_spelling v type).mono fun e he => he.closes (fun e href hcall _ => (hP e href hcall).2) ?_
    exact fun e unit he => (hP _ rfl rfl).2 (by simpa [Expr.operands] using he)
  · have hinputs : H ⟨.interval arg unit, type, shape⟩ ↔ H arg :=
      (value _ rfl rfl).trans (by simp [Node.lowered, Op.children])
    rw [hinputs]
    exact (intervalOf_iff hP e arg.shape unit).mono fun f hf => hf.trans he

end

end Compiler

end SqlPlan
