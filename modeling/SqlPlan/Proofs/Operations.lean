import Mathlib.Data.Option.Basic
import Mathlib.Logic.Relation
import SqlPlan.Proofs.Nodes

/-!
# What operations become

The compiler of values in a scope takes over all handlers of the compiler without a scope. So one rule says what an
operation becomes in any scope: the inputs of a reduction are compiled without a scope, and the inputs of all other
operations in the scope of the operation.

* `Compiler.lower_eq`: the rule.
* `Compiler.makes_of_lower`: what an operation makes of its inputs. Statements about all compiled values come from
  this by induction over nodes.
-/

namespace SqlPlan

open Sql

/-- A value of a statement's rows as an expression: the value itself, or a statement for it alone. -/
def Sql.Expr.inScope (expr : Expr) : Option Select → Expr
  | none => expr
  | some source => .subquery { source with projection := [⟨expr, none⟩] }

namespace Compiler

variable (c : Compiler)

def lowerOption (scope : Option Select) : Option Node → Except CompileError (Option Expr)
  | none => .ok none
  | some n => do
    let expr ← c.lower scope n
    return some expr

/-- The expression of an operation in a scope. -/
def lowerOp (scope : Option Select) (type : DataType) : Op Node → Except CompileError Expr
  | .literal value type => c.literal value type
  | .null type => c.handlers.nullLiteral type
  | .field _ name => .ok (.column name)
  | .cast arg target => do
    let expr ← c.lower scope arg
    if target.isNull then return expr else c.handlers.castTo expr target
  | .binary op left right => do
    let leftExpr ← c.lower scope left
    let rightExpr ← c.lower scope right
    let leftExpr ← c.handlers.dividend op left.type right.type type leftExpr
    return .binary leftExpr op.symbol rightExpr
  | .unary op arg => do
    let expr ← c.lower scope arg
    return c.handlers.unary op expr
  | .simpleCase base conditions results default => do
    let operand ← c.lower scope base
    let branches ← branches (c.lowerEach scope conditions) (c.lowerEach scope results)
    let default ← c.lower scope default
    return .case (some operand) branches (some default)
  | .searchedCase conditions results default => do
    let branches ← branches (c.lowerEach scope conditions) (c.lowerEach scope results)
    let default ← c.lower scope default
    return .case none branches (some default)
  | .truncate clock arg unit => do
    let expr ← c.lower scope arg
    c.truncation clock.kind expr unit
  | .dateFromYmd year month day => do
    let year ← c.lower scope year
    let month ← c.lower scope month
    let day ← c.lower scope day
    return .apply "MAKE_DATE" [year, month, day]
  | .generate source => c.handlers.generated source
  | .interval arg unit => do
    let expr ← c.lower scope arg
    c.intervalOf expr arg.shape unit
  | .reduce func arg condition => do
    let expr ← c.lower none arg
    let condition ← c.lowerOption none condition
    let call ← c.reduction func expr arg.type condition
    return call.inScope scope
  | .pick func arg condition order => do
    c.handlers.ensureOrdered func order
    let expr ← c.lower none arg
    let condition ← c.lowerOption none condition
    let order ← c.lowerKeys none order
    return (c.pick func expr condition order).inScope scope
  | .correlate left right mode condition => do
    c.handlers.ensureCorrelation mode
    let left ← c.lower none left
    let right ← c.lower none right
    let condition ← c.lowerOption none condition
    return (c.correlation left right condition).inScope scope
  | .table _ _ => .error (.invalidShape (.relationAsValue .unboundTable))
  | .project _ _ => .error (.invalidShape (.relationAsValue .project))
  | .filter _ _ => .error (.invalidShape (.relationAsValue .filter))
  | .aggregate _ _ _ => .error (.invalidShape (.relationAsValue .aggregate))
  | .sort _ _ => .error (.invalidShape (.relationAsValue .sort))
  | .limit _ _ _ => .error (.invalidShape (.relationAsValue .limit))

/-- The compiler of values in a scope has the handlers of the compiler itself. -/
private theorem valuesIn_toHandlers (scope : Option Select) : (c.valuesIn scope).toHandlers = c.handlers := by
  cases scope with
  | none => rfl
  | some source => rfl

private theorem lowerOption_eq (scope : Option Select) (n : Option Node) :
    (c.valuesIn scope).lowerOption n = c.lowerOption scope n := by
  cases n with
  | none => rw [ValueCompiler.lowerOption, lowerOption]
  | some n =>
    rw [ValueCompiler.lowerOption, lowerOption]
    rfl

/-- Operations other than reductions are left to the handlers. -/
theorem lowerOp_eq {op : Op Node} (h : op.isReduction = false) (scope : Option Select) (type : DataType) :
    (c.valuesIn scope).lowerOp type op = c.lowerOp scope type op := by
  cases op with
  | reduce | pick | correlate => cases h
  | literal | null | cast | binary | unary | truncate | dateFromYmd | generate | interval =>
    rw [ValueCompiler.lowerOp, c.valuesIn_toHandlers]
    rfl
  | field | simpleCase | searchedCase | table | project | filter | aggregate | sort | limit =>
    rw [ValueCompiler.lowerOp]
    rfl

/-- Without a scope, all operations are left to the handlers. -/
private theorem lowerOp_none (op : Op Node) (type : DataType) :
    (c.valuesIn none).lowerOp type op = c.lowerOp none type op := by
  cases op with
  | reduce | pick | correlate =>
    rw [ValueCompiler.lowerOp, lowerOption_eq, lowerOp]
    simp only [Expr.inScope, bind_pure]
    rfl
  | _ => exact c.lowerOp_eq rfl none type

/-- A reduction in a scope is a statement for its value without a scope. -/
theorem lowerOp_reduction {op : Op Node} (h : op.isReduction = true) (scope : Option Select) (type : DataType) :
    c.lowerOp scope type op = (c.lowerOp none type op).map (·.inScope scope) := by
  cases op with
  | reduce | pick | correlate =>
    simp only [lowerOp, map_bind_eq]
    rfl
  | _ => cases h

/-- What an operation becomes in a scope. -/
theorem lower_eq (scope : Option Select) (op : Op Node) (type : DataType) (shape : Shape) :
    c.lower scope ⟨op, type, shape⟩ = (c.dialect.ensureSupported op.kind >>= fun _ => c.lowerOp scope type op) := by
  have hdialect : (c.valuesIn scope).dialect = c.dialect := congrArg Handlers.dialect (c.valuesIn_toHandlers scope)
  have hnone : c.lower none ⟨op, type, shape⟩ =
      (c.dialect.ensureSupported op.kind >>= fun _ => c.lowerOp none type op) := by
    rw [← c.lowerOp_none, lower, ValueCompiler.lower]
    rfl
  cases scope with
  | none => exact hnone
  | some source =>
    have hkind : Node.kind ⟨op, type, shape⟩ = op.kind := rfl
    -- in a scope, only reductions are not left to the operation
    cases hreduction : op.isReduction with
    | false =>
      have hown : (c.valuesIn (some source)).own? ⟨op, type, shape⟩ = none :=
        if_neg (by simp [hkind, op.isReduction_kind, hreduction])
      rw [lower, ValueCompiler.lower, hown, hdialect, c.lowerOp_eq hreduction]
    | true =>
      have hown : (c.valuesIn (some source)).own? ⟨op, type, shape⟩ =
          some ((c.lower none ⟨op, type, shape⟩).map (·.inScope (some source))) :=
        if_pos (by simp [hkind, op.isReduction_kind, hreduction])
      rw [lower, ValueCompiler.lower, hown, hnone, c.lowerOp_reduction hreduction (some source), map_bind_eq]

end Compiler

/-! ### Handlers -/

namespace Compiler

variable (c : Compiler)

/-- A value has a spelling of its own if it is a document or a list of bytes, and the common one otherwise. -/
theorem literal_cases (value : Value) (type : DataType) :
    (∃ text, value = .json text ∧ c.literal value type = .ok (.literal (quoteString text))) ∨
      (∃ bytes, value = .binary bytes ∧
        c.literal value type = c.handlers.castTo (.literal (quoteString (hexEscapes bytes))) type) ∨
      c.literal value type = c.commonLiteral value type := by
  unfold literal Handlers.literal
  dsimp only
  cases hown : c.ownLiteral? value type with
  | none => exact .inr (.inr rfl)
  | some result =>
    unfold ownLiteral? at hown
    split at hown <;> cases hown
    · exact .inl ⟨_, rfl, rfl⟩
    · exact .inr (.inl ⟨_, rfl, rfl⟩)

/-- Only documents and bytes have spellings of a family. -/
theorem literal_eq_commonLiteral {value : Value} (hjson : ∀ text, value ≠ .json text)
    (hbinary : ∀ bytes, value ≠ .binary bytes) (type : DataType) :
    c.literal value type = c.commonLiteral value type := by
  rcases c.literal_cases value type with ⟨text, rfl, -⟩ | ⟨bytes, rfl, -⟩ | h
  · exact absurd rfl (hjson text)
  · exact absurd rfl (hbinary bytes)
  · exact h

/-- What is generated is a keyword, a date out of a keyword, or the call of a function. -/
theorem generated_cases {source : Generator} {e : Expr} (h : c.handlers.generated source = .ok e) :
    (∃ text ∈ ["CURRENT_DATE", "CURRENT_TIMESTAMP"], e = .keyword text) ∨
      (∃ name, c.typeName .date = .ok name ∧ e = .cast (.keyword "CURRENT_TIMESTAMP") name) ∨
      ∃ name ∈ ["UUID", "GEN_RANDOM_UUID"], e = .apply name [] := by
  cases source with
  | dateNow =>
    replace h : c.currentDate = .ok e := h
    unfold currentDate at h
    split at h
    · obtain rfl := Except.ok.inj h
      exact .inl ⟨_, by simp, rfl⟩
    · obtain ⟨name, hname, h⟩ := bind_eq_ok.1 h
      exact .inr (.inl ⟨name, hname, (Except.ok.inj h).symm⟩)
  | timestampNow => exact .inl ⟨_, by simp, (Except.ok.inj h).symm⟩
  | randomUuid =>
    obtain rfl : c.randomUuid = e := Except.ok.inj h
    unfold randomUuid
    split
    · exact .inr (.inr ⟨_, by simp, rfl⟩)
    · exact .inr (.inr ⟨_, by simp, rfl⟩)

/-- The length of a text is the call of one function. -/
theorem exists_stringLength :
    ∃ name ∈ ["LENGTH", "CHAR_LENGTH"], ∀ e, c.handlers.unary .stringLength e = .apply name [e] := by
  cases hfamily : c.family with
  | duckdb => exact ⟨"LENGTH", by simp, fun e => by simp [Handlers.unary, stringLength, hfamily]⟩
  | ansi | postgres | risingwave =>
    exact ⟨"CHAR_LENGTH", by simp, fun e => by simp [Handlers.unary, stringLength, hfamily]⟩

end Compiler

/-! ### Nodes that are compiled -/

namespace Node

/-- The inputs that are compiled with a node: all of them, except for the relation of a field. -/
def lowered (n : Node) : List Node :=
  match n.op with
  | .field _ _ => []
  | op => op.children

/-- What is compiled with a node is among its inputs. -/
theorem mem_children_of_mem_lowered {n m : Node} (h : m ∈ n.lowered) : m ∈ n.children := by
  unfold lowered at h
  split at h
  · cases h
  · exact h

/-- All arguments are compiled with a node. -/
theorem mem_lowered_of_mem_arguments {n m : Node} (h : m ∈ n.op.arguments) : m ∈ n.lowered := by
  unfold lowered
  split
  · rename_i hfield
    simp [hfield, Op.arguments] at h
  · exact Op.mem_children.2 (.inr h)

/-- A node is compiled with another one if it can be reached through inputs. -/
def LoweredWith (n m : Node) : Prop := Relation.ReflTransGen (fun a b => b ∈ a.lowered) n m

/-- All nodes that are compiled with a node are the node itself and those that are compiled with an input. -/
theorem forall_loweredWith {n : Node} {P : Node → Prop} :
    (∀ m, n.LoweredWith m → P m) ↔ P n ∧ ∀ k ∈ n.lowered, ∀ m, k.LoweredWith m → P m := by
  constructor
  · exact fun h => ⟨h n .refl, fun k hk m hm => h m (.head hk hm)⟩
  · rintro ⟨hn, hinputs⟩ m hm
    rcases Relation.ReflTransGen.cases_head hm with rfl | ⟨k, hk, hm⟩
    · exact hn
    · exact hinputs k hk m hm

end Node

/-! ### Lists of inputs -/

namespace Compiler

variable (c : Compiler) {scope : Option Select}

/-- Each of some nodes is compiled by itself. -/
theorem lowerEach_eq_map (scope : Option Select) (ns : List Node) :
    c.lowerEach scope ns = ns.map (c.lower scope) := by
  induction ns with
  | nil => rw [lowerEach, ValueCompiler.lowerEach, List.map_nil]
  | cons n ns ih =>
    rw [lowerEach, ValueCompiler.lowerEach, List.map_cons, ← ih]
    rfl

/-- Keys are compiled one after the other. -/
theorem lowerKeys_eq_collect (scope : Option Select) (keys : List (SortKey Node)) :
    c.lowerKeys scope keys =
      collect (keys.map fun key => (c.lower scope key.expr).map fun e => ⟨e, key.ascending⟩) := by
  induction keys with
  | nil =>
    rw [lowerKeys, ValueCompiler.lowerKeys]
    rfl
  | cons key keys ih =>
    rw [List.map_cons, collect, ← ih, lowerKeys, ValueCompiler.lowerKeys, lower]
    cases (c.valuesIn scope).lower key.expr <;> rfl

/-- Named values are compiled one after the other. -/
theorem lowerNamed_eq_collect (scope : Option Select) (values : List (Named Node)) :
    c.lowerNamed scope values =
      collect (values.map fun v => (c.lower scope v.value).map fun e => ⟨e, some v.name⟩) := by
  induction values with
  | nil => rfl
  | cons v values ih =>
    rw [lowerNamed, ih, List.map_cons, collect]
    cases c.lower scope v.value <;> rfl

/-- Conditions and results are compiled in pairs. -/
theorem branches_eq_collect (scope : Option Select) (conditions results : List Node) :
    branches (c.lowerEach scope conditions) (c.lowerEach scope results) =
      collect ((conditions.zip results).map fun pair => do
        return ⟨← c.lower scope pair.1, ← c.lower scope pair.2⟩) := by
  rw [branches, lowerEach_eq_map, lowerEach_eq_map, List.zipWith_map, ← List.map_uncurry_zip_eq_zipWith]
  rfl

/-- There is a branch for every condition if there are as many results. -/
theorem forall_mem_zip {H H' : Node → Prop} {conditions results : List Node}
    (hlength : conditions.length = results.length) :
    (∀ pair ∈ conditions.zip results, H pair.1 ∧ H' pair.2) ↔ (∀ n ∈ conditions, H n) ∧ ∀ n ∈ results, H' n := by
  simp only [imp_and, forall_and]
  refine and_congr (List.forall_mem_map.symm.trans ?_) (List.forall_mem_map.symm.trans ?_)
  · rw [List.map_fst_zip (Nat.le_of_eq hlength)]
  · rw [List.map_snd_zip (Nat.le_of_eq hlength.symm)]

section

variable {c} {P : Expr → Prop} {H : Node → Prop}

/-- If what a node is compiled to satisfies `P` just if the node satisfies `H`, so it is for all nodes of a list. -/
theorem lowerAll_iff {ns : List Node} (h : ∀ n ∈ ns, Returns (P · ↔ H n) (c.lower scope n)) :
    Returns (fun es => (∀ e ∈ es, P e) ↔ ∀ n ∈ ns, H n) (c.lowerAll scope ns) := by
  rw [lowerAll, lowerEach_eq_map]
  exact (Returns.collect_map h).mono fun _ => forall_mem_iff_of_forall₂

theorem lowerKeys_iff {keys : List (SortKey Node)}
    (h : ∀ n ∈ keys.map (·.expr), Returns (P · ↔ H n) (c.lower scope n)) :
    Returns (fun order => (∀ key ∈ order, P key.expr) ↔ ∀ n ∈ keys.map (·.expr), H n) (c.lowerKeys scope keys) := by
  rw [lowerKeys_eq_collect]
  simp only [List.forall_mem_map] at h ⊢
  refine Returns.mono (.collect_map fun key hkey => (h key hkey).map fun e he => ?_)
    fun _ => forall_mem_iff_of_forall₂
  exact he

theorem lowerNamed_iff {values : List (Named Node)}
    (h : ∀ n ∈ values.map (·.value), Returns (P · ↔ H n) (c.lower scope n)) :
    Returns (fun items => (∀ item ∈ items, P item.expr) ↔ ∀ n ∈ values.map (·.value), H n)
      (c.lowerNamed scope values) := by
  rw [lowerNamed_eq_collect]
  simp only [List.forall_mem_map] at h ⊢
  refine Returns.mono (.collect_map fun v hv => (h v hv).map fun e he => ?_) fun _ => forall_mem_iff_of_forall₂
  exact he

end

section

variable {P : Expr → Prop}

/-- What holds of all compiled nodes of a list. -/
theorem lowerAll_returns {ns : List Node} (h : ∀ n ∈ ns, Returns P (c.lower scope n)) :
    Returns (fun es => ∀ e ∈ es, P e) (c.lowerAll scope ns) := by
  refine (lowerAll_iff (P := P) (H := fun _ => True) fun n hn => (h n hn).mono fun e he => ?_).mono fun es hes => ?_
  · exact iff_of_true he True.intro
  · exact hes.2 fun _ _ => True.intro

theorem lowerKeys_returns {keys : List (SortKey Node)} (h : ∀ n ∈ keys.map (·.expr), Returns P (c.lower scope n)) :
    Returns (fun order => ∀ e ∈ order.map (·.expr), P e) (c.lowerKeys scope keys) := by
  refine (lowerKeys_iff (P := P) (H := fun _ => True) fun n hn => (h n hn).mono fun e he => ?_).mono
    fun order horder => ?_
  · exact iff_of_true he True.intro
  · exact List.forall_mem_map.2 (horder.2 fun _ _ => True.intro)

theorem lowerNamed_returns {values : List (Named Node)}
    (h : ∀ n ∈ values.map (·.value), Returns P (c.lower scope n)) :
    Returns (fun items => ∀ e ∈ items.map (·.expr), P e) (c.lowerNamed scope values) := by
  refine (lowerNamed_iff (P := P) (H := fun _ => True) fun n hn => (h n hn).mono fun e he => ?_).mono
    fun items hitems => ?_
  · exact iff_of_true he True.intro
  · exact List.forall_mem_map.2 (hitems.2 fun _ _ => True.intro)

end

end Compiler

/-! ### What operations make of their inputs -/

namespace Compiler

variable (c : Compiler)

/-- What an operation makes of its inputs in a scope, where `Input` says what these become. The inputs of a reduction
have no scope. -/
inductive Makes (Input : Option Select → Node → Expr → Prop) (scope : Option Select) : Node → Expr → Prop
  | literal {value type type' shape e} (he : c.literal value type = .ok e) :
      Makes Input scope ⟨.literal value type, type', shape⟩ e
  | null {type type' shape e} (he : c.handlers.nullLiteral type = .ok e) :
      Makes Input scope ⟨.null type, type', shape⟩ e
  | field {relation name type shape} : Makes Input scope ⟨.field relation name, type, shape⟩ (.column name)
  | generate {source type shape e} (he : c.handlers.generated source = .ok e) :
      Makes Input scope ⟨.generate source, type, shape⟩ e
  | castNull {arg target type shape e} (htarget : target.isNull = true) (he : Input scope arg e) :
      Makes Input scope ⟨.cast arg target, type, shape⟩ e
  | cast {arg target type shape e f} (he : Input scope arg e) (hf : c.handlers.castTo e target = .ok f) :
      Makes Input scope ⟨.cast arg target, type, shape⟩ f
  | binary {op left right type shape e d f} (he : Input scope left e) (hf : Input scope right f)
      (hd : c.handlers.dividend op left.type right.type type e = .ok d) :
      Makes Input scope ⟨.binary op left right, type, shape⟩ (.binary d op.symbol f)
  | unary {op arg type shape e} (he : Input scope arg e) :
      Makes Input scope ⟨.unary op arg, type, shape⟩ (c.handlers.unary op e)
  | simpleCase {base conditions results default type shape e bs d} (he : Input scope base e)
      (hbs : List.Forall₂ (fun pair b => Input scope pair.1 b.condition ∧ Input scope pair.2 b.result)
        (conditions.zip results) bs) (hd : Input scope default d) :
      Makes Input scope ⟨.simpleCase base conditions results default, type, shape⟩ (.case (some e) bs (some d))
  | searchedCase {conditions results default type shape bs d}
      (hbs : List.Forall₂ (fun pair b => Input scope pair.1 b.condition ∧ Input scope pair.2 b.result)
        (conditions.zip results) bs) (hd : Input scope default d) :
      Makes Input scope ⟨.searchedCase conditions results default, type, shape⟩ (.case none bs (some d))
  | truncate {clock arg unit type shape e f} (he : Input scope arg e) (hf : c.truncation clock.kind e unit = .ok f) :
      Makes Input scope ⟨.truncate clock arg unit, type, shape⟩ f
  | dateFromYmd {year month day type shape y m d} (hy : Input scope year y) (hm : Input scope month m)
      (hd : Input scope day d) :
      Makes Input scope ⟨.dateFromYmd year month day, type, shape⟩ (.apply "MAKE_DATE" [y, m, d])
  | interval {arg unit type shape e f} (he : Input scope arg e) (hf : c.intervalOf e arg.shape unit = .ok f) :
      Makes Input scope ⟨.interval arg unit, type, shape⟩ f
  | reduce {func arg condition type shape e w call} (he : Input none arg e)
      (hw : Option.Rel (Input none) condition w) (hcall : c.reduction func e arg.type w = .ok call) :
      Makes Input scope ⟨.reduce func arg condition, type, shape⟩ (call.inScope scope)
  | pick {func arg condition order type shape e w keys} (he : Input none arg e)
      (hw : Option.Rel (Input none) condition w)
      (hkeys : List.Forall₂ (fun key key' => Input none key.expr key'.expr) order keys) :
      Makes Input scope ⟨.pick func arg condition order, type, shape⟩ ((c.pick func e w keys).inScope scope)
  | correlate {left right mode condition type shape e f w} (he : Input none left e) (hf : Input none right f)
      (hw : Option.Rel (Input none) condition w) :
      Makes Input scope ⟨.correlate left right mode condition, type, shape⟩ ((c.correlation e f w).inScope scope)

variable {c} {scope : Option Select} {n : Node} {e : Expr}

/-- What is compiled to an expression is no relation. -/
theorem Makes.isRelation_eq {Input : Option Select → Node → Expr → Prop} (h : c.Makes Input scope n e) :
    n.op.isRelation = false := by
  cases h <;> rfl

theorem Makes.mono {Input J : Option Select → Node → Expr → Prop} (h : c.Makes Input scope n e)
    (weaker : ∀ scope m k, Input scope m k → J scope m k) : c.Makes J scope n e := by
  have hoption : ∀ {o : Option Node} {w : Option Expr}, Option.Rel (Input none) o w → Option.Rel (J none) o w := by
    intro o w h
    cases h with
    | none => exact .none
    | some h => exact .some (weaker _ _ _ h)
  cases h with
  | literal he => exact .literal he
  | null he => exact .null he
  | field => exact .field
  | generate he => exact .generate he
  | castNull htarget he => exact .castNull htarget (weaker _ _ _ he)
  | cast he hf => exact .cast (weaker _ _ _ he) hf
  | binary he hf hd => exact .binary (weaker _ _ _ he) (weaker _ _ _ hf) hd
  | unary he => exact .unary (weaker _ _ _ he)
  | simpleCase he hbs hd =>
    refine .simpleCase (weaker _ _ _ he) (hbs.imp fun _ _ hb => ?_) (weaker _ _ _ hd)
    exact hb.imp (weaker _ _ _) (weaker _ _ _)
  | searchedCase hbs hd =>
    exact .searchedCase (hbs.imp fun _ _ hb => hb.imp (weaker _ _ _) (weaker _ _ _)) (weaker _ _ _ hd)
  | truncate he hf => exact .truncate (weaker _ _ _ he) hf
  | dateFromYmd hy hm hd => exact .dateFromYmd (weaker _ _ _ hy) (weaker _ _ _ hm) (weaker _ _ _ hd)
  | interval he hf => exact .interval (weaker _ _ _ he) hf
  | reduce he hw hcall => exact .reduce (weaker _ _ _ he) (hoption hw) hcall
  | pick he hw hkeys => exact .pick (weaker _ _ _ he) (hoption hw) (hkeys.imp fun _ _ hkey => weaker _ _ _ hkey)
  | correlate he hf hw => exact .correlate (weaker _ _ _ he) (weaker _ _ _ hf) (hoption hw)

section

variable {Q : Node → Expr → Prop}

private theorem lowerOption_rel {o : Option Node} (h : ∀ m ∈ o.toList, Returns (Q m) (c.lower scope m)) :
    Returns (Option.Rel Q o) (c.lowerOption scope o) := by
  cases o with
  | none => exact .ok .none
  | some m => exact (h m (by simp)).bind fun e he => .ok (.some he)

private theorem lowerKeys_rel {order : List (SortKey Node)}
    (h : ∀ m ∈ order.map (·.expr), Returns (Q m) (c.lower scope m)) :
    Returns (List.Forall₂ (fun key key' => Q key.expr key'.expr) order) (c.lowerKeys scope order) := by
  rw [lowerKeys_eq_collect]
  exact .collect_map fun key hkey => (h key.expr (List.mem_map_of_mem hkey)).map fun e he => he

private theorem branches_rel {conditions results : List Node}
    (h : ∀ m ∈ conditions ++ results, Returns (Q m) (c.lower scope m)) :
    Returns (List.Forall₂ (fun pair b => Q pair.1 b.condition ∧ Q pair.2 b.result) (conditions.zip results))
      (branches (c.lowerEach scope conditions) (c.lowerEach scope results)) := by
  rw [branches_eq_collect]
  refine .collect_map fun pair hpair => ?_
  obtain ⟨hcondition, hresult⟩ := List.of_mem_zip hpair
  refine (h _ (List.mem_append_left _ hcondition)).bind fun e he => ?_
  exact (h _ (List.mem_append_right _ hresult)).bind fun f hf => .ok ⟨he, hf⟩

end

/-- What a node becomes is made of what the inputs become that are compiled with it. -/
theorem makes_of_lower (h : c.lower scope n = .ok e) :
    c.Makes (fun scope m k => m ∈ n.lowered ∧ c.lower scope m = .ok k) scope n e := by
  have hinput : ∀ scope, ∀ m ∈ n.lowered,
      Returns (fun k => m ∈ n.lowered ∧ c.lower scope m = .ok k) (c.lower scope m) :=
    fun scope m hm k hk => ⟨hm, hk⟩
  obtain ⟨op, type, shape⟩ := n
  rw [lower_eq] at h
  obtain ⟨_, -, h⟩ := bind_eq_ok.1 h
  -- the steps of each operation are taken apart in the order in which they are made
  cases op with
  | literal value type => exact .literal h
  | null type => exact .null h
  | field relation name =>
    obtain rfl := Except.ok.inj h
    exact .field
  | generate source => exact .generate h
  | cast arg target =>
    obtain ⟨k, hk, h⟩ := bind_eq_ok.1 h
    split at h
    · rename_i htarget
      obtain rfl := Except.ok.inj h
      exact .castNull htarget ⟨by simp [Node.lowered, Op.children], hk⟩
    · exact .cast ⟨by simp [Node.lowered, Op.children], hk⟩ h
  | binary op left right =>
    obtain ⟨k, hk, h⟩ := bind_eq_ok.1 h
    obtain ⟨f, hf, h⟩ := bind_eq_ok.1 h
    obtain ⟨d, hd, h⟩ := bind_eq_ok.1 h
    obtain rfl := Except.ok.inj h
    exact .binary ⟨by simp [Node.lowered, Op.children], hk⟩ ⟨by simp [Node.lowered, Op.children], hf⟩ hd
  | unary op arg =>
    obtain ⟨k, hk, h⟩ := bind_eq_ok.1 h
    obtain rfl := Except.ok.inj h
    exact .unary ⟨by simp [Node.lowered, Op.children], hk⟩
  | simpleCase base conditions results default =>
    obtain ⟨k, hk, h⟩ := bind_eq_ok.1 h
    obtain ⟨bs, hbs, h⟩ := bind_eq_ok.1 h
    obtain ⟨d, hd, h⟩ := bind_eq_ok.1 h
    obtain rfl := Except.ok.inj h
    have hrel := branches_rel fun m hm => hinput scope m (List.mem_cons_of_mem _ (List.mem_append_left _ hm))
    exact .simpleCase ⟨by simp [Node.lowered, Op.children], hk⟩ (hrel bs hbs)
      ⟨by simp [Node.lowered, Op.children], hd⟩
  | searchedCase conditions results default =>
    obtain ⟨bs, hbs, h⟩ := bind_eq_ok.1 h
    obtain ⟨d, hd, h⟩ := bind_eq_ok.1 h
    obtain rfl := Except.ok.inj h
    have hrel := branches_rel fun m hm => hinput scope m (List.mem_append_left _ hm)
    exact .searchedCase (hrel bs hbs) ⟨by simp [Node.lowered, Op.children], hd⟩
  | truncate clock arg unit =>
    obtain ⟨k, hk, h⟩ := bind_eq_ok.1 h
    exact .truncate ⟨by simp [Node.lowered, Op.children], hk⟩ h
  | dateFromYmd year month day =>
    obtain ⟨y, hy, h⟩ := bind_eq_ok.1 h
    obtain ⟨m, hm, h⟩ := bind_eq_ok.1 h
    obtain ⟨d, hd, h⟩ := bind_eq_ok.1 h
    obtain rfl := Except.ok.inj h
    exact .dateFromYmd ⟨by simp [Node.lowered, Op.children], hy⟩ ⟨by simp [Node.lowered, Op.children], hm⟩
      ⟨by simp [Node.lowered, Op.children], hd⟩
  | interval arg unit =>
    obtain ⟨k, hk, h⟩ := bind_eq_ok.1 h
    exact .interval ⟨by simp [Node.lowered, Op.children], hk⟩ h
  | reduce func arg condition =>
    obtain ⟨k, hk, h⟩ := bind_eq_ok.1 h
    obtain ⟨w, hw, h⟩ := bind_eq_ok.1 h
    obtain ⟨call, hcall, h⟩ := bind_eq_ok.1 h
    obtain rfl := Except.ok.inj h
    have hcondition := lowerOption_rel fun m hm => hinput none m (List.mem_cons_of_mem _ hm)
    exact .reduce ⟨by simp [Node.lowered, Op.children], hk⟩ (hcondition w hw) hcall
  | pick func arg condition order =>
    obtain ⟨_, -, h⟩ := bind_eq_ok.1 h
    obtain ⟨k, hk, h⟩ := bind_eq_ok.1 h
    obtain ⟨w, hw, h⟩ := bind_eq_ok.1 h
    obtain ⟨keys, hkeys, h⟩ := bind_eq_ok.1 h
    obtain rfl := Except.ok.inj h
    have hcondition := lowerOption_rel fun m hm =>
      hinput none m (List.mem_cons_of_mem _ (List.mem_append_left _ hm))
    have horder := lowerKeys_rel fun m hm => hinput none m (List.mem_cons_of_mem _ (List.mem_append_right _ hm))
    exact .pick ⟨by simp [Node.lowered, Op.children], hk⟩ (hcondition w hw) (horder keys hkeys)
  | correlate left right mode condition =>
    obtain ⟨_, -, h⟩ := bind_eq_ok.1 h
    obtain ⟨k, hk, h⟩ := bind_eq_ok.1 h
    obtain ⟨f, hf, h⟩ := bind_eq_ok.1 h
    obtain ⟨w, hw, h⟩ := bind_eq_ok.1 h
    obtain rfl := Except.ok.inj h
    have hcondition := lowerOption_rel fun m hm =>
      hinput none m (List.mem_cons_of_mem _ (List.mem_cons_of_mem _ hm))
    exact .correlate ⟨by simp [Node.lowered, Op.children], hk⟩ ⟨by simp [Node.lowered, Op.children], hf⟩
      (hcondition w hw)
  | table | project | filter | aggregate | sort | limit => cases h

variable (c) in
/-- What every operation keeps, of the nodes that it takes and the expressions that they become, holds of every
compiled value. -/
theorem lower_induction {motive : Option Select → Node → Expr → Prop}
    (step : ∀ {scope n e},
      c.Makes (fun scope m k => m ∈ n.lowered ∧ c.lower scope m = .ok k ∧ motive scope m k) scope n e →
      motive scope n e)
    (scope : Option Select) (n : Node) : Returns (motive scope n) (c.lower scope n) := by
  induction n using Node.induction generalizing scope with
  | step n ih =>
    intro e he
    refine step ((makes_of_lower he).mono fun scope m k hk => ⟨hk.1, hk.2, ?_⟩)
    exact ih m (Node.mem_children_of_mem_lowered hk.1) scope k hk.2

end Compiler

end SqlPlan
