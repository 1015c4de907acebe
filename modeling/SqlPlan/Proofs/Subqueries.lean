import SqlPlan.Proofs.Shapes

/-!
# Reductions as statements

With the rows of a statement as its scope, a value is compiled to the same expression as without a scope, except that
its outermost reductions are statements of their own.

* `Sql.Expr.inlined`: an expression with the values of statements in the place of the statements.
* `Compiler.map_inlined_lower`: a value in a scope is compiled to the value without a scope once its statements are
  replaced, and fails with the same errors.
* `Compiler.lower_scalarSubqueries`: the compiler that is used in a scope against the one that it delegates to.
-/

namespace SqlPlan

open Sql

namespace Sql

/-! ### Statements replaced by their values -/

mutual

/-- Every statement for a single value is replaced by the one expression that it projects. -/
def Expr.inlined : Expr → Expr
  | .cast expr target => .cast expr.inlined target
  | .binary left op right => .binary left.inlined op right.inlined
  | .not expr => .not expr.inlined
  | .negate expr => .negate expr.inlined
  | .isNull expr negated => .isNull expr.inlined negated
  | .call ⟨name, args, order, within, filter⟩ =>
    .call ⟨name, inlinedList args, inlinedKeys order, inlinedKeys within, inlinedOption filter⟩
  | .case operand branches default =>
    .case (inlinedOption operand) (inlinedBranches branches) (inlinedOption default)
  | .interval value unit => .interval value.inlined unit
  | .subscript expr index => .subscript expr.inlined index
  | .subquery query =>
    match query.projection with
    | [item] => item.expr
    | _ => .subquery query
  | .star => .star
  | .column name => .column name
  | .literal text => .literal text
  | .keyword text => .keyword text

def inlinedList : List Expr → List Expr
  | [] => []
  | e :: es => e.inlined :: inlinedList es

def inlinedOption : Option Expr → Option Expr
  | none => none
  | some e => some e.inlined

def inlinedBranches : List (Branch Expr) → List (Branch Expr)
  | [] => []
  | ⟨condition, result⟩ :: bs => ⟨condition.inlined, result.inlined⟩ :: inlinedBranches bs

def inlinedKeys : List (SortKey Expr) → List (SortKey Expr)
  | [] => []
  | ⟨expr, ascending⟩ :: keys => ⟨expr.inlined, ascending⟩ :: inlinedKeys keys

end

private theorem inlinedList_of_forall₂ {es es' : List Expr} (h : List.Forall₂ (fun e e' => e.inlined = e') es es') :
    inlinedList es = es' := by
  induction h with
  | nil => rfl
  | cons head _ ih => rw [inlinedList, head, ih]

private theorem inlinedOption_of_rel {o o' : Option Expr} (h : Option.Rel (fun e e' => e.inlined = e') o o') :
    inlinedOption o = o' := by
  cases h with
  | none => rfl
  | some head => rw [inlinedOption, head]

private theorem inlinedBranches_of_forall₂ {bs bs' : List (Branch Expr)}
    (h : List.Forall₂ (fun b b' => b.condition.inlined = b'.condition ∧ b.result.inlined = b'.result) bs bs') :
    inlinedBranches bs = bs' := by
  induction h with
  | nil => rfl
  | @cons b b' _ _ head _ ih =>
    obtain ⟨condition, result⟩ := b
    rw [inlinedBranches, head.1, head.2, ih]

/-- An expression and the one that it becomes. -/
private theorem Expr.inlined_congruence : Expr.Congruence fun e e' => e.inlined = e' where
  literal _ := rfl
  cast h target := by rw [inlined, h]
  binary h op hf := by rw [inlined, h, hf]
  not h := by rw [inlined, h]
  negate h := by rw [inlined, h]
  isNull h negated := by rw [inlined, h]
  interval h unit := by rw [inlined, h]
  apply name _ _ h := by
    rw [Expr.apply, inlined, inlinedList_of_forall₂ h]
    rfl
  case hoperand hbranches hdefault := by
    rw [inlined, inlinedOption_of_rel hoperand, inlinedBranches_of_forall₂ hbranches,
      inlinedOption_of_rel (.some hdefault)]

private theorem Expr.eq_congruence : Expr.Congruence Eq where
  literal _ := rfl
  cast h target := by rw [h]
  binary h op hf := by rw [h, hf]
  not h := by rw [h]
  negate h := by rw [h]
  isNull h negated := by rw [h]
  interval h unit := by rw [h]
  apply name es es' h := by
    obtain rfl : es = es' := by rwa [List.forall₂_eq_eq_eq] at h
    rfl
  case {operand operand' bs bs' e e'} hoperand hbranches hdefault := by
    obtain rfl : operand = operand' := by
      cases hoperand with
      | none => rfl
      | some h => rw [h]
    obtain rfl : bs = bs' := by
      have hbs : List.Forall₂ Eq bs bs' := hbranches.imp fun b b' h => by cases b; cases b'; simp_all
      rwa [List.forall₂_eq_eq_eq] at hbs
    rw [hdefault]

private theorem inlinedKeys_eq_self {keys : List (SortKey Expr)} (h : ∀ key ∈ keys, key.expr.inlined = key.expr) :
    inlinedKeys keys = keys := by
  induction keys with
  | nil => rfl
  | cons key keys ih =>
    obtain ⟨hkey, hkeys⟩ := List.forall_mem_cons.1 h
    obtain ⟨expr, ascending⟩ := key
    rw [inlinedKeys, hkey, ih hkeys]

private theorem inlinedOption_eq_self {o : Option Expr} (h : ∀ e ∈ o, e.inlined = e) : inlinedOption o = o := by
  cases o with
  | none => rfl
  | some e => rw [inlinedOption, h e rfl]

namespace Expr

variable {e : Expr}

private theorem inlined_eq_self_of_operands (hne : ∀ q, e ≠ .subquery q) (h : ∀ k ∈ e.operands, k.inlined = k) :
    e.inlined = e := by
  cases e with
  | star | column | literal | keyword => rfl
  | cast | not | negate | isNull | interval | subscript => rw [inlined, h _ (by simp [operands])]
  | binary => rw [inlined, h _ (by simp [operands]), h _ (by simp [operands])]
  | call function =>
    obtain ⟨name, args, order, within, filter⟩ := function
    obtain ⟨hargs, horder, hwithin, hfilter⟩ := Call.forall_mem_operands.1 h
    rw [inlined, inlinedList_of_forall₂ (List.forall₂_same.2 hargs), inlinedKeys_eq_self horder,
      inlinedKeys_eq_self hwithin, inlinedOption_eq_self hfilter]
  | case operand branches default =>
    obtain ⟨hoperand, hbranches, hdefault⟩ := forall_mem_operands_case.1 h
    rw [inlined, inlinedOption_eq_self hoperand, inlinedBranches_of_forall₂ (List.forall₂_same.2 hbranches),
      inlinedOption_eq_self hdefault]
  | subquery q => exact absurd rfl (hne q)

/-- An expression without statements stays as it is. -/
private theorem inlined_eq_self (h : ∀ q, ¬e.Mentions (.subquery q)) : e.inlined = e := by
  refine (tree_induction (P := fun e => (∀ q, ¬e.Mentions (.subquery q)) → e.inlined = e) (Q := fun _ => True)
    (fun e ih _ h => ?_) (fun _ _ _ => True.intro)).1 e h
  refine inlined_eq_self_of_operands ?_ fun k hk => ih k hk fun q hq => h q (.head hk hq)
  rintro q rfl
  exact h q .refl

end Expr

end Sql

/-! ### Values in a scope -/

namespace Compiler

variable (c : Compiler)

private theorem lower_none_inlined (n : Node) : Returns (fun e => e.inlined = e) (c.lower none n) :=
  (c.lower_none_singles n).mono fun _ he => Expr.inlined_eq_self fun q hq => absurd hq (he q)

/-- In a scope, a value is compiled to what it is without one, up to statements in the place of reductions. -/
theorem map_inlined_lower (source : Select) (n : Node) :
    (c.lower (some source) n).map Expr.inlined = c.lower none n := by
  refine Agree.map_eq_right (c.lower_related Expr.inlined_congruence (H := fun _ => True)
    (fun _ _ _ _ _ _ => True.intro) (fun n _ => c.lower_none_inlined n) (fun n _ hreduction => ?_) n True.intro)
  rw [c.lower_reduction hreduction (some source)]
  cases c.lower none n with
  | ok e => exact .ok rfl
  | error e => exact .error e

/-- All statements in a value that is compiled in a scope are statements over the scope. -/
theorem lower_subqueries (source : Select) (n : Node) :
    Returns (fun e => ∀ q, e.Mentions (.subquery q) → ∃ k, q = { source with projection := [⟨k, none⟩] })
      (c.lower (some source) n) := by
  intro e he q hq
  cases c.lower_onlyRefers (some source) n e he _ rfl hq with
  | @single _ source' call _ hscope _ =>
    obtain rfl := Option.some.inj hscope
    exact ⟨call, rfl⟩

/-- Nothing that is compiled in a scope calls an aggregate, except inside of statements. -/
theorem lower_mentions_isAggregate (source : Select) (n : Node) :
    Returns (fun e => ∀ k, e.Mentions k → k.isAggregate = false) (c.lower (some source) n) := by
  refine lower_closes (fun e _ haggregate hoperands k hk => ?_) (H := fun _ => True)
    (fun _ _ _ _ _ _ => True.intro) (fun relation name type shape _ k hk => ?_) (fun m e _ _ _ _ k hk => ?_) n
    True.intro
  · rcases Expr.mentions_iff.1 hk with rfl | ⟨operand, hoperand, hk⟩
    · exact haggregate
    · exact hoperands operand hoperand k hk
  · obtain rfl := Expr.eq_of_mentions_of_operands hk rfl
    rfl
  · obtain rfl := Expr.eq_of_mentions_of_operands hk rfl
    rfl

/-- A value without reductions is the same in all scopes. -/
theorem lower_eq_of_not_hasReduction (scope : Option Select) {n : Node} (h : n.hasReduction = false) :
    c.lower scope n = c.lower none n := by
  have hsame : (c.lower scope n).map id = c.lower none n := by
    refine Agree.map_eq_right (c.lower_related Expr.eq_congruence (H := fun n => n.hasReduction = false)
      (fun n hn hreduction hvalue m hm => ?_) (fun _ _ _ _ => rfl) (fun n hn hreduction => ?_) n h)
    · exact (Node.hasReduction_eq_false_iff hvalue hreduction).1 hn m (Node.mem_lowered_of_mem_arguments hm)
    · simp [Node.hasReduction_of_isReduction hreduction] at hn
  rwa [Except.map_id] at hsame

/-- Without a scope, a value is compiled by the compiler itself. -/
theorem lower_values : c.values.lower = c.lower none :=
  rfl

/-- The scope of a value is what decides on the compiler that is asked. -/
theorem lower_values_scalarSubqueries (source : Select) :
    (c.values.scalarSubqueries source).lower = c.lower (some source) :=
  rfl

/-- The compiler of values that are taken row by row differs from the compiler that it is made of around reductions
only. It fails on the same values with the same errors, and otherwise comes to the same expression, in which
reductions are replaced by statements over the rows of the parent, and nothing else is. -/
theorem lower_scalarSubqueries (parent : Select) (n : Node) :
    (∀ error, (c.values.scalarSubqueries parent.scalarSource).lower n = .error error ↔
      c.values.lower n = .error error) ∧
      ∀ e, (c.values.scalarSubqueries parent.scalarSource).lower n = .ok e →
        c.values.lower n = .ok e.inlined ∧
        (∀ q, e.Mentions (.subquery q) → ∃ k, q = { parent.scalarSource with projection := [⟨k, none⟩] }) ∧
        (∀ k, e.Mentions k → k.isAggregate = false) ∧
        (n.hasReduction = false → c.values.lower n = .ok e) := by
  rw [lower_values, lower_values_scalarSubqueries]
  refine ⟨fun error => ?_, fun e he => ⟨?_, c.lower_subqueries _ n e he, c.lower_mentions_isAggregate _ n e he,
    fun hreduction => ?_⟩⟩
  · rw [← c.map_inlined_lower parent.scalarSource n]
    cases c.lower (some parent.scalarSource) n <;> simp [Except.map]
  · rw [← c.map_inlined_lower parent.scalarSource n, he]
    rfl
  · rw [← c.lower_eq_of_not_hasReduction (some parent.scalarSource) hreduction, he]

/-- Over a table, the greatest value in a difference is a statement, and the other operand stays as it is. -/
theorem lower_scalarSubqueries_shortfall :
    ∃ e, (base.values.scalarSubqueries (Select.ofTable "t").scalarSource).lower Node.shortfall = .ok e ∧
      e.text = "((SELECT MAX(\"x\") FROM \"t\") - \"x\")" ∧ e.inlined.text = "(MAX(\"x\") - \"x\")" ∧
      base.values.lower Node.shortfall = .ok e.inlined ∧ ∀ k, e.Mentions k → k.isAggregate = false :=
  have h := (base.lower_scalarSubqueries (Select.ofTable "t") Node.shortfall).2 _ rfl
  ⟨_, rfl, by decide, by decide, h.1, h.2.2.1⟩

end Compiler

end SqlPlan
