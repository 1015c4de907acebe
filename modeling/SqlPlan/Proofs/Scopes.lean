import SqlPlan.Proofs.Clauses
import SqlPlan.Proofs.Correspondence
import SqlPlan.Proofs.Values

/-!
# Values in scopes

A value that is compiled in a scope has its outermost reductions as statements over the rows of the scope. What two
scopes make of a value is related as are the reductions in it (`lower_related`), so that two scopes that give every
reduction the same value give every compiled value the same meaning (`lower_agree`). Nothing that is compiled in a
scope calls an aggregate itself (`lower_rowwise`).
-/

namespace SqlPlan

open Sql

/-- The expression reads one row at a time: no aggregate is called in it, and it is not the row itself. -/
structure Sql.Expr.Rowwise (e : Expr) : Prop where
  aggregates : e.aggregates = false
  ne_star : e ≠ .star

namespace Compiler

variable (c : Compiler)

/-! ### Values are no rows -/

private theorem Spelling.ne_star {e : Expr} (h : Spelling e) : e ≠ .star := by
  cases h <;> simp

private theorem castTo_ne_star (e : Expr) (type : DataType) : Returns (· ≠ .star) (c.handlers.castTo e type) :=
  (Returns.trivial _).bind fun _ _ => Returns.ok (by simp)

private theorem generated_ne_star (source : Generator) : Returns (· ≠ .star) (c.handlers.generated source) := by
  intro e he
  rcases c.generated_cases he with ⟨text, -, rfl⟩ | ⟨name, -, rfl⟩ | ⟨name, -, rfl⟩ <;> simp [Expr.apply]

private theorem unary_ne_star (op : UnaryOp) (e : Expr) : c.handlers.unary op e ≠ .star := by
  cases op with
  | stringLength =>
    obtain ⟨name, -, hlength⟩ := c.exists_stringLength
    simp [hlength, Expr.apply]
  | _ => simp [Handlers.unary, Expr.apply]

private theorem truncation_ne_star (kind : Kind) (e : Expr) (unit : TemporalUnit) :
    Returns (· ≠ .star) (c.truncation kind e unit) := by
  unfold truncation
  split
  · exact Returns.ok (by simp [Expr.apply])
  · exact Returns.error _

private theorem intervalOf_ne_star (e : Expr) (shape : Shape) (unit : TemporalUnit) :
    Returns (· ≠ .star) (c.intervalOf e shape unit) := by
  unfold intervalOf
  split
  · exact Returns.error _
  · split
    · exact Returns.ok (by simp)
    · exact Returns.ok (by simp)
    · exact Returns.error _

private theorem inScope_ne_star {e : Expr} (h : e.isReduction = true) (scope : Option Select) :
    e.inScope scope ≠ .star := by
  cases scope with
  | none =>
    rintro rfl
    simp [Expr.isReduction] at h
  | some source => simp [Expr.inScope]

/-- No value is compiled to the row itself. -/
theorem lower_ne_star (scope : Option Select) (n : Node) : Returns (· ≠ .star) (c.lower scope n) := by
  refine c.lower_induction (motive := fun _ _ e => e ≠ .star) (fun {scope n e} hmakes => ?_) scope n
  cases hmakes with
  | literal he => exact (c.literal_spelling _ _ _ he).ne_star
  | null he => exact (c.nullLiteral_spelling _ _ he).ne_star
  | generate he => exact c.generated_ne_star _ _ he
  -- a cast to the type of null leaves the value as it is
  | castNull _ he => exact he.2.2
  | cast _ hf => exact c.castTo_ne_star _ _ _ hf
  | unary => exact c.unary_ne_star _ _
  | truncate _ hf => exact c.truncation_ne_star _ _ _ _ hf
  | interval _ hf => exact c.intervalOf_ne_star _ _ _ _ hf
  | reduce _ _ hcall => exact inScope_ne_star (c.reduction_isReduction _ _ _ _ _ hcall) _
  | pick => exact inScope_ne_star (c.pick_isReduction _ _ _ _) _
  | correlate => exact inScope_ne_star (c.correlation_isReduction _ _ _) _
  | field | binary | simpleCase | searchedCase | dateFromYmd => simp [Expr.apply]

end Compiler

/-! ### Compiling in two scopes -/

/-- A relation between expressions that carries over from operands to what is compiled of them. -/
structure Sql.Expr.Congruence (R : Expr → Expr → Prop) : Prop where
  literal (text : String) : R (.literal text) (.literal text)
  cast {e e' : Expr} (h : R e e') (target : String) : R (.cast e target) (.cast e' target)
  binary {e e' f f' : Expr} (h : R e e') (op : String) (hf : R f f') : R (.binary e op f) (.binary e' op f')
  not {e e' : Expr} (h : R e e') : R (.not e) (.not e')
  negate {e e' : Expr} (h : R e e') : R (.negate e) (.negate e')
  isNull {e e' : Expr} (h : R e e') (negated : Bool) : R (.isNull e negated) (.isNull e' negated)
  interval {e e' : Expr} (h : R e e') (unit : String) : R (.interval e unit) (.interval e' unit)
  apply (name : String) {es es' : List Expr} (h : List.Forall₂ R es es') : R (.apply name es) (.apply name es')
  case {operand operand' : Option Expr} {bs bs' : List (Branch Expr)} {e e' : Expr}
    (hoperand : Option.Rel R operand operand')
    (hbranches : List.Forall₂ (fun b b' => R b.condition b'.condition ∧ R b.result b'.result) bs bs')
    (hdefault : R e e') : R (.case operand bs (some e)) (.case operand' bs' (some e'))

namespace Compiler

variable (c : Compiler) {R : Expr → Expr → Prop} {e e' : Expr}

private theorem castTo_related (hR : Expr.Congruence R) (h : R e e') (type : DataType) :
    Agree R (c.handlers.castTo e type) (c.handlers.castTo e' type) := by
  refine (Tracks.refl (fun _ => rfl) (c.typeName type)).bind fun name name' _ _ hname => ?_
  subst hname
  exact .ok (hR.cast h name)

private theorem unary_related (hR : Expr.Congruence R) (h : R e e') (op : UnaryOp) :
    R (c.handlers.unary op e) (c.handlers.unary op e') := by
  have hargs : List.Forall₂ R [e] [e'] := .cons h .nil
  cases op with
  | not => exact hR.not h
  | negate => exact hR.negate h
  | isNull | notNull => exact hR.isNull h _
  | lowercase | uppercase => exact hR.apply _ hargs
  | stringLength =>
    obtain ⟨name, -, hlength⟩ := c.exists_stringLength
    rw [hlength, hlength]
    exact hR.apply name hargs

private theorem truncation_related (hR : Expr.Congruence R) (h : R e e') (kind : Kind) (unit : TemporalUnit) :
    Agree R (c.truncation kind e unit) (c.truncation kind e' unit) := by
  unfold truncation
  split
  · exact .ok (hR.apply _ (.cons (hR.literal _) (.cons h .nil)))
  · exact .error _

private theorem intervalOf_related (hR : Expr.Congruence R) (h : R e e') (shape : Shape) (unit : TemporalUnit) :
    Agree R (c.intervalOf e shape unit) (c.intervalOf e' shape unit) := by
  unfold intervalOf
  split
  · exact .error _
  · split
    · exact .ok (hR.interval h _)
    · exact .ok (hR.binary h _ (hR.interval (hR.literal _) _))
    · exact .error _

private theorem corresponds_of_congruence (hR : Expr.Congruence R) : Corresponds c c False R where
  supported _ := .refl (fun _ => True.intro) _
  castTo h type := c.castTo_related hR h type
  binary h op hf := hR.binary h op.symbol hf
  unary h op := c.unary_related hR h op
  case hoperand hbranches hdefault := hR.case hoperand hbranches hdefault
  truncation h kind unit := c.truncation_related hR h kind unit
  dateFromYmd h hf hk := hR.apply _ (.cons h (.cons hf (.cons hk .nil)))
  intervalOf h shape unit := c.intervalOf_related hR h shape unit

/-- Compiled in two scopes, a value is related as the reductions in it are, or fails with the same error. -/
theorem lower_related (hR : Expr.Congruence R) {scope scope' : Option Select} {H : Node → Prop}
    (inherited : ∀ n : Node, H n → n.op.isReduction = false → n.op.isRelation = false → ∀ m ∈ n.op.arguments, H m)
    (leaf : ∀ n : Node, n.op.arguments = [] → Returns (fun e => R e e) (c.lower none n))
    (reduction : ∀ n : Node, H n → n.op.isReduction = true → Agree R (c.lower scope n) (c.lower scope' n))
    (n : Node) (hn : H n) : Agree R (c.lower scope n) (c.lower scope' n) := by
  refine lower_tracks (c.corresponds_of_congruence hR) Node.counterpart_id
    (G := fun s s' => s = scope ∧ s' = scope') inherited (fun n hleaf s s' => ?_) ?_ n hn ⟨rfl, rfl⟩
  · rw [id, c.lower_leaf hleaf s, c.lower_leaf hleaf s']
    exact .of_returns (leaf n hleaf)
  · rintro n _ _ hn hreduction ⟨rfl, rfl⟩ -
    exact reduction n hn hreduction

end Compiler

/-! ### Expressions of the same meaning -/

section

variable {V : Type} [DecidableEq V] (I : Interpretation V) (db : String → List (Row V))

namespace Sql

/-- The expressions have the same value everywhere, and either both call aggregates or none does. -/
structure Expr.Same (e e' : Expr) : Prop where
  value : ∀ ctx, e.value I db ctx = e'.value I db ctx
  aggregates : e.aggregates = e'.aggregates

private theorem Expr.Same.refl (e : Expr) : Expr.Same I db e e := ⟨fun _ => rfl, rfl⟩

/-- Branches of the same meaning. -/
def SameBranch (b b' : Branch Expr) : Prop :=
  Expr.Same I db b.condition b'.condition ∧ Expr.Same I db b.result b'.result

variable {I db}

/-- Expressions of the same values have the same list of values. -/
theorem listValues_congr {es es' : List Expr} (h : List.Forall₂ (Expr.Same I db) es es') (ctx : Context V) :
    listValues I db es ctx = listValues I db es' ctx := by
  induction h with
  | nil => rfl
  | cons head _ ih => rw [listValues, listValues, head.value, ih]

private theorem listAggregates_congr {es es' : List Expr} (h : List.Forall₂ (Expr.Same I db) es es') :
    listAggregates es = listAggregates es' := by
  induction h with
  | nil => rfl
  | cons head _ ih => rw [listAggregates, listAggregates, head.aggregates, ih]

private theorem branchValues_congr {bs bs' : List (Branch Expr)} (h : List.Forall₂ (SameBranch I db) bs bs')
    (ctx : Context V) : branchValues I db bs ctx = branchValues I db bs' ctx := by
  induction h with
  | nil => rfl
  | cons head _ ih => rw [branchValues, branchValues, head.1.value, head.2.value, ih]

private theorem branchesAggregate_congr {bs bs' : List (Branch Expr)} (h : List.Forall₂ (SameBranch I db) bs bs') :
    branchesAggregate bs = branchesAggregate bs' := by
  induction h with
  | nil => rfl
  | cons head _ ih => rw [branchesAggregate, branchesAggregate, head.1.aggregates, head.2.aggregates, ih]

namespace Expr.Same

variable {e e' f f' : Expr}

private theorem cast (h : Expr.Same I db e e') (target : String) :
    Expr.Same I db (.cast e target) (.cast e' target) :=
  ⟨fun ctx => by rw [Expr.value, Expr.value, h.value], by rw [Expr.aggregates, Expr.aggregates, h.aggregates]⟩

private theorem binary (h : Expr.Same I db e e') (op : String) (hf : Expr.Same I db f f') :
    Expr.Same I db (.binary e op f) (.binary e' op f') :=
  ⟨fun ctx => by rw [Expr.value, Expr.value, h.value, hf.value],
    by rw [Expr.aggregates, Expr.aggregates, h.aggregates, hf.aggregates]⟩

private theorem apply (name : String) {es es' : List Expr} (h : List.Forall₂ (Expr.Same I db) es es') :
    Expr.Same I db (.apply name es) (.apply name es') := by
  refine ⟨fun ctx => ?_, ?_⟩
  · have hargs : ∀ ctx, listValues I db es ctx = listValues I db es' ctx := listValues_congr h
    simp only [Expr.apply, Expr.value, callValue, hargs]
  · simp only [Expr.apply, Expr.aggregates, callAggregates, listAggregates_congr h]

private theorem case {bs bs' : List (Branch Expr)} {operand operand' : Option Expr}
    (hoperand : Option.Rel (Expr.Same I db) operand operand') (hbranches : List.Forall₂ (SameBranch I db) bs bs')
    (hdefault : Expr.Same I db e e') : Expr.Same I db (.case operand bs (some e)) (.case operand' bs' (some e')) := by
  have hvalue : ∀ ctx, optionValue I db operand ctx = optionValue I db operand' ctx := by
    intro ctx
    cases hoperand with
    | none => rfl
    | some h => exact congrArg some (h.value ctx)
  have haggregates : optionAggregates operand = optionAggregates operand' := by
    cases hoperand with
    | none => rfl
    | some h => exact h.aggregates
  refine ⟨fun ctx => ?_, ?_⟩
  · rw [Expr.value, Expr.value, hvalue, branchValues_congr hbranches, optionValue, optionValue, hdefault.value]
  · rw [Expr.aggregates, Expr.aggregates, haggregates, branchesAggregate_congr hbranches, optionAggregates,
      optionAggregates, hdefault.aggregates]

/-- Expressions of the same meaning have the same meaning in larger ones. -/
private theorem congruence : Expr.Congruence (Expr.Same I db) where
  literal _ := Expr.Same.refl I db _
  cast h target := h.cast target
  binary h op hf := h.binary op hf
  not h := ⟨fun ctx => by simp only [Expr.value, h.value], by simp only [Expr.aggregates, h.aggregates]⟩
  negate h := ⟨fun ctx => by simp only [Expr.value, h.value], by simp only [Expr.aggregates, h.aggregates]⟩
  isNull h _ := ⟨fun ctx => by simp only [Expr.value, h.value], by simp only [Expr.aggregates, h.aggregates]⟩
  interval h _ := ⟨fun ctx => by simp only [Expr.value, h.value], by simp only [Expr.aggregates, h.aggregates]⟩
  apply name _ _ h := apply name h
  case hoperand hbranches hdefault := case hoperand hbranches hdefault

end Expr.Same

end Sql

/-! ### Scopes that agree -/

/-- A reduction has the same value over the rows of both scopes. -/
inductive ScopesAgree : Option Select → Option Select → Prop
  | none : ScopesAgree none none
  | some {s s' : Select}
      (single : ∀ e : Expr, e.isReduction = true →
        I.single (({ s with projection := [⟨e, none⟩] } : Select).rows I db) =
          I.single (({ s' with projection := [⟨e, none⟩] } : Select).rows I db)) :
      ScopesAgree (some s) (some s')

variable {I db}

private theorem ScopesAgree.inScope {scope scope' : Option Select} (h : ScopesAgree I db scope scope') {e : Expr}
    (he : e.isReduction = true) : Expr.Same I db (e.inScope scope) (e.inScope scope') := by
  cases h with
  | none => exact Expr.Same.refl I db e
  | some single =>
    refine ⟨fun ctx => ?_, rfl⟩
    rw [Expr.inScope, Expr.inScope, Expr.value, Expr.value]
    exact single e he

namespace Compiler

variable (c : Compiler)

/-- Compiled in two scopes that agree, a value has the same meaning, or fails with the same error. -/
theorem lower_agree {scope scope' : Option Select} (h : ScopesAgree I db scope scope') (n : Node) :
    Agree (Expr.Same I db) (c.lower scope n) (c.lower scope' n) := by
  refine c.lower_related Expr.Same.congruence (H := fun _ => True) (fun _ _ _ _ _ _ => True.intro)
    (fun _ _ e _ => Expr.Same.refl I db e) (fun n _ hreduction => ?_) n True.intro
  -- the call of the aggregate is the same in both scopes
  rw [c.lower_reduction hreduction scope, c.lower_reduction hreduction scope']
  have hcall := (c.lower_isReduction hreduction).mono fun e he => And.intro (Eq.refl e) he
  refine (Tracks.of_returns (R := fun e e' => e = e' ∧ e.isReduction = true) hcall).map ?_
  rintro e _ ⟨rfl, he⟩
  exact h.inScope he

end Compiler

end

/-! ### Reading row by row -/

namespace Node

private theorem anyHasReduction_eq_any (ns : List Node) : anyHasReduction ns = ns.any (·.hasReduction) := by
  induction ns with
  | nil => rfl
  | cons n ns ih => rw [anyHasReduction, ih, List.any_cons]

/-- A reduction has a reduction in it. -/
theorem hasReduction_of_isReduction {n : Node} (h : n.op.isReduction = true) : n.hasReduction = true := by
  obtain ⟨op, type, shape⟩ := n
  rw [hasReduction]
  cases op with
  | reduce | pick | correlate => rfl
  | _ => cases h

/-- A value other than a reduction has one in it if and only if one of its inputs has. -/
theorem hasReduction_eq_false_iff {n : Node} (hrelation : n.op.isRelation = false)
    (hreduction : n.op.isReduction = false) : n.hasReduction = false ↔ ∀ m ∈ n.lowered, m.hasReduction = false := by
  obtain ⟨op, type, shape⟩ := n
  rw [hasReduction]
  cases op with
  | reduce | pick | correlate => cases hreduction
  | table | project | filter | aggregate | sort | limit => cases hrelation
  | _ => simp [opHasReduction, anyHasReduction_eq_any, lowered, Op.children, or_imp, forall_and, and_assoc]

end Node

namespace Sql

private theorem listAggregates_eq_false {es : List Expr} :
    listAggregates es = false ↔ ∀ e ∈ es, e.aggregates = false := by
  induction es with
  | nil => simp [listAggregates]
  | cons e es ih => rw [listAggregates, Bool.or_eq_false_iff, ih, List.forall_mem_cons]

private theorem keysAggregate_eq_false {keys : List (SortKey Expr)} :
    keysAggregate keys = false ↔ ∀ e ∈ keys.map (·.expr), e.aggregates = false := by
  induction keys with
  | nil => simp [keysAggregate]
  | cons key keys ih => rw [keysAggregate, Bool.or_eq_false_iff, ih, List.map_cons, List.forall_mem_cons]

private theorem optionAggregates_eq_false {e : Option Expr} :
    optionAggregates e = false ↔ ∀ k ∈ e.toList, k.aggregates = false := by
  cases e <;> simp [optionAggregates]

private theorem branchesAggregate_eq_false {bs : List (Branch Expr)} :
    branchesAggregate bs = false ↔ ∀ b ∈ bs, b.condition.aggregates = false ∧ b.result.aggregates = false := by
  induction bs with
  | nil => simp [branchesAggregate]
  | cons b bs ih => rw [branchesAggregate, Bool.or_eq_false_iff, Bool.or_eq_false_iff, ih, List.forall_mem_cons]

/-- An expression other than an aggregate aggregates just if an operand does. -/
theorem Expr.aggregates_iff_operands {e : Expr} (hcall : e.isAggregate = false) :
    e.aggregates = false ↔ ∀ k ∈ e.operands, k.aggregates = false := by
  cases e with
  | call function =>
    obtain ⟨name, args, order, within, filter⟩ := function
    have hname : aggregateNames.contains name = false := hcall
    simp only [aggregates, callAggregates, hname, operands, Call.operands, Bool.or_eq_false_iff,
      listAggregates_eq_false, keysAggregate_eq_false, optionAggregates_eq_false, List.forall_mem_append, true_and]
  | case operand branches default =>
    rw [forall_mem_operands_case]
    simp only [aggregates, Bool.or_eq_false_iff, optionAggregates_eq_false, branchesAggregate_eq_false,
      Option.mem_toList, Option.mem_def, and_assoc]
  | _ => simp [aggregates, operands]

end Sql

/-- A value without reductions, or one that is compiled in a scope, is read row by row. -/
theorem Compiler.lower_rowwise (c : Compiler) {scope : Option Select} (n : Node)
    (h : scope.isSome = true ∨ n.hasReduction = false) : Returns Expr.Rowwise (c.lower scope n) := by
  have haggregates : Returns (fun e => e.aggregates = false) (c.lower scope n) := by
    refine lower_closes (H := fun n => scope.isSome = true ∨ n.hasReduction = false)
      (fun e _ hcall => (Expr.aggregates_iff_operands hcall).2) (fun m hm hreduction hvalue k hk => ?_)
      (fun _ _ _ _ _ => rfl) (fun m e hm hreduction _ _ => ?_) n h
    · exact hm.imp_right fun hm => (Node.hasReduction_eq_false_iff hvalue hreduction).1 hm k hk
    · -- a reduction leaves only the case of a scope
      rw [Node.hasReduction_of_isReduction hreduction] at hm
      obtain ⟨source, rfl⟩ := Option.isSome_iff_exists.1 (hm.resolve_right (by simp))
      rfl
  exact fun e he => ⟨haggregates e he, c.lower_ne_star scope n e he⟩

end SqlPlan
