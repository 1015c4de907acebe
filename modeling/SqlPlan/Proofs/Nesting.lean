import SqlPlan.Proofs.Aggregates

/-!
# Aggregates inside of aggregates

Rows are reduced, grouped and sorted by values of single rows, so the value of a reduction can stand in a call of an
aggregate, in `GROUP BY` or in the `ORDER BY` of `*` as a statement of its own only. Predicates, and reductions that
are projected next to values of rows, are compiled in a scope that makes it one. The inputs of reductions, groups and
sort keys have no scope: a reduction in one of them is the call of an aggregate where none can be.

* `lower_aggregates_iff`: without a scope, a value calls no aggregate if and only if there is no reduction in it.
* `lower_allUnnested_iff`: no aggregate is called in a call of another one if and only if no reduction is nested.
* `allUnnested_lowerRelation_iff`: the first operation of a relation with such a reduction, and no operation before
  it, leads to a statement in which an aggregate is called where none can be.
-/

namespace SqlPlan

open Sql

namespace Sql

/-! ### Misplaced aggregates -/

/-- If the expression is the call of an aggregate, no other aggregate is called in it. -/
def Expr.Unnested (e : Expr) : Prop := e.isAggregate = true → ∀ k ∈ e.operands, k.aggregates = false

/-- No aggregate is called in `GROUP BY`, nor in the `ORDER BY` of `*`. -/
structure Select.KeyedByRow (s : Select) : Prop where
  groups : ∀ e ∈ s.groups, e.aggregates = false
  order : s.isStar = true → ∀ key ∈ s.order, key.expr.aggregates = false

abbrev Expr.AllUnnested (e : Expr) : Prop := e.Throughout Unnested Select.KeyedByRow

/-- In the statement and in all statements in it, no aggregate is called in a call of another one, in `GROUP BY` or in
the `ORDER BY` of `*`. -/
abbrev Select.AllUnnested (s : Select) : Prop := s.Throughout Expr.Unnested KeyedByRow

namespace Expr

variable {e : Expr}

private theorem unnested_star : star.Unnested := by simp [Unnested, isAggregate]

private theorem allUnnested_iff_operands (href : e.isReference = false) (hcall : e.isAggregate = false) :
    e.AllUnnested ↔ ∀ k ∈ e.operands, k.AllUnnested := by
  have hsingle : ∀ q, e = .subquery q → q.AllUnnested := by
    rintro q rfl
    cases href
  have hunnested : e.Unnested := fun h => by simp [hcall] at h
  rw [AllUnnested, throughout_iff]
  exact ⟨fun h => h.2.1, fun h => ⟨hunnested, h, hsingle⟩⟩

private theorem allUnnested_iff_reduced (h : e.isReduction = true) :
    e.AllUnnested ↔ (∀ k ∈ e.reduced, k.aggregates = false) ∧ ∀ k ∈ e.reduced, k.AllUnnested := by
  have hcall : ∀ function : Call Expr, aggregateNames.contains function.name = true →
      ((Expr.call function).AllUnnested ↔
        (∀ k ∈ function.operands, k.aggregates = false) ∧ ∀ k ∈ function.operands, k.AllUnnested) := by
    intro function hname
    rw [AllUnnested, throughout_iff]
    exact ⟨fun h => ⟨h.1 hname, h.2.1⟩, fun h => ⟨fun _ => h.1, h.2, by simp⟩⟩
  unfold isReduction at h
  split at h
  · exact hcall _ h
  · rw [allUnnested_iff_operands rfl rfl]
    simpa [operands, reduced] using hcall _ h
  · cases h

end Expr

namespace Select

private theorem keyedByRow_star (source : Source) : (star source).KeyedByRow := ⟨by simp [star], by simp [star]⟩

private theorem order_scalarSource (s : Select) : s.scalarSource.order = [] := by
  rcases s.scalarSource_cases with ⟨-, hsource⟩ | hsource
  · rw [hsource]
  · rw [hsource]
    rfl

variable {s : Select}

private theorem KeyedByRow.wrapUnless (h : s.KeyedByRow) (free : Bool) : (s.wrapUnless free).KeyedByRow :=
  wrapUnless_induction (P := KeyedByRow) (fun _ => h) (keyedByRow_star _)

private theorem AllUnnested.scalarSource (h : s.AllUnnested) : s.scalarSource.AllUnnested :=
  Throughout.scalarSource h Expr.unnested_star (keyedByRow_star _) ⟨h.here.groups, by simp⟩

/-- What an order goes into is `*`, unless the keys are plain columns. -/
private theorem isStar_of_takesOrder (s : Select) {order : List (SortKey Expr)} :
    (s.wrapUnless (s.takesOrder order)).isStar = true ∨ ∀ key ∈ order, key.expr.aggregates = false := by
  cases hfree : s.takesOrder order with
  | false => exact .inl rfl
  | true =>
    simp only [takesOrder, Bool.and_eq_true, Bool.or_eq_true, List.all_eq_true] at hfree
    refine hfree.2.imp id fun hcolumns key hkey => ?_
    have hcolumn := hcolumns key hkey
    split at hcolumn
    · rename_i heq
      rw [heq, Expr.aggregates]
    · cases hcolumn

end Select

end Sql

/-! ### Nested reductions -/

namespace Node

/-- There is no reduction in the inputs of a reduction. -/
def Flat (n : Node) : Prop :=
  ∀ m, n.LoweredWith m → m.op.isReduction = true → ∀ k ∈ m.lowered, k.hasReduction = false

private theorem flat_iff {n : Node} :
    n.Flat ↔ (n.op.isReduction = true → ∀ k ∈ n.lowered, k.hasReduction = false) ∧ ∀ m ∈ n.lowered, m.Flat :=
  forall_loweredWith

end Node

namespace Compiler

variable (c : Compiler)

/-- Without a scope, a value calls an aggregate if and only if there is a reduction in it. -/
theorem lower_aggregates_iff {n : Node} (hn : n.Valid) :
    Returns (fun e => e.aggregates = false ↔ n.hasReduction = false) (c.lower none n) := by
  refine lower_iff_of_operands (G := fun scope => scope = none) (fun _ _ => Expr.aggregates_iff_operands)
    (fun name => rfl) (fun m => Node.hasReduction_eq_false_iff) (fun m scope e hm hreduction hscope _ he => ?_)
    hn rfl rfl
  obtain rfl := hscope
  rw [Expr.inScope, Expr.aggregates_of_isReduction (c.lower_isReduction hreduction e he),
    Node.hasReduction_of_isReduction hreduction]

/-- A reduction leads to nested aggregates if and only if it is one of nested reductions. -/
private theorem reduction_allUnnested_iff {n : Node} {e : Expr} (hn : n.Valid) (hreduction : n.op.isReduction = true)
    (hinput : ∀ m ∈ n.lowered, Returns (Expr.AllUnnested · ↔ m.Flat) (c.lower none m)) (he : c.lower none n = .ok e) :
    e.AllUnnested ↔ n.Flat := by
  have haggregates : (∀ k ∈ e.reduced, k.aggregates = false) ↔ ∀ m ∈ n.lowered, m.hasReduction = false := by
    refine lower_reduced_iff (fun _ _ hcall _ => Expr.aggregates_iff_operands hcall) hreduction (fun m hm => ?_) e he
    exact c.lower_aggregates_iff (hn.inputs m (Node.mem_children_of_mem_lowered hm))
  have hunnested : (∀ k ∈ e.reduced, k.AllUnnested) ↔ ∀ m ∈ n.lowered, m.Flat :=
    lower_reduced_iff (fun _ href hcall _ => Expr.allUnnested_iff_operands href hcall) hreduction hinput e he
  rw [Expr.allUnnested_iff_reduced (c.lower_isReduction hreduction e he), haggregates, hunnested, Node.flat_iff,
    forall_prop_of_true hreduction]

/-- No aggregate is called in a call of another one if and only if no reduction is in an input of another one. -/
theorem lower_allUnnested_iff {n : Node} (hn : n.Valid) {scope : Option Select}
    (hscope : ∀ source ∈ scope, source.AllUnnested ∧ source.order = []) :
    Returns (Expr.AllUnnested · ↔ n.Flat) (c.lower scope n) := by
  refine lower_iff_of_operands (G := fun scope => ∀ source ∈ scope, source.AllUnnested ∧ source.order = [])
    (fun _ => Expr.allUnnested_iff_operands) (fun name => ?_) (fun m _ hreduction => ?_)
    (fun m scope e hm hreduction hscope hinput he => ?_) hn (by simp) hscope
  · exact Expr.throughout_iff.2 ⟨by simp [Expr.Unnested, Expr.isAggregate], by simp [Expr.operands], by simp⟩
  · rw [Node.flat_iff]
    simp [hreduction]
  · rw [← c.reduction_allUnnested_iff hm hreduction hinput he]
    cases scope with
    | none => rfl
    | some source =>
      obtain ⟨hsource, horder⟩ := hscope source rfl
      exact hsource.single_iff (by simp [Expr.Unnested, Expr.isAggregate]) ⟨hsource.here.groups, by simp [horder]⟩

end Compiler

/-! ### Operations on relations -/

namespace Op

/-- The values that an operation groups or sorts by. -/
def keys {α : Type} : Op α → List α
  | .aggregate _ groups _ => groups.map (·.value)
  | .sort _ keys => keys.map (·.expr)
  | _ => []

/-- All reductions in the arguments of an operation can be compiled where they stand: none is in an input of another
one, in a group or in a sort key. -/
structure Flat (op : Op Node) : Prop where
  arguments : ∀ m ∈ op.arguments, m.Flat
  keys : ∀ m ∈ op.keys, m.hasReduction = false

private theorem flat_iff {op : Op Node} :
    op.Flat ↔ (∀ m ∈ op.keys, m.hasReduction = false) ∧ ∀ m ∈ op.arguments, m.Flat :=
  ⟨fun h => ⟨h.keys, h.arguments⟩, fun h => ⟨h.2, h.1⟩⟩

/-- Keys are among the arguments. -/
theorem mem_arguments_of_mem_keys {α : Type} {op : Op α} {a : α} (h : a ∈ op.keys) : a ∈ op.arguments := by
  cases op with
  | aggregate parent groups metrics =>
    rw [arguments, List.map_append]
    exact List.mem_append_left _ h
  | sort parent keys => exact h
  | _ => cases h

end Op

namespace Compiler

variable (c : Compiler) {n : Node} {s : Select}

variable {c} in
private theorem Lowers.lineage {parent : Node} (h : c.Lowers n s) (hparent : n.op.relation? = some parent) :
    n.lineage = n :: parent.lineage := by
  cases h <;> cases hparent <;> rw [Node.lineage]

variable {c} in
/-- The rules give one statement. -/
theorem Lowers.unique {s' : Select} (h : c.Lowers n s) (h' : c.Lowers n s') : s = s' := by
  induction h generalizing s' with
  | table name schema type shape =>
    cases h'
    rfl
  | project _ hvalues ih =>
    cases h' with
    | project hparent' hvalues' =>
      obtain rfl := ih hparent'
      obtain rfl := Except.ok.inj (hvalues.symm.trans hvalues')
      rfl
  | unfiltered _ hpredicates ih =>
    cases h' with
    | unfiltered hparent' _ => exact ih hparent'
    | filter hparent' hpredicates' hes =>
      obtain rfl := ih hparent'
      exact absurd (Except.ok.inj (hpredicates.symm.trans hpredicates')).symm hes
  | filter _ hpredicates hes ih =>
    cases h' with
    | unfiltered hparent' hpredicates' =>
      obtain rfl := ih hparent'
      exact absurd (Except.ok.inj (hpredicates.symm.trans hpredicates')) hes
    | filter hparent' hpredicates' _ =>
      obtain rfl := ih hparent'
      obtain rfl := Except.ok.inj (hpredicates.symm.trans hpredicates')
      rfl
  | aggregate _ hgroups hmetrics ih =>
    cases h' with
    | aggregate hparent' hgroups' hmetrics' =>
      obtain rfl := ih hparent'
      obtain rfl := Except.ok.inj (hgroups.symm.trans hgroups')
      obtain rfl := Except.ok.inj (hmetrics.symm.trans hmetrics')
      rfl
  | sort _ hkeys ih =>
    cases h' with
    | sort hparent' hkeys' =>
      obtain rfl := ih hparent'
      obtain rfl := Except.ok.inj (hkeys.symm.trans hkeys')
      rfl
  | limit _ ih =>
    cases h' with
    | limit hparent' =>
      obtain rfl := ih hparent'
      rfl

/-- A relation is compiled over its parent. -/
private theorem exists_lowerRelation_of_relation? {parent : Node} (hs : c.lowerRelation n = .ok s)
    (hparent : n.op.relation? = some parent) : ∃ t, c.lowerRelation parent = .ok t := by
  cases c.lowers_of_lowerRelation hs <;> cases hparent
  all_goals
    rw [lowerRelation] at hs
    obtain ⟨_, -, hs⟩ := bind_eq_ok.1 hs
    obtain ⟨t, ht, -⟩ := bind_eq_ok.1 hs
    exact ⟨t, ht⟩

/-- The statement that a relation is compiled over is the compiled parent. -/
theorem lowerRelation_of_relation? {parent : Node} {t : Select} (hs : c.lowerRelation n = .ok s)
    (hparent : n.op.relation? = some parent) (ht : c.Lowers parent t) : c.lowerRelation parent = .ok t := by
  obtain ⟨t', ht'⟩ := c.exists_lowerRelation_of_relation? hs hparent
  rw [ht.unique (c.lowers_of_lowerRelation ht')]
  exact ht'

variable {c} in
/-- What an operation with a property keeps holds of the statement of a relation all of whose operations have the
property, by induction over the operations. -/
theorem Lowers.of_lineage {Q : Select → Prop} {R : Node → Prop}
    (step : ∀ {n s}, c.Lowers n s → n.Valid → (∀ parent t, n.op.relation? = some parent → c.Lowers parent t → Q t) →
      R n → Q s)
    (h : c.Lowers n s) (hn : n.Valid) (hlineage : ∀ m ∈ n.lineage, R m) : Q s := by
  refine h.parent_induction (motive := fun n s => n.Valid → (∀ m ∈ n.lineage, R m) → Q s) ?_ hn hlineage
  intro n s h ih hn hlineage
  refine step h hn (fun parent t hparent ht => ?_) (hlineage n n.mem_lineage_self)
  refine ih parent t hparent ht (hn.relation hparent) fun m hm => hlineage m ?_
  rw [h.lineage hparent]
  exact List.mem_cons_of_mem _ hm

private theorem lower_allUnnested_iff_of_mem (hn : n.Valid) (hs : s.AllUnnested) (rowByRow : Bool) {m : Node}
    (hm : m ∈ n.op.arguments) : Returns (Expr.AllUnnested · ↔ m.Flat) (c.lower (scopeFor rowByRow s) m) := by
  refine c.lower_allUnnested_iff (hn.argument hm) fun source hsource => ?_
  obtain rfl := eq_of_mem_scopeFor hsource
  exact ⟨hs.scalarSource, s.order_scalarSource⟩

variable {c} in
/-- One operation groups and sorts by values of rows if and only if there is no reduction in its groups and keys. -/
private theorem Lowers.keyedByRow_iff (h : c.Lowers n s) (hn : n.Valid)
    (hparent : ∀ parent t, n.op.relation? = some parent → c.Lowers parent t → t.KeyedByRow) :
    s.KeyedByRow ↔ ∀ m ∈ n.op.keys, m.hasReduction = false := by
  have hkeys : ∀ m ∈ n.op.keys, Returns (fun e => e.aggregates = false ↔ m.hasReduction = false) (c.lower none m) :=
    fun m hm => c.lower_aggregates_iff (hn.argument (Op.mem_arguments_of_mem_keys hm))
  cases h with
  | table => exact iff_of_true (Select.keyedByRow_star _) (List.forall_mem_nil _)
  | @project parent values type shape s projection hlowers hvalues =>
    have hstar : (s.wrapUnless (s.takesProjection values)).isStar = true :=
      Select.isStar_wrapUnless Select.isStar_of_takesProjection
    have hwrapped := (hparent parent s rfl hlowers).wrapUnless (s.takesProjection values)
    exact iff_of_true ⟨hwrapped.groups, fun _ => hwrapped.order hstar⟩ (List.forall_mem_nil _)
  | @unfiltered parent predicates type shape s hlowers _ =>
    exact iff_of_true (hparent parent s rfl hlowers) (List.forall_mem_nil _)
  | @filter parent predicates type shape s es hlowers _ _ =>
    have hwrapped := (hparent parent s rfl hlowers).wrapUnless s.takesSelection
    exact iff_of_true ⟨hwrapped.groups, hwrapped.order⟩ (List.forall_mem_nil _)
  | @aggregate parent groups metrics type shape s groupItems metricItems hlowers hgroups _ =>
    have hstar : (s.wrapUnless s.takesGroups).isStar = true := Select.isStar_wrapUnless Select.isStar_of_takesGroups
    have hwrapped := (hparent parent s rfl hlowers).wrapUnless s.takesGroups
    refine Iff.trans ?_ (lowerNamed_iff hkeys groupItems hgroups)
    exact ⟨fun ht => List.forall_mem_map.1 ht.groups,
      fun hitems => ⟨List.forall_mem_map.2 hitems, fun _ => hwrapped.order hstar⟩⟩
  | @sort parent keys type shape s order hlowers hsorts =>
    have hwrapped := (hparent parent s rfl hlowers).wrapUnless (s.takesOrder order)
    refine Iff.trans ⟨fun ht => ?_, fun horder => ⟨hwrapped.groups, fun _ => horder⟩⟩
      (lowerKeys_iff hkeys order hsorts)
    exact s.isStar_of_takesOrder.elim (fun hstar => ht.order hstar) id
  | @limit parent count offset type shape s hlowers =>
    have hwrapped := (hparent parent s rfl hlowers).wrapUnless (!s.isLimited)
    exact iff_of_true ⟨hwrapped.groups, hwrapped.order⟩ (List.forall_mem_nil _)

/-- What one operation does: over a statement without misplaced aggregates, it leads to one if and only if it is
flat. -/
theorem allUnnested_iff_of_lowers (h : c.Lowers n s) (hn : n.Valid)
    (hparent : ∀ parent t, n.op.relation? = some parent → c.Lowers parent t → t.AllUnnested) :
    s.AllUnnested ↔ n.op.Flat := by
  have hstep : s.AllUnnested ↔ s.KeyedByRow ∧ ∀ m ∈ n.op.arguments, m.Flat := by
    refine h.throughout_iff Expr.unnested_star (by simp [Expr.Unnested, Expr.isAggregate])
      (fun t => Select.keyedByRow_star _) fun parent t hrelation ht => ?_
    have hs := hparent parent t hrelation ht
    exact ⟨hs, fun m hm => c.lower_allUnnested_iff_of_mem hn hs _ hm⟩
  rw [hstep, h.keyedByRow_iff hn fun parent t hrelation ht => (hparent parent t hrelation ht).here, Op.flat_iff]

/-- Flat operations lead to a statement without misplaced aggregates. -/
private theorem allUnnested_of_flat (h : c.Lowers n s) (hn : n.Valid) (hflat : ∀ m ∈ n.lineage, m.op.Flat) :
    s.AllUnnested :=
  h.of_lineage (fun h hn hparent => (c.allUnnested_iff_of_lowers h hn hparent).2) hn hflat

/-- If all operations of a relation are flat, the compiled statement calls no aggregate in a call of another one, in
`GROUP BY` or in the `ORDER BY` of `*`, at any depth. The first operation that is not flat leads to such a call. -/
theorem allUnnested_lowerRelation_iff (hn : n.Valid) (hs : c.lowerRelation n = .ok s) :
    ((∀ m ∈ n.lineage, m.op.Flat) → s.AllUnnested) ∧
      ((∀ parent ∈ n.op.relation?, ∀ t, c.lowerRelation parent = .ok t → t.AllUnnested) →
        (s.AllUnnested ↔ n.op.Flat)) := by
  have h := c.lowers_of_lowerRelation hs
  refine ⟨c.allUnnested_of_flat h hn, fun hparent => c.allUnnested_iff_of_lowers h hn fun parent t hrelation ht => ?_⟩
  obtain ⟨t', ht'⟩ := c.exists_lowerRelation_of_relation? hs hrelation
  rw [ht.unique (c.lowers_of_lowerRelation ht')]
  exact hparent parent hrelation t' ht'

end Compiler

namespace Node

/-- The rows of `pairs`, sorted by the sum of the column `x`. -/
def sortedByTotal : Node :=
  let total : Node := ⟨.reduce .sum (pairs.column "x") none, .int .w64, .scalar⟩
  ⟨.sort pairs [⟨total, true⟩], pairs.type, .tabular⟩

private theorem sortedByTotal_valid : sortedByTotal.Valid := by
  refine ⟨?_, rfl⟩
  simp only [sortedByTotal, children, Op.children, List.map_cons, List.map_nil, List.forall_mem_cons]
  exact ⟨pairs_valid, ⟨by simp [children, Op.children, column_valid], rfl⟩, by simp⟩

end Node

/-- A sum next to a column is a statement of its own, and calls no aggregate in another one. -/
theorem Compiler.allUnnested_lowerRelation_withTotal :
    Node.withTotal.Valid ∧ (∀ m ∈ Node.withTotal.lineage, m.op.Flat) ∧
      ∃ s, base.lowerRelation Node.withTotal = .ok s ∧ s.AllUnnested := by
  have hcolumn : ∀ name, (Node.pairs.column name).Flat :=
    fun name => Node.flat_iff.2 ⟨by simp [Node.column, Op.isReduction], by simp [Node.column, Node.lowered]⟩
  have hpairs : Node.pairs.op.Flat := by simp [Op.flat_iff, Node.pairs, Op.keys, Op.arguments, Op.children]
  have hflat : Node.withTotal.op.Flat := by
    refine Op.flat_iff.2 ⟨List.forall_mem_nil _, ?_⟩
    simp only [Node.withTotal, Op.arguments, List.map_cons, List.map_nil, List.forall_mem_cons]
    refine ⟨hcolumn _, Node.flat_iff.2 ⟨fun _ => ?_, ?_⟩, by simp⟩
    · simp [Node.lowered, Op.children, Node.column, Node.hasReduction, Node.opHasReduction]
    · simpa [Node.lowered, Op.children] using hcolumn "x"
  have hlineage : ∀ m ∈ Node.withTotal.lineage, m.op.Flat := by
    have hnodes : Node.withTotal.lineage = [Node.withTotal, Node.pairs] := rfl
    simpa [hnodes] using ⟨hflat, hpairs⟩
  exact ⟨Node.withTotal_valid, hlineage, _, rfl,
    (base.allUnnested_lowerRelation_iff Node.withTotal_valid rfl).1 hlineage⟩

/-- A sort key that is a sum is the call of an aggregate in the `ORDER BY` of `*`. -/
theorem Compiler.not_allUnnested_sortedByTotal :
    Node.sortedByTotal.Valid ∧ ∃ s, base.lowerRelation Node.sortedByTotal = .ok s ∧
      s.text = "SELECT * FROM \"t\" ORDER BY SUM(\"x\") ASC" ∧ ¬s.AllUnnested := by
  refine ⟨Node.sortedByTotal_valid, _, rfl, by decide, fun h => ?_⟩
  have horder := h.here.order rfl _ (List.mem_singleton_self _)
  exact absurd horder (by decide)

end SqlPlan
