import SqlPlan.Proofs.Steps

/-!
# Aggregates and columns of rows

An aggregate takes many rows together, while a column outside of aggregates is read from a single row. A statement
without groups has room for one of the two only. In a compiled statement a reduction is a call of an aggregate only if
all that stands next to it in the projection is one value for all rows, and a value of this shape reads columns inside
of reductions only.

* `Lowers.throughout_iff_here`: what one operation does to all statements of a relation.
* `lower_collapsed`: a value for all rows reads columns inside of aggregates only.
* `separated_lowerRelation`: every statement in a compiled relation keeps aggregates and columns of rows apart.
-/

namespace SqlPlan

open Sql

namespace Sql

/-! ### Columns outside of aggregates -/

/-- An expression occurs in another one, outside of calls of aggregates and of statements for single values. -/
def Expr.MentionsByRow (e part : Expr) : Prop :=
  Relation.ReflTransGen (fun a b => a.isAggregate = false ∧ b ∈ a.operands) e part

/-- All columns in an expression stand inside of calls of aggregates. -/
def Expr.Collapsed (e : Expr) : Prop := ∀ name, ¬e.MentionsByRow (.column name)

namespace Expr

variable {e : Expr}

private theorem collapsed_of_isAggregate (h : e.isAggregate = true) : e.Collapsed := by
  intro name hname
  rcases Relation.ReflTransGen.cases_head hname with rfl | ⟨k, ⟨hk, -⟩, -⟩
  · cases h
  · simp [h] at hk

private theorem Collapsed.of_operands (hne : ∀ name, e ≠ .column name) (h : ∀ k ∈ e.operands, k.Collapsed) :
    e.Collapsed := by
  intro name hname
  rcases Relation.ReflTransGen.cases_head hname with heq | ⟨k, ⟨-, hk⟩, hname⟩
  · exact hne name heq
  · exact h k hk name hname

private theorem collapsed_of_isReduction (h : e.isReduction = true) : e.Collapsed := by
  unfold isReduction at h
  split at h
  · exact collapsed_of_isAggregate h
  · rename_i function _
    have hcall : (Expr.call function).isAggregate = true := h
    exact .of_operands (by simp) (by simpa [operands] using collapsed_of_isAggregate hcall)
  · cases h

end Expr

/-- Aggregates are kept apart from columns of rows: they are not in `WHERE`, and where they are in a projection
without groups, no column of rows is. -/
structure Select.Separated (s : Select) : Prop where
  selection : ∀ e ∈ s.selection, e.aggregates = false
  projection : s.groups = [] → itemsAggregate s.projection = true → ∀ item ∈ s.projection, item.expr.Collapsed

end Sql

/-! ### Statements for single values -/

namespace Compiler

variable (c : Compiler)

/-- A statement for a single value in a compiled one is a statement for a reduction. -/
theorem lower_singles (scope : Option Select) (n : Node) :
    Returns (fun e => ∀ q, e.Mentions (.subquery q) → ∃ k, q.projection = [⟨k, none⟩] ∧ k.isReduction = true)
      (c.lower scope n) := by
  refine lower_closes (fun e href _ hoperands q hq => ?_) (H := fun _ => True)
    (fun _ _ _ _ _ _ => True.intro) (fun relation name type shape _ q hq => ?_) (fun m e _ hm _ he q hq => ?_) n
    True.intro
  · rcases Expr.mentions_iff.1 hq with rfl | ⟨k, hk, hq⟩
    · cases href
    · exact hoperands k hk q hq
  · cases Expr.eq_of_mentions_of_operands hq rfl
  · cases scope with
    | none => exact absurd hq (c.lower_none_singles m e he q)
    | some source =>
      obtain rfl := Expr.subquery.inj (Expr.eq_of_mentions_of_operands hq rfl)
      exact ⟨e, rfl, c.lower_isReduction hm e he⟩

/-- What holds throughout a statement without its order holds in the values over its rows, if the statements for
single values keep it. -/
private theorem lower_throughout {Q : Select → Prop} {s : Select} (hs : s.scalarSource.Throughout (fun _ => True) Q)
    (hsingle : ∀ call : Expr, call.isReduction = true → Q { s.scalarSource with projection := [⟨call, none⟩] })
    (rowByRow : Bool) (n : Node) : Returns (Expr.Throughout (fun _ => True) Q) (c.lower (scopeFor rowByRow s) n) := by
  intro e he part hpart
  refine ⟨True.intro, ?_⟩
  rintro q rfl
  obtain ⟨k, hprojection, hk⟩ := c.lower_singles _ n e he q hpart
  cases c.lower_onlyRefers _ n e he _ rfl hpart with
  | @single m source call hm hscope hcall =>
    obtain rfl := eq_of_mem_scopeFor hscope
    obtain rfl : call = k := by simpa using hprojection
    refine hs.update rfl (hsingle call hk) (.inr ?_) (.inl rfl) (.inl rfl) (.inl rfl)
    -- the call itself is compiled without a scope, so there is no statement in it
    refine List.forall_mem_singleton.2 fun part hpart => ⟨True.intro, ?_⟩
    rintro q rfl
    exact absurd hpart (c.lower_none_singles m call hcall q)

variable {c} in
/-- What one operation does to all statements: if those of its parent have a property that wrapping gives and that
statements for single values keep, only the new statement is left to look at. -/
theorem Lowers.throughout_iff_here {Q : Select → Prop} {n : Node} {s : Select} (h : c.Lowers n s)
    (hwrap : ∀ t, Q (.wrap t)) (hunordered : ∀ t, Q t → Q { t with order := [] })
    (hsingle : ∀ t (call : Expr), call.isReduction = true → Q t → Q { t with projection := [⟨call, none⟩] })
    (hparent : ∀ parent t, n.op.relation? = some parent → c.Lowers parent t → t.Throughout (fun _ => True) Q) :
    s.Throughout (fun _ => True) Q ↔ Q s := by
  refine (h.throughout_iff (H := fun _ => True) True.intro (fun _ _ => True.intro) hwrap ?_).trans (by simp)
  intro parent t hrelation ht
  have hall := hparent parent t hrelation ht
  have hsource := hall.scalarSource True.intro (hwrap t) (hunordered t hall.here)
  refine ⟨hall, fun m _ => (c.lower_throughout hsource (fun call hcall => ?_) _ m).mono fun e he => by simp [he]⟩
  exact hsingle _ call hcall hsource.here

end Compiler

namespace Node

/-- One value for all rows that is no reduction is made of such values. -/
private theorem Valid.shape_input {n m : Node} (hn : n.Valid) (hshape : n.shape = .scalar)
    (hop : n.op.isReduction = false) (hm : m ∈ n.children) : m.shape = .scalar := by
  rw [hn.shape_eq, Op.shape, Kind.shape, Op.isReduction_kind, hop] at hshape
  split at hshape
  · cases hshape
  · simp only [Bool.false_eq_true, if_false, Shape.combine] at hshape
    split at hshape
    · rename_i hall
      simpa using List.all_eq_true.1 hall m.shape (List.mem_map_of_mem hm)
    · cases hshape

end Node

namespace Compiler

variable (c : Compiler)

/-- One value for all rows reads columns inside of aggregates only. -/
theorem lower_collapsed {n : Node} (hn : n.Valid) (hshape : n.shape = .scalar) (scope : Option Select) :
    Returns Expr.Collapsed (c.lower scope n) := by
  refine lower_closes (fun e href _ hoperands => ?_) (H := fun n => n.Valid ∧ n.shape = .scalar)
    (fun n hn hop _ m hm => ?_) (fun relation name type shape hfield => ?_) (fun m e _ hm _ he => ?_) n ⟨hn, hshape⟩
  · exact .of_operands (by rintro name rfl; cases href) hoperands
  · have hchild := Node.mem_children_of_mem_lowered hm
    exact ⟨hn.1.inputs m hchild, hn.1.shape_input hn.2 hop hchild⟩
  · -- the relation of a field is a table
    have hrelation := hfield.1.inputs_isRelation.1 relation rfl
    have hscalar := hfield.1.shape_input hfield.2 rfl (m := relation) (by simp [Node.children, Op.children])
    simp [Node.isRelation, hscalar] at hrelation
  · cases scope with
    | none => exact Expr.collapsed_of_isReduction (c.lower_isReduction hm e he)
    | some source => exact .of_operands (by simp [Expr.inScope]) (by simp [Expr.inScope, Expr.operands])

end Compiler

/-! ### Compiled statements -/

namespace Sql.Select

/-- The statement and all statements in it keep aggregates and columns of rows apart. -/
abbrev AllSeparated (s : Select) : Prop := s.Throughout (fun _ => True) Separated

variable {s : Select}

private theorem separated_star (source : Source) : (star source).Separated :=
  ⟨by simp [star], by simp [star, itemsAggregate, Expr.aggregates]⟩

private theorem Separated.wrapUnless (h : s.Separated) (free : Bool) : (s.wrapUnless free).Separated :=
  wrapUnless_induction (P := Separated) (fun _ => h) (separated_star _)

end Sql.Select

/-- The metrics of an aggregation are reductions. -/
private theorem Node.Valid.isReduction_metric {parent : Node} {groups metrics : List (Named Node)} {type : DataType}
    {shape : Shape} (h : Valid ⟨.aggregate parent groups metrics, type, shape⟩) :
    ∀ metric ∈ metrics, metric.value.op.isReduction = true := by
  intro metric hmetric
  obtain ⟨-, hmetrics, -⟩ := h.hasType
  exact (Op.isReduction_kind _).symm.trans (hmetrics metric hmetric)

namespace Compiler

variable (c : Compiler) {s : Select}

/-- Either no item of a projection calls an aggregate, or all of them are single values. -/
private theorem lowerNamed_separated {values : List (Named Node)} (hvalues : ∀ v ∈ values, v.value.Valid)
    {items : List (Item Expr)} (h : c.lowerNamed (scopeFor (mixesReductions values) s) values = .ok items)
    (haggregates : itemsAggregate items = true) : ∀ item ∈ items, item.expr.Collapsed := by
  by_cases hrows : mixesReductions values = true ∨ values.any (·.value.hasReduction) = false
  · -- next to values of rows, reductions are statements of their own
    have hrowwise := c.lowerNamed_returns (P := Expr.Rowwise) (fun m hm => c.lower_rowwise m ?_) items h
    · obtain ⟨item, hitem, haggregate⟩ := List.any_eq_true.1 haggregates
      have hitem := (hrowwise item.expr (List.mem_map_of_mem hitem)).aggregates
      rw [haggregate] at hitem
      cases hitem
    · rcases hrows with hmixes | hnone
      · rw [hmixes]
        exact .inl rfl
      · obtain ⟨v, hv, rfl⟩ := List.mem_map.1 hm
        exact .inr (by simpa using List.any_eq_false.1 hnone v hv)
  · simp only [mixesReductions, not_or, Bool.not_eq_true, Bool.not_eq_false, Bool.and_eq_false_iff] at hrows
    obtain ⟨hmixes, hreduces⟩ := hrows
    have hscalar := hmixes.resolve_left (by simp [hreduces])
    have hcollapsed := c.lowerNamed_returns (P := Expr.Collapsed) (fun m hm => ?_) items h
    · exact List.forall_mem_map.1 hcollapsed
    · obtain ⟨v, hv, rfl⟩ := List.mem_map.1 hm
      exact c.lower_collapsed (hvalues v hv) (by simpa using List.any_eq_false.1 hscalar v hv) _

variable {c} in
/-- One operation keeps aggregates and columns of rows apart. -/
private theorem Lowers.separated {n : Node} (h : c.Lowers n s) (hn : n.Valid)
    (hparent : ∀ parent t, n.op.relation? = some parent → c.Lowers parent t → t.Separated) : s.Separated := by
  cases h with
  | table name => exact Select.separated_star _
  | @project parent values type shape s projection hlowers hvalues =>
    have hwrapped := (hparent parent s rfl hlowers).wrapUnless (s.takesProjection values)
    have hvalid : ∀ v ∈ values, v.value.Valid := fun v hv => hn.argument (List.mem_map_of_mem hv)
    exact ⟨hwrapped.selection, fun _ => c.lowerNamed_separated hvalid hvalues⟩
  | @unfiltered parent predicates type shape s hlowers hpredicates => exact hparent parent s rfl hlowers
  | @filter parent predicates type shape s es hlowers hpredicates hes =>
    have hwrapped := (hparent parent s rfl hlowers).wrapUnless s.takesSelection
    have hrowwise := c.lowerAll_returns (P := Expr.Rowwise) (fun m hm => c.lower_rowwise m ?_) es hpredicates
    · refine ⟨?_, hwrapped.projection⟩
      refine Expr.forall_mem_conjunction (fun hleft hright => by rw [Expr.aggregates, hleft, hright]; rfl) ?_
      refine List.forall_mem_append.2 ⟨fun e he => ?_, fun e he => (hrowwise e he).aggregates⟩
      exact hwrapped.selection e (Option.mem_toList.1 he)
    · cases hany : predicates.any (·.hasReduction) with
      | true => exact .inl rfl
      | false => exact .inr (by simpa using List.any_eq_false.1 hany m hm)
  | @aggregate parent groups metrics type shape s groupItems metricItems hlowers hgroups hmetrics =>
    have hwrapped := (hparent parent s rfl hlowers).wrapUnless s.takesGroups
    -- without groups, only the metrics are left, and these are reductions
    have hcollapsed := c.lowerNamed_returns (P := Expr.Collapsed) (fun m hm => ?_) metricItems hmetrics
    · refine ⟨hwrapped.selection, fun hnone _ => ?_⟩
      obtain rfl : groupItems = [] := by simpa using hnone
      exact List.forall_mem_map.1 hcollapsed
    · obtain ⟨metric, hmetric, rfl⟩ := List.mem_map.1 hm
      exact (c.lower_isReduction (hn.isReduction_metric metric hmetric)).mono fun _ => Expr.collapsed_of_isReduction
  | @sort parent keys type shape s order hlowers hkeys =>
    have hwrapped := (hparent parent s rfl hlowers).wrapUnless (s.takesOrder order)
    exact ⟨hwrapped.selection, hwrapped.projection⟩
  | @limit parent count offset type shape s hlowers =>
    have hwrapped := (hparent parent s rfl hlowers).wrapUnless (!s.isLimited)
    exact ⟨hwrapped.selection, hwrapped.projection⟩

/-- All statements of a relation keep aggregates and columns of rows apart, by induction over the operations. -/
theorem allSeparated_of_lowers {n : Node} (h : c.Lowers n s) (hn : n.Valid) : s.AllSeparated := by
  refine h.parent_induction (motive := fun n s => n.Valid → s.AllSeparated) (fun h ih hn => ?_) hn
  have hparent := fun parent t hrelation ht => ih parent t hrelation ht (hn.relation hrelation)
  refine (h.throughout_iff_here (fun t => Select.separated_star _) (fun t ht => ⟨ht.selection, ht.projection⟩)
    (fun t call hcall ht => ⟨ht.selection, fun _ _ => ?_⟩) hparent).2 ?_
  · exact List.forall_mem_singleton.2 (Expr.collapsed_of_isReduction hcall)
  · exact h.separated hn fun parent t hrelation ht => (hparent parent t hrelation ht).here

/-- In every statement of a compiled relation, at every depth, `WHERE` calls no aggregate; and without groups, a
projection that calls one reads columns inside of aggregates only. -/
theorem separated_lowerRelation {n : Node} {s t : Select} (hn : n.Valid) (hs : c.lowerRelation n = .ok s)
    (ht : s.Contains t) : t.Separated :=
  (c.allSeparated_of_lowers (c.lowers_of_lowerRelation hs) hn t ht).1

end Compiler

namespace Node

/-- The column `x` of `pairs` next to the sum of this column. -/
def withTotal : Node :=
  let total : Node := ⟨.reduce .sum (pairs.column "x") none, .int .w64, .scalar⟩
  ⟨.project pairs [⟨"x", pairs.column "x"⟩, ⟨"total", total⟩],
    .struct [⟨"x", .int .w64, true⟩, ⟨"total", .int .w64, true⟩], .tabular⟩

/-- The projection with a total is valid. -/
theorem withTotal_valid : withTotal.Valid := by
  refine ⟨?_, rfl⟩
  simp only [withTotal, children, Op.children, List.map_cons, List.map_nil, List.forall_mem_cons]
  exact ⟨pairs_valid, column_valid, ⟨by simp [children, Op.children, column_valid], rfl⟩, by simp⟩

end Node

/-- A sum next to a column is a statement of its own. -/
theorem Compiler.separated_lowerRelation_withTotal :
    Node.withTotal.Valid ∧ ∃ s, base.lowerRelation Node.withTotal = .ok s ∧
      s.text = "SELECT \"x\", (SELECT SUM(\"x\") FROM \"t\") AS \"total\" FROM \"t\"" ∧
        ∀ t, s.Contains t → t.Separated :=
  ⟨Node.withTotal_valid, _, rfl, by decide, fun _ ht => base.separated_lowerRelation Node.withTotal_valid rfl ht⟩

end SqlPlan
