import SqlPlan.Proofs.References

/-!
# Columns of statements

The output columns of a statement are named in its projection; those of `*` come from its source, which is another
statement or a table with declared columns.

* `columns_lowerRelation`: a compiled relation puts out the columns of its schema, in their order.
* `resolved_lowerRelation`: if the values of every operation read columns of its parent only, then every column in a
  compiled relation is found where it stands, in statements at every depth.
-/

namespace SqlPlan

open Sql

namespace Sql

/-! ### Output columns -/

mutual

/-- The labels of the output columns of a statement, in a database with the given columns of tables. -/
def Select.columns (tables : String → List String) : Select → List (Option String)
  | s@⟨projection, source, _, _, _, _, _⟩ =>
    if s.isStar then Source.columns tables source else projection.map (·.label)

def Source.columns (tables : String → List String) : Source → List (Option String)
  | .table name => (tables name).map some
  | .subquery query _ => Select.columns tables query

end

namespace Select

variable {tables : String → List String} {s t : Select}

private theorem columns_eq (s : Select) :
    s.columns tables = if s.isStar then s.source.columns tables else s.projection.map (·.label) := by
  cases s
  rw [columns]

private theorem columns_of_isStar (h : s.isStar = true) : s.columns tables = s.source.columns tables := by
  rw [columns_eq, if_pos h]

/-- A statement without `*` puts out its labels. -/
private theorem columns_of_ne_star (h : ∀ item ∈ s.projection, item.expr ≠ .star) :
    s.columns tables = s.projection.map (·.label) := by
  rw [columns_eq, if_neg]
  unfold isStar
  split
  · rename_i hprojection
    exact absurd rfl (h ⟨.star, none⟩ (by simp [hprojection]))
  · simp

private theorem columns_wrapUnless (free : Bool) (s : Select) :
    (s.wrapUnless free).columns tables = s.columns tables := by
  cases free with
  | false => exact columns_of_isStar rfl
  | true => rfl

/-- Clauses other than the projection do not change the columns. -/
private theorem columns_eq_of_wrapUnless {free : Bool} (hprojection : t.projection = (s.wrapUnless free).projection)
    (hsource : t.source = (s.wrapUnless free).source) : t.columns tables = s.columns tables := by
  rw [← columns_wrapUnless free s, columns_eq, columns_eq, isStar, isStar, hprojection, hsource]

/-- A statement that a clause goes into if it is just `*` reads the columns of the given one. -/
private theorem columns_source_wrapUnless {free : Bool} (h : free = true → s.isStar = true) :
    (s.wrapUnless free).source.columns tables = s.columns tables := by
  cases free with
  | false => rfl
  | true => exact (columns_of_isStar (h rfl)).symm

/-- A wrapped statement selects all columns. -/
theorem isStar_wrapUnless {free : Bool} (h : free = true → s.isStar = true) : (s.wrapUnless free).isStar = true := by
  cases free with
  | false => rfl
  | true => exact h rfl

private theorem map_label_of_isStar (h : s.isStar = true) : s.projection.map (·.label) = [none] := by
  unfold isStar at h
  split at h
  · rename_i hprojection
    rw [hprojection]
    rfl
  · cases h

/-- An output column is a column of the source or a label of the projection. -/
private theorem columns_subset (s : Select) :
    s.columns tables ⊆ s.source.columns tables ++ s.projection.map (·.label) := by
  rw [columns_eq]
  split
  · exact List.subset_append_left _ _
  · exact List.subset_append_right _ _

end Select

end Sql

/-! ### Columns of relations -/

namespace Node

/-- The columns that a relation declares for a table. -/
def declared (n : Node) (table : String) : List String :=
  n.lineage.flatMap fun m => match m.op with
    | .table name schema => if name = table then schema.map (·.name) else []
    | _ => []

/-- The names of the columns of a relation. -/
def columnNames (n : Node) : List String := (n.schema?.getD []).map (·.name)

section

variable {parent : Node} {type : DataType} {shape : Shape}

private theorem Valid.columnNames_table {name : String} {schema : Schema}
    (h : Valid ⟨.table name schema, type, shape⟩) :
    columnNames ⟨.table name schema, type, shape⟩ = schema.map (·.name) := by
  obtain ⟨-, htype⟩ := h.hasType
  rw [columnNames, schema?_of_isRelation h.isRelation_eq htype.symm]
  rfl

private theorem Valid.columnNames_project {values : List (Named Node)}
    (h : Valid ⟨.project parent values, type, shape⟩) :
    columnNames ⟨.project parent values, type, shape⟩ = values.map (·.name) := by
  rw [columnNames, h.schema?_project, Option.getD_some, List.map_map]
  rfl

private theorem Valid.columnNames_aggregate {groups metrics : List (Named Node)}
    (h : Valid ⟨.aggregate parent groups metrics, type, shape⟩) :
    columnNames ⟨.aggregate parent groups metrics, type, shape⟩ = groups.map (·.name) ++ metrics.map (·.name) := by
  rw [columnNames, h.schema?_aggregate, Option.getD_some, List.map_map, List.map_append]
  rfl

private theorem Valid.columnNames_filter {predicates : List Node}
    (h : Valid ⟨.filter parent predicates, type, shape⟩) :
    columnNames ⟨.filter parent predicates, type, shape⟩ = parent.columnNames := by
  rw [columnNames, h.schema?_filter, columnNames]

private theorem Valid.columnNames_sort {keys : List (SortKey Node)} (h : Valid ⟨.sort parent keys, type, shape⟩) :
    columnNames ⟨.sort parent keys, type, shape⟩ = parent.columnNames := by
  rw [columnNames, h.schema?_sort, columnNames]

private theorem Valid.columnNames_limit {count : Option UInt64} {offset : UInt64}
    (h : Valid ⟨.limit parent count offset, type, shape⟩) :
    columnNames ⟨.limit parent count offset, type, shape⟩ = parent.columnNames := by
  rw [columnNames, h.schema?_limit, columnNames]

end

end Node

namespace Compiler

variable (c : Compiler)

/-- The statement of a relation puts out the columns of the relation. -/
theorem columns_of_lowers {n : Node} {s : Select} (h : c.Lowers n s) (hn : n.Valid) :
    s.columns n.declared = n.columnNames.map some := by
  -- projections and aggregations name their columns, and all other operations keep those of the parent
  induction h with
  | table name schema type shape =>
    rw [Select.columns_of_isStar rfl, hn.columnNames_table]
    simp [Select.ofTable, Select.star, Source.columns, Node.declared, Node.lineage]
  | @project parent values type shape s projection _ hvalues _ =>
    obtain ⟨hlabels, hstar⟩ := c.lowerNamed_columns _ values projection hvalues
    rw [Select.columns_of_ne_star hstar, hn.columnNames_project, List.map_map]
    exact hlabels
  | @unfiltered parent predicates type shape s _ _ ih =>
    rw [hn.columnNames_filter]
    exact ih (hn.relation rfl)
  | @filter parent predicates type shape s es _ _ _ ih =>
    rw [hn.columnNames_filter, ← ih (hn.relation rfl)]
    exact Select.columns_eq_of_wrapUnless rfl rfl
  | @aggregate parent groups metrics type shape s groupItems metricItems _ hgroups hmetrics _ =>
    obtain ⟨hgroups, hgroupStar⟩ := c.lowerNamed_columns _ groups groupItems hgroups
    obtain ⟨hmetrics, hmetricStar⟩ := c.lowerNamed_columns _ metrics metricItems hmetrics
    rw [Select.columns_of_ne_star (List.forall_mem_append.2 ⟨hgroupStar, hmetricStar⟩), hn.columnNames_aggregate,
      List.map_append, List.map_append, hgroups, hmetrics, List.map_map, List.map_map]
    rfl
  | @sort parent keys type shape s order _ _ ih =>
    rw [hn.columnNames_sort, ← ih (hn.relation rfl)]
    exact Select.columns_eq_of_wrapUnless rfl rfl
  | @limit parent count offset type shape s _ ih =>
    rw [hn.columnNames_limit, ← ih (hn.relation rfl)]
    exact Select.columns_eq_of_wrapUnless rfl rfl

end Compiler

/-! ### Resolved columns -/

namespace Sql

/-- Every column in an expression, outside of statements for single values, is one of the given ones. -/
def Expr.ReadsFrom (e : Expr) (columns : List (Option String)) : Prop :=
  ∀ name, e.Mentions (.column name) → some name ∈ columns

namespace Select

/-- The expressions in the clauses of a statement. -/
def exprs (s : Select) : List Expr :=
  s.projection.map (·.expr) ++ s.selection.toList ++ s.groups ++ s.order.map (·.expr)

/-- The expressions of a statement are those of its clauses. -/
theorem forall_mem_exprs {P : Expr → Prop} {s : Select} :
    (∀ e ∈ s.exprs, P e) ↔
      (∀ item ∈ s.projection, P item.expr) ∧ (∀ e ∈ s.selection, P e) ∧ (∀ e ∈ s.groups, P e) ∧
        ∀ key ∈ s.order, P key.expr := by
  simp only [exprs, List.forall_mem_append, List.forall_mem_map, Option.mem_toList, Option.mem_def, and_assoc]

/-- A statement is the source of another one, or stands for a single value in it. -/
inductive Nests (s : Select) : Select → Prop
  | source {q : Select} {label : String} (h : s.source = .subquery q label) : Nests s q
  | single {q : Select} {e : Expr} (he : e ∈ s.exprs) (h : e.Mentions (.subquery q)) : Nests s q

/-- A statement occurs in another one, at any depth. -/
def Contains (s t : Select) : Prop := Relation.ReflTransGen Nests s t

/-- The columns in the clauses of a statement are columns of its source; those in `ORDER BY` may also be output
columns by their labels. -/
structure Resolved (tables : String → List String) (s : Select) : Prop where
  projection : ∀ item ∈ s.projection, item.expr.ReadsFrom (s.source.columns tables)
  selection : ∀ e ∈ s.selection, e.ReadsFrom (s.source.columns tables)
  groups : ∀ e ∈ s.groups, e.ReadsFrom (s.source.columns tables)
  order : ∀ key ∈ s.order, key.expr.ReadsFrom (s.source.columns tables ++ s.projection.map (·.label))

/-- The statement and all statements in it are resolved. -/
def AllResolved (tables : String → List String) (s : Select) : Prop := ∀ t, s.Contains t → t.Resolved tables

private theorem allResolved_iff {tables : String → List String} {s : Select} :
    s.AllResolved tables ↔ s.Resolved tables ∧ ∀ q, s.Nests q → q.AllResolved tables := by
  constructor
  · exact fun h => ⟨h s .refl, fun q hq t ht => h t (.head hq ht)⟩
  · rintro ⟨hs, hnested⟩ t ht
    rcases Relation.ReflTransGen.cases_head ht with rfl | ⟨q, hq, ht⟩
    · exact hs
    · exact hnested q hq t ht

end Select

/-- The columns in an expression are among the given ones, and the statements in it are resolved. -/
structure Expr.ResolvedIn (tables : String → List String) (columns : List (Option String)) (e : Expr) : Prop where
  readsFrom : e.ReadsFrom columns
  singles : ∀ q, e.Mentions (.subquery q) → q.AllResolved tables

namespace Expr.ResolvedIn

variable {tables : String → List String} {columns columns' : List (Option String)} {e : Expr}

private theorem mono (h : e.ResolvedIn tables columns) (hsubset : columns ⊆ columns') :
    e.ResolvedIn tables columns' :=
  ⟨fun name hname => hsubset (h.readsFrom name hname), h.singles⟩

private theorem of_operands (h : e.isReference = false) (hoperands : ∀ k ∈ e.operands, k.ResolvedIn tables columns) :
    e.ResolvedIn tables columns where
  readsFrom name hname := by
    rcases mentions_iff.1 hname with rfl | ⟨k, hk, hname⟩
    · cases h
    · exact (hoperands k hk).readsFrom name hname
  singles q hq := by
    rcases mentions_iff.1 hq with rfl | ⟨k, hk, hq⟩
    · cases h
    · exact (hoperands k hk).singles q hq

private theorem conjunction {es : List Expr} (hes : ∀ k ∈ es, k.ResolvedIn tables columns) :
    ∀ e ∈ Expr.conjunction es, e.ResolvedIn tables columns :=
  forall_mem_conjunction (fun hleft hright => .of_operands rfl (by simpa [operands] using ⟨hleft, hright⟩)) hes

end Expr.ResolvedIn

namespace Select

/-- A statement is resolved at every depth, clause by clause. -/
structure Clauses (tables : String → List String) (s : Select) : Prop where
  source : ∀ q label, s.source = .subquery q label → q.AllResolved tables
  projection : ∀ item ∈ s.projection, item.expr.ResolvedIn tables (s.source.columns tables)
  selection : ∀ e ∈ s.selection, e.ResolvedIn tables (s.source.columns tables)
  groups : ∀ e ∈ s.groups, e.ResolvedIn tables (s.source.columns tables)
  order : ∀ key ∈ s.order, key.expr.ResolvedIn tables (s.source.columns tables ++ s.projection.map (·.label))

variable {tables : String → List String} {s t : Select}

private theorem AllResolved.clauses (h : s.AllResolved tables) : s.Clauses tables := by
  obtain ⟨hs, hnested⟩ := allResolved_iff.1 h
  have hsingle : ∀ e ∈ s.exprs, ∀ q, e.Mentions (.subquery q) → q.AllResolved tables :=
    fun e he q hq => hnested q (.single he hq)
  simp only [exprs, List.forall_mem_append, List.forall_mem_map, Option.mem_toList] at hsingle
  obtain ⟨⟨⟨hprojection, hselection⟩, hgroups⟩, horder⟩ := hsingle
  exact
    { source := fun q label hq => hnested q (.source hq)
      projection := fun item hitem => ⟨hs.projection item hitem, hprojection item hitem⟩
      selection := fun e he => ⟨hs.selection e he, hselection e he⟩
      groups := fun e he => ⟨hs.groups e he, hgroups e he⟩
      order := fun key hkey => ⟨hs.order key hkey, horder key hkey⟩ }

private theorem Clauses.allResolved (h : s.Clauses tables) : s.AllResolved tables := by
  have hs : s.Resolved tables :=
    ⟨fun item hitem => (h.projection item hitem).readsFrom, fun e he => (h.selection e he).readsFrom,
      fun e he => (h.groups e he).readsFrom, fun key hkey => (h.order key hkey).readsFrom⟩
  have hsingle : ∀ e ∈ s.exprs, ∀ q, e.Mentions (.subquery q) → q.AllResolved tables := by
    simp only [exprs, List.forall_mem_append, List.forall_mem_map, Option.mem_toList]
    exact ⟨⟨⟨fun item hitem => (h.projection item hitem).singles, fun e he => (h.selection e he).singles⟩,
      fun e he => (h.groups e he).singles⟩, fun key hkey => (h.order key hkey).singles⟩
  refine allResolved_iff.2 ⟨hs, fun q hq => ?_⟩
  cases hq with
  | source hsource => exact h.source q _ hsource
  | single he hq => exact hsingle _ he q hq

/-! ### Clauses that are added to a statement -/

private theorem allResolved_star {source : Source}
    (h : ∀ q label, source = .subquery q label → q.AllResolved tables) : (star source).AllResolved tables := by
  have hstar : Expr.star.ResolvedIn tables (source.columns tables) :=
    .of_operands rfl (by simp [Expr.operands])
  exact Clauses.allResolved ⟨h, List.forall_mem_singleton.2 hstar, by simp [star], by simp [star], by simp [star]⟩

private theorem allResolved_ofTable (name : String) : (ofTable name).AllResolved tables :=
  allResolved_star (by simp)

private theorem AllResolved.wrap (h : s.AllResolved tables) : s.wrap.AllResolved tables := by
  refine allResolved_star fun q label hq => ?_
  obtain ⟨rfl, -⟩ := Source.subquery.inj hq
  exact h

private theorem AllResolved.wrapUnless (h : s.AllResolved tables) (free : Bool) :
    (s.wrapUnless free).AllResolved tables :=
  wrapUnless_induction (fun _ => h) h.wrap

/-- New columns in the place of `*`, and new groups. -/
private theorem AllResolved.regroup (h : s.AllResolved tables) (hstar : s.isStar = true) {groups : List Expr}
    {projection : List (Item Expr)} (hgroups : ∀ e ∈ groups, e.ResolvedIn tables (s.source.columns tables))
    (hprojection : ∀ e ∈ projection.map (·.expr), e.ResolvedIn tables (s.source.columns tables)) :
    AllResolved tables { s with groups, projection } := by
  have hs := h.clauses
  refine Clauses.allResolved ⟨hs.source, List.forall_mem_map.1 hprojection, hs.selection, hgroups, fun key hkey => ?_⟩
  -- `*` has no label, so the keys are columns of the source
  refine ⟨fun name hname => ?_, (hs.order key hkey).singles⟩
  have hcolumn := (hs.order key hkey).readsFrom name hname
  rw [map_label_of_isStar hstar] at hcolumn
  exact List.mem_append_left _ (by simpa using hcolumn)

private theorem AllResolved.addSelection (h : s.AllResolved tables) {es : List Expr}
    (hes : ∀ e ∈ es, e.ResolvedIn tables (s.source.columns tables)) : (s.addSelection es).AllResolved tables := by
  have hs := h.clauses
  refine Clauses.allResolved ⟨hs.source, hs.projection, .conjunction ?_, hs.groups, hs.order⟩
  exact List.forall_mem_append.2 ⟨fun e he => hs.selection e (Option.mem_toList.1 he), hes⟩

private theorem AllResolved.orderBy (h : s.AllResolved tables) {order : List (SortKey Expr)}
    (horder : ∀ e ∈ order.map (·.expr), e.ResolvedIn tables (s.columns tables)) :
    AllResolved tables { s with order } := by
  have hs := h.clauses
  refine Clauses.allResolved ⟨hs.source, hs.projection, hs.selection, hs.groups, fun key hkey => ?_⟩
  exact (List.forall_mem_map.1 horder key hkey).mono s.columns_subset

private theorem AllResolved.window (h : s.AllResolved tables) (limit offset : Option UInt64) :
    AllResolved tables { s with limit, offset } := by
  have hs := h.clauses
  exact Clauses.allResolved ⟨hs.source, hs.projection, hs.selection, hs.groups, hs.order⟩

/-- The source for single values is an unordered `*` over the columns of the statement. -/
theorem scalarSource_cases (s : Select) :
    s.isStar = true ∧ s.scalarSource = { s with order := [] } ∨ s.scalarSource = s.wrap := by
  unfold scalarSource
  split
  · rename_i hfree
    simp only [Bool.and_eq_true] at hfree
    exact .inl ⟨hfree.1.1, rfl⟩
  · exact .inr rfl

/-- A statement for a single value over the rows of a resolved statement. -/
private theorem AllResolved.single (h : s.AllResolved tables) {e : Expr}
    (he : e.ResolvedIn tables (s.columns tables)) :
    AllResolved tables { s.scalarSource with projection := [⟨e, none⟩] } := by
  rcases s.scalarSource_cases with ⟨hstar, hsource⟩ | hsource
  · have hunordered : AllResolved tables { s with order := [] } := h.orderBy (by simp)
    rw [hsource]
    refine hunordered.regroup hstar h.clauses.groups ?_
    simpa [columns_of_isStar hstar] using he
  · rw [hsource]
    exact h.wrap.regroup rfl (by simp [Select.wrap, star]) (List.forall_mem_singleton.2 he)

end Select

end Sql

/-! ### Values that read the columns of a parent -/

namespace Node

/-- Every field that is compiled with a value has one of the given names. -/
def ReadsOnly (n : Node) (names : List String) : Prop :=
  ∀ m, n.LoweredWith m → ∀ relation name, m.op = .field relation name → name ∈ names

private theorem readsOnly_iff {n : Node} {names : List String} :
    n.ReadsOnly names ↔
      (∀ relation name, n.op = .field relation name → name ∈ names) ∧ ∀ m ∈ n.lowered, m.ReadsOnly names :=
  forall_loweredWith

/-- The values of every operation that a relation is made with read columns of the parent of the operation. -/
def ReadsParents (n : Node) : Prop :=
  ∀ m ∈ n.lineage, ∀ parent ∈ m.op.relation?, ∀ value ∈ m.op.arguments, value.ReadsOnly parent.columnNames

private theorem readsParents_iff {n parent : Node} (h : n.lineage = n :: parent.lineage)
    (hparent : n.op.relation? = some parent) :
    n.ReadsParents ↔ (∀ value ∈ n.op.arguments, value.ReadsOnly parent.columnNames) ∧ parent.ReadsParents := by
  unfold ReadsParents
  rw [h, List.forall_mem_cons, hparent]
  simp

end Node

namespace Compiler

variable (c : Compiler) {s : Select}

/-- A value that reads the columns of a relation is resolved in them, next to the statement of the relation or over
its rows. -/
theorem lower_resolvedIn {parent : Node} (hparent : c.Lowers parent s) (hvalid : parent.Valid)
    (hs : s.AllResolved parent.declared) {n : Node} (hn : n.ReadsOnly parent.columnNames) (rowByRow : Bool) :
    Returns (·.ResolvedIn parent.declared (s.columns parent.declared)) (c.lower (scopeFor rowByRow s) n) := by
  have hcolumn : ∀ {m relation : Node} {name : String}, n.LoweredWith m → m.op = .field relation name →
      some name ∈ s.columns parent.declared := by
    intro m relation name hm hfield
    rw [c.columns_of_lowers hparent hvalid]
    exact List.mem_map_of_mem (hn m hm relation name hfield)
  refine (c.lower_onlyRefers _ n).mono fun e he => ⟨fun name hname => ?_, fun q hq => ?_⟩
  · cases he _ rfl hname with
    | column hm hfield => exact hcolumn hm hfield
  · cases he _ rfl hq with
    | @single m source call hm hscope hcall =>
      obtain rfl : s.scalarSource = source := by
        cases rowByRow with
        | false => cases hscope
        | true => exact Option.some.inj hscope
      refine hs.single ⟨fun name hname => ?_, fun q hq => absurd hq (c.lower_none_singles m call hcall q)⟩
      cases c.lower_onlyRefers none m call hcall _ rfl hname with
      | column hk hfield => exact hcolumn (hm.trans hk) hfield

/-- The statement of a relation is resolved if its values read the columns of the parents. -/
theorem allResolved_of_lowers {n : Node} (h : c.Lowers n s) (hn : n.Valid) (hreads : n.ReadsParents) :
    s.AllResolved n.declared := by
  induction h with
  | table name => exact Select.allResolved_ofTable name
  | @project parent values type shape s projection hparent hvalues ih =>
    obtain ⟨hreads, hparents⟩ := (Node.readsParents_iff rfl rfl).1 hreads
    have hs : s.AllResolved parent.declared := ih (hn.relation rfl) hparents
    have hprojection := c.lowerNamed_returns
      (fun value hvalue => c.lower_resolvedIn hparent (hn.relation rfl) hs (hreads value hvalue) _) projection hvalues
    -- the projection takes the place of a `*`, whose source has the columns of the parent
    rw [← Select.columns_source_wrapUnless Select.isStar_of_takesProjection] at hprojection
    have hwrap := hs.wrapUnless (s.takesProjection values)
    exact hwrap.regroup (Select.isStar_wrapUnless Select.isStar_of_takesProjection) hwrap.clauses.groups hprojection
  | @unfiltered parent predicates type shape s _ _ ih =>
    obtain ⟨-, hparents⟩ := (Node.readsParents_iff rfl rfl).1 hreads
    exact ih (hn.relation rfl) hparents
  | @filter parent predicates type shape s es hparent hpredicates _ ih =>
    obtain ⟨hreads, hparents⟩ := (Node.readsParents_iff rfl rfl).1 hreads
    have hs : s.AllResolved parent.declared := ih (hn.relation rfl) hparents
    have hes := c.lowerAll_returns
      (fun value hvalue => c.lower_resolvedIn hparent (hn.relation rfl) hs (hreads value hvalue) _) es hpredicates
    rw [← Select.columns_source_wrapUnless Select.isStar_of_takesSelection] at hes
    exact (hs.wrapUnless _).addSelection hes
  | @aggregate parent groups metrics type shape s groupItems metricItems hparent hgroups hmetrics ih =>
    obtain ⟨hreads, hparents⟩ := (Node.readsParents_iff rfl rfl).1 hreads
    have hs : s.AllResolved parent.declared := ih (hn.relation rfl) hparents
    have hvalue := fun value hvalue => c.lower_resolvedIn hparent (hn.relation rfl) hs (hreads value hvalue) false
    simp only [Op.arguments, List.map_append, List.mem_append] at hvalue
    have hgroups := c.lowerNamed_returns (fun value h => hvalue value (.inl h)) groupItems hgroups
    have hmetrics := c.lowerNamed_returns (fun value h => hvalue value (.inr h)) metricItems hmetrics
    rw [← Select.columns_source_wrapUnless Select.isStar_of_takesGroups] at hgroups hmetrics
    refine (hs.wrapUnless _).regroup (Select.isStar_wrapUnless Select.isStar_of_takesGroups) hgroups ?_
    rw [List.map_append]
    exact List.forall_mem_append.2 ⟨hgroups, hmetrics⟩
  | @sort parent keys type shape s order hparent hkeys ih =>
    obtain ⟨hreads, hparents⟩ := (Node.readsParents_iff rfl rfl).1 hreads
    have hs : s.AllResolved parent.declared := ih (hn.relation rfl) hparents
    have horder := c.lowerKeys_returns
      (fun value hvalue => c.lower_resolvedIn hparent (hn.relation rfl) hs (hreads value hvalue) false) order hkeys
    -- an order may also stand next to labels, and then these are the columns of the parent
    rw [← Select.columns_wrapUnless (s.takesOrder order)] at horder
    exact (hs.wrapUnless _).orderBy horder
  | @limit parent count offset type shape s _ ih =>
    obtain ⟨-, hparents⟩ := (Node.readsParents_iff rfl rfl).1 hreads
    exact ((ih (hn.relation rfl) hparents).wrapUnless _).window _ _

variable {c} in
/-- Only relations are compiled to statements. -/
theorem isRelation_of_lowers {n : Node} (h : c.Lowers n s) (hn : n.Valid) : n.isRelation = true := by
  cases h <;> exact hn.isRelation_eq

end Compiler

/-! ### Compiled relations -/

namespace Node

/-- The `y` of `belowSum` under the name `z`, sorted by that name. -/
def rankedBelowSum : Node :=
  let relation := belowSum.renamed "z"
  ⟨.sort relation [⟨relation.column "z", true⟩], relation.type, .tabular⟩

private theorem belowSum_valid : belowSum.Valid := by
  have hfirst : Valid ⟨.limit pairs (some 1) 0, pairs.type, .tabular⟩ :=
    ⟨by simp [children, Op.children, pairs_valid], rfl⟩
  have hcolumn : (column ⟨.limit pairs (some 1) 0, pairs.type, .tabular⟩ "x").Valid :=
    ⟨by simp [children, column, Op.children, hfirst], rfl⟩
  have hsum : Valid ⟨.reduce .sum (column ⟨.limit pairs (some 1) 0, pairs.type, .tabular⟩ "x") none, .int .w64,
      .scalar⟩ :=
    ⟨by simp [children, Op.children, hcolumn], rfl⟩
  refine ⟨?_, rfl⟩
  simp only [children, belowSum, Op.children, List.forall_mem_cons, List.not_mem_nil, false_imp_iff, implies_true,
    and_true]
  exact ⟨hfirst, ⟨by simp [children, Op.children, hcolumn, hsum], rfl⟩⟩

private theorem rankedBelowSum_valid : rankedBelowSum.Valid := by
  have hrenamed : (belowSum.renamed "z").Valid :=
    ⟨by simpa [children, renamed, Op.children] using
      ⟨belowSum_valid, ⟨by simp [children, column, Op.children, belowSum_valid], rfl⟩⟩, rfl⟩
  exact ⟨by simpa [children, rankedBelowSum, Op.children] using
    ⟨hrenamed, ⟨by simp [children, column, Op.children, hrenamed], rfl⟩⟩, rfl⟩

private theorem readsOnly_column {relation : Node} {name : String} {names : List String} (h : name ∈ names) :
    (relation.column name).ReadsOnly names := by
  refine readsOnly_iff.2 ⟨fun relation' name' hfield => ?_, by simp [lowered, column]⟩
  obtain ⟨-, rfl⟩ : relation = relation' ∧ name = name' := by simpa [column] using hfield
  exact h

private theorem rankedBelowSum_readsParents : rankedBelowSum.ReadsParents := by
  have hfirst : ReadsParents ⟨.limit pairs (some 1) 0, pairs.type, .tabular⟩ := by
    refine (readsParents_iff rfl rfl).2 ⟨by simp [Op.arguments], ?_⟩
    simp [ReadsParents, lineage, pairs, Op.relation?]
  have hbelow : belowSum.ReadsParents := by
    refine (readsParents_iff rfl rfl).2 ⟨List.forall_mem_singleton.2 ?_, hfirst⟩
    refine readsOnly_iff.2 ⟨by simp, List.forall_mem_cons.2 ⟨readsOnly_column (by decide),
      List.forall_mem_singleton.2 ?_⟩⟩
    exact readsOnly_iff.2 ⟨by simp, List.forall_mem_singleton.2 (readsOnly_column (by decide))⟩
  have hrenamed : (belowSum.renamed "z").ReadsParents :=
    (readsParents_iff rfl rfl).2 ⟨List.forall_mem_singleton.2 (readsOnly_column (by decide)), hbelow⟩
  exact (readsParents_iff rfl rfl).2 ⟨List.forall_mem_singleton.2 (readsOnly_column (by decide)), hrenamed⟩

end Node

namespace Compiler

variable (c : Compiler)

/-- A compiled relation puts out the columns of its schema in their order, and their names are all different. -/
theorem columns_lowerRelation {n : Node} {s : Select} (hn : n.Valid) (hs : c.lowerRelation n = .ok s) :
    ∃ schema, n.schema? = some schema ∧ s.columns n.declared = schema.map (some ·.name) ∧
      (s.columns n.declared).Nodup := by
  have hlowers := c.lowers_of_lowerRelation hs
  obtain ⟨schema, hschema, hnodup⟩ := hn.exists_schema (isRelation_of_lowers hlowers hn)
  have hcolumns := c.columns_of_lowers hlowers hn
  rw [Node.columnNames, hschema, Option.getD_some] at hcolumns
  refine ⟨schema, hschema, ?_, ?_⟩
  · rw [hcolumns, List.map_map]
    rfl
  · rw [hcolumns]
    exact hnodup.map (Option.some_injective _)

/-- The columns of a filter over a cut table come from the table, through two statements with `*`. -/
theorem columns_lowerRelation_belowSum :
    ∃ s, base.lowerRelation Node.belowSum = .ok s ∧ s.columns Node.belowSum.declared = [some "x", some "y"] := by
  refine ⟨_, rfl, ?_⟩
  obtain ⟨schema, hschema, hcolumns, -⟩ := base.columns_lowerRelation Node.belowSum_valid rfl
  rw [hcolumns]
  cases hschema
  rfl

/-- If the values of every operation read columns of its parent, then in every statement of the compiled relation,
at every depth, the columns are found in the source or, in `ORDER BY`, in the source or among the labels. -/
theorem resolved_lowerRelation {n : Node} {s t : Select} (hn : n.Valid) (hreads : n.ReadsParents)
    (hs : c.lowerRelation n = .ok s) (ht : s.Contains t) : t.Resolved n.declared :=
  c.allResolved_of_lowers (c.lowers_of_lowerRelation hs) hn hreads t ht

/-- The sum in `WHERE` is a statement over the first row, and the sort key is a label. -/
theorem resolved_lowerRelation_rankedBelowSum :
    Node.rankedBelowSum.ReadsParents ∧
      ∃ s, base.lowerRelation Node.rankedBelowSum = .ok s ∧
        ∀ t, s.Contains t → t.Resolved Node.rankedBelowSum.declared :=
  ⟨Node.rankedBelowSum_readsParents, _, rfl, fun _ ht =>
    base.resolved_lowerRelation Node.rankedBelowSum_valid Node.rankedBelowSum_readsParents rfl ht⟩

end Compiler

end SqlPlan
