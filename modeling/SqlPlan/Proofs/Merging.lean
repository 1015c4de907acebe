import Mathlib.Algebra.GroupWithZero.Nat
import SqlPlan.Proofs.Relations
import SqlPlan.Proofs.Scopes

/-!
# Merging operations into one statement

`Compiler.lowerRelation` puts an operation into the statement of its parent wherever it can. Next to it stands
`Compiler.nestedRelation`, which gives every operation a statement of its own. The two have the same rows.

* Without a sort this holds for every relation.
* With a sort by columns it holds as long as no projection that goes into the sorted statement gives the name of a
  sort key to another value: `ORDER BY` looks for a name among the output columns first.
-/

namespace SqlPlan

open Sql

/-! ### Operations of a relation -/

namespace Node

/-- A relation and the relations that it is made from, from the outermost one to the table. -/
def lineage : Node → List Node
  | ⟨.project parent values, type, shape⟩ => ⟨.project parent values, type, shape⟩ :: parent.lineage
  | ⟨.filter parent predicates, type, shape⟩ => ⟨.filter parent predicates, type, shape⟩ :: parent.lineage
  | ⟨.aggregate parent groups metrics, type, shape⟩ =>
    ⟨.aggregate parent groups metrics, type, shape⟩ :: parent.lineage
  | ⟨.sort parent keys, type, shape⟩ => ⟨.sort parent keys, type, shape⟩ :: parent.lineage
  | ⟨.limit parent count offset, type, shape⟩ => ⟨.limit parent count offset, type, shape⟩ :: parent.lineage
  | n => [n]

/-- A relation is the first in its own lineage. -/
theorem mem_lineage_self (n : Node) : n ∈ n.lineage := by
  unfold lineage
  split <;> simp

/-- The sorts that a relation is made with. -/
def sorts (n : Node) : List Node := n.lineage.filter (·.kind = .sort)

/-- The keys of every sort are columns of the sorted relation. -/
def SortsByColumns (n : Node) : Prop :=
  ∀ m ∈ n.lineage, ∀ parent keys, m.op = .sort parent keys → ∀ key ∈ keys, ∃ name, key.expr.op = .field parent name

section

variable (parent : Node) (type : DataType) (shape : Shape)

@[simp] theorem sorts_project (values : List (Named Node)) :
    sorts ⟨.project parent values, type, shape⟩ = parent.sorts := rfl

@[simp] theorem sorts_filter (predicates : List Node) :
    sorts ⟨.filter parent predicates, type, shape⟩ = parent.sorts := rfl

@[simp] theorem sorts_aggregate (groups metrics : List (Named Node)) :
    sorts ⟨.aggregate parent groups metrics, type, shape⟩ = parent.sorts := rfl

@[simp] theorem sorts_sort (keys : List (SortKey Node)) :
    sorts ⟨.sort parent keys, type, shape⟩ = ⟨.sort parent keys, type, shape⟩ :: parent.sorts := rfl

@[simp] theorem sorts_limit (count : Option UInt64) (offset : UInt64) :
    sorts ⟨.limit parent count offset, type, shape⟩ = parent.sorts := rfl

end

end Node

namespace Compiler

/-- The scope of reductions among values that are taken row by row, over a statement of its own. -/
def nestedScope (rowByRow : Bool) (parent : Select) : Option Select := if rowByRow then some parent.wrap else none

/-- The statement of a relation in which every operation has a statement of its own. -/
def nestedRelation (c : Compiler) : Node → Except CompileError Select
  | ⟨.table name _, _, _⟩ => do
    c.dialect.ensureSupported .unboundTable
    return .ofTable name
  | ⟨.project parent values, _, _⟩ => do
    c.dialect.ensureSupported .project
    let select ← c.nestedRelation parent
    let broadcast := values.any (·.value.hasReduction) && values.any (·.value.shape != .scalar)
    let projection ← c.lowerNamed (nestedScope broadcast select) values
    return { select.wrap with projection }
  | ⟨.filter parent predicates, _, _⟩ => do
    c.dialect.ensureSupported .filter
    let select ← c.nestedRelation parent
    let predicates ← c.lowerAll (nestedScope (predicates.any (·.hasReduction)) select) predicates
    return select.wrap.addSelection predicates
  | ⟨.aggregate parent groups metrics, _, _⟩ => do
    c.dialect.ensureSupported .aggregate
    let select ← c.nestedRelation parent
    let groupItems ← c.lowerNamed none groups
    let metricItems ← c.lowerNamed none metrics
    return { select.wrap with groups := groupItems.map (·.expr), projection := groupItems ++ metricItems }
  | ⟨.sort parent keys, _, _⟩ => do
    c.dialect.ensureSupported .sort
    let select ← c.nestedRelation parent
    let order ← c.lowerKeys none keys
    return { select.wrap with order }
  | ⟨.limit parent count offset, _, _⟩ => do
    c.dialect.ensureSupported .limit
    let select ← c.nestedRelation parent
    return { select.wrap with limit := count, offset := if 0 < offset then some offset else none }
  | ⟨op, _, shape⟩ => do
    c.dialect.ensureSupported op.kind
    .error (.invalidShape (.valueAsRelation op.kind shape))

/-- In the statement of every projection, an output column with the name of a sort key is the column of that name. -/
def KeepsSortKeys (c : Compiler) (n : Node) : Prop :=
  ∀ m ∈ n.lineage, m.kind = .project → Returns (fun s => Select.KeepsKeys s.projection s.order) (c.lowerRelation m)

variable (c : Compiler)

/-! ### Named values -/

/-- The items of a projection are the named values, one by one. -/
private theorem lowerNamed_items (scope : Option Select) (values : List (Named Node)) :
    Returns (List.Forall₂ (fun v item => item.label = some v.name ∧ c.lower scope v.value = .ok item.expr) values)
      (c.lowerNamed scope values) := by
  induction values with
  | nil => exact Returns.ok .nil
  | cons v values ih =>
    obtain ⟨name, n⟩ := v
    intro items hitems
    rw [lowerNamed] at hitems
    obtain ⟨expr, hexpr, hitems⟩ := bind_eq_ok.1 hitems
    obtain ⟨rest, hrest, hitems⟩ := bind_eq_ok.1 hitems
    obtain rfl := Except.ok.inj hitems
    exact .cons ⟨rfl, hexpr⟩ (ih rest hrest)

/-- Named values become columns of their names, and none of them stands for all columns. -/
theorem lowerNamed_columns (scope : Option Select) (values : List (Named Node)) :
    Returns (fun items => items.map (·.label) = values.map (some ·.name) ∧ ∀ item ∈ items, item.expr ≠ .star)
      (c.lowerNamed scope values) := by
  refine (c.lowerNamed_items scope values).mono fun items h => ?_
  induction h with
  | nil => simp
  | cons head _ ih =>
    refine ⟨by rw [List.map_cons, List.map_cons, head.1, ih.1], fun item hitem => ?_⟩
    rcases List.mem_cons.1 hitem with rfl | hitem
    · exact c.lower_ne_star scope _ _ head.2
    · exact ih.2 item hitem

private theorem lower_field {scope : Option Select} {n relation : Node} {name : String}
    (h : n.op = .field relation name) : Returns (· = .column name) (c.lower scope n) := by
  obtain ⟨op, type, shape⟩ := n
  obtain rfl : op = .field relation name := h
  rw [lower_eq]
  exact (Returns.trivial _).bind fun _ _ => Returns.ok rfl

/-- The items of a projection in a scope, or of one without reductions, are read row by row. -/
private theorem lowerNamed_rowwise {scope : Option Select} {values : List (Named Node)}
    (h : scope.isSome = true ∨ values.any (·.value.hasReduction) = false) :
    Returns (fun items => ∀ item ∈ items, item.expr.Rowwise) (c.lowerNamed scope values) := by
  have hvalue : ∀ v ∈ values, Returns Expr.Rowwise (c.lower scope v.value) := by
    intro v hv
    refine c.lower_rowwise v.value (h.imp id fun h => ?_)
    simpa using List.any_eq_false.1 h v hv
  exact (c.lowerNamed_returns (List.forall_mem_map.2 hvalue)).mono fun items hitems => List.forall_mem_map.1 hitems

end Compiler

/-! ### Items of the same meaning -/

section

variable {V : Type} [DecidableEq V] (I : Interpretation V) (db : String → List (Row V))

namespace Sql

/-- Columns with the same name and expressions of the same meaning. -/
structure SameItem (item item' : Item Expr) : Prop where
  label : ∃ name, item.label = some name ∧ item'.label = some name
  expr : Expr.Same I db item.expr item'.expr
  left_ne_star : item.expr ≠ .star
  right_ne_star : item'.expr ≠ .star

variable {I db}

private theorem itemsRow_congr {items items' : List (Item Expr)} (h : List.Forall₂ (SameItem I db) items items')
    (ctx : Context V) : itemsRow I db items ctx = itemsRow I db items' ctx := by
  induction h with
  | nil => rfl
  | @cons item item' _ _ head _ ih =>
    obtain ⟨expr, label⟩ := item
    obtain ⟨expr', label'⟩ := item'
    obtain ⟨⟨name, rfl, rfl⟩, hexpr, hstar, hstar'⟩ := head
    rw [itemsRow, itemsRow, ih, Select.itemColumns_of_ne_star hstar, Select.itemColumns_of_ne_star hstar',
      hexpr.value]
    rfl

private theorem itemsAggregate_congr {items items' : List (Item Expr)}
    (h : List.Forall₂ (SameItem I db) items items') : itemsAggregate items = itemsAggregate items' := by
  induction h with
  | nil => rfl
  | cons head _ ih =>
    rw [itemsAggregate, itemsAggregate, List.any_cons, List.any_cons, head.expr.aggregates]
    exact congrArg _ ih

private theorem Select.regrouped_congr {groups groups' : List Expr} {items items' : List (Item Expr)}
    (hgroups : List.Forall₂ (Expr.Same I db) groups groups') (hitems : List.Forall₂ (SameItem I db) items items')
    (rows : List (Row V)) : regrouped I db groups items rows = regrouped I db groups' items' rows := by
  have hempty : groups.isEmpty = groups'.isEmpty := by cases hgroups <;> rfl
  have hkey : ∀ ctx, listValues I db groups ctx = listValues I db groups' ctx := listValues_congr hgroups
  have hrow : itemsRow I db items = itemsRow I db items' := funext (itemsRow_congr hitems)
  simp only [regrouped, hempty, hkey, itemsAggregate_congr hitems, hrow]

private theorem all_holds_congr {es es' : List Expr} (h : List.Forall₂ (Expr.Same I db) es es') (ctx : Context V) :
    (es.all fun e => I.holds (e.value I db ctx)) = es'.all fun e => I.holds (e.value I db ctx) := by
  induction h with
  | nil => rfl
  | cons head _ ih => rw [List.all_cons, List.all_cons, head.value, ih]

private theorem itemsAggregate_of_rowwise {items : List (Item Expr)} (h : ∀ item ∈ items, item.expr.Rowwise) :
    itemsAggregate items = false := by
  rw [itemsAggregate, List.any_eq_false]
  intro item hitem
  simp [(h item hitem).aggregates]

end Sql

namespace Compiler

variable {I db} (c : Compiler)

private theorem lowerNamed_agree {scope scope' : Option Select} (h : ScopesAgree I db scope scope')
    (values : List (Named Node)) :
    Agree (List.Forall₂ (SameItem I db)) (c.lowerNamed scope values) (c.lowerNamed scope' values) := by
  induction values with
  | nil => exact .ok .nil
  | cons v values ih =>
    obtain ⟨name, n⟩ := v
    rw [lowerNamed, lowerNamed]
    refine (c.lower_agree h n).bind fun e e' hok hok' he => ?_
    refine ih.bind fun items items' _ _ hitems => ?_
    exact .ok (.cons ⟨⟨name, rfl, rfl⟩, he, c.lower_ne_star _ _ e hok, c.lower_ne_star _ _ e' hok'⟩ hitems)

private theorem lowerAll_agree {scope scope' : Option Select} (h : ScopesAgree I db scope scope') (ns : List Node) :
    Agree (List.Forall₂ (Expr.Same I db)) (c.lowerAll scope ns) (c.lowerAll scope' ns) := by
  simpa using lowerAll_tracks (g := id) fun n (_ : n ∈ ns) => c.lower_agree h n

/-- A reduction over the source for single values is that over a statement of its own. -/
private theorem scopes_agree {s r : Select} (hrows : s.rows I db = r.rows I db)
    (hI : s.isOrdered = false ∨ I.Unordered) (rowByRow : Bool) :
    ScopesAgree I db (scopeFor rowByRow s) (nestedScope rowByRow r) := by
  cases rowByRow with
  | false => exact .none
  | true =>
    refine .some fun e he => ?_
    rw [Select.rows_scalarSource I db hI he, Select.rows_nestedProjection, hrows]

end Compiler

/-! ### The statement of a relation -/

namespace Sql.Select

/-- The statement puts out its input rows, or the columns of a schema by their names. -/
def Outputs (s : Select) (schema : Option Schema) : Prop :=
  s.isStar = true ∧ s.isGrouped = false ∨
    ∃ columns, schema = some columns ∧ s.projection.map (·.label) = columns.map (some ·.name) ∧
      ∀ item ∈ s.projection, item.expr ≠ .star

end Sql.Select

namespace Compiler

variable {c : Compiler} {n : Node} {s : Select}

/-- The statement of a relation without sorts is not ordered. -/
theorem Lowers.unordered (h : c.Lowers n s) (hsorts : n.sorts = []) : s.isOrdered = false := by
  induction h with
  | table => rfl
  | unfiltered _ _ ih => exact ih (by simpa using hsorts)
  | sort => simp at hsorts
  | project _ _ ih | filter _ _ _ ih | aggregate _ _ _ ih | limit _ ih =>
    exact Select.wrapUnless_induction (P := fun t => t.isOrdered = false) (fun _ => ih (by simpa using hsorts)) rfl

/-- The statement of a relation puts out its input rows, or the columns of the relation by their names. -/
private theorem Lowers.outputs (h : c.Lowers n s) (hn : n.Valid) : s.Outputs n.schema? := by
  induction h with
  | table => exact .inl ⟨rfl, rfl⟩
  | project _ hvalues _ =>
    obtain ⟨hlabels, hstar⟩ := c.lowerNamed_columns _ _ _ hvalues
    rw [hn.schema?_project]
    refine .inr ⟨_, rfl, ?_, hstar⟩
    rw [List.map_map]
    exact hlabels
  | unfiltered _ _ ih =>
    rw [hn.schema?_filter]
    exact ih (hn.relation rfl)
  -- a wrapped statement selects all columns, and one that is not wrapped keeps its projection
  | filter _ _ _ ih =>
    rw [hn.schema?_filter]
    exact Select.wrapUnless_induction (P := fun t => (t.addSelection _).Outputs _) (fun _ => ih (hn.relation rfl))
      (.inl ⟨rfl, rfl⟩)
  | aggregate _ hgroups hmetrics _ =>
    obtain ⟨hgroupLabels, hgroupStar⟩ := c.lowerNamed_columns _ _ _ hgroups
    obtain ⟨hmetricLabels, hmetricStar⟩ := c.lowerNamed_columns _ _ _ hmetrics
    rw [hn.schema?_aggregate]
    refine .inr ⟨_, rfl, ?_, ?_⟩
    · rw [List.map_map, List.map_append, List.map_append, hgroupLabels, hmetricLabels]
      rfl
    · exact List.forall_mem_append.2 ⟨hgroupStar, hmetricStar⟩
  | sort _ _ ih =>
    rw [hn.schema?_sort]
    exact Select.wrapUnless_induction (P := fun t => ({ t with order := _ } : Select).Outputs _)
      (fun _ => ih (hn.relation rfl)) (.inl ⟨rfl, rfl⟩)
  | limit _ ih =>
    rw [hn.schema?_limit]
    exact Select.wrapUnless_induction (P := fun t => ({ t with limit := _, offset := _ } : Select).Outputs _)
      (fun _ => ih (hn.relation rfl)) (.inl ⟨rfl, rfl⟩)

end Compiler

end

/-! ### Rows -/

namespace Compiler

section

variable {V : Type}

/-- The relation is sorted once, by columns, with aggregates that do not depend on the order, and no projection gives
the name of a sort key to another value. -/
structure SortedOnce (c : Compiler) (I : Interpretation V) (n : Node) : Prop where
  valid : n.Valid
  unordered : I.Unordered
  once : n.sorts.length ≤ 1
  byColumns : n.SortsByColumns
  keepsKeys : c.KeepsSortKeys n

variable (c : Compiler) {I : Interpretation V}

variable {c} in
private theorem SortedOnce.parent {n parent : Node} (h : c.SortedOnce I n) (hparent : parent ∈ n.children)
    (hlineage : n.lineage = n :: parent.lineage) : c.SortedOnce I parent where
  valid := h.valid.inputs parent hparent
  unordered := h.unordered
  once := by
    refine le_trans ?_ h.once
    rw [Node.sorts, Node.sorts, hlineage]
    exact List.Sublist.length_le (.filter _ (List.sublist_cons_self _ _))
  byColumns := fun m hm => h.byColumns m (by rw [hlineage]; exact List.mem_cons_of_mem _ hm)
  keepsKeys := fun m hm => h.keepsKeys m (by rw [hlineage]; exact List.mem_cons_of_mem _ hm)

private theorem keepsKeys_of_project {n : Node} (h : n.sorts = [] ∨ c.SortedOnce I n) (hn : n.kind = .project) :
    Returns (fun s => Select.KeepsKeys s.projection s.order) (c.lowerRelation n) := by
  rcases h with h | h
  · intro s hs
    simp [Select.KeepsKeys, Select.order_of_not_isOrdered ((c.lowers_of_lowerRelation hs).unordered h)]
  · exact h.keepsKeys n n.mem_lineage_self hn

/-- The columns that a relation is sorted by are columns of its statement. -/
private theorem outputs_of_sort {parent : Node} {keys : List (SortKey Node)} {type : DataType} {shape : Shape}
    (h : c.SortedOnce I ⟨.sort parent keys, type, shape⟩) {s : Select} (hs : c.lowerRelation parent = .ok s)
    {order : List (SortKey Expr)} (horder : c.lowerKeys none keys = .ok order) :
    s.isStar = true ∧ s.isGrouped = false ∨ ∀ key ∈ order, ∃ item ∈ s.projection, item.expr ≠ .star ∧
      key.expr = .column (columnName item.expr item.label) := by
  have hparent : parent.Valid := h.valid.inputs parent (by simp [Node.children, Op.children])
  refine ((c.lowers_of_lowerRelation hs).outputs hparent).imp id ?_
  rintro ⟨columns, hschema, hlabels, hstar⟩
  -- every key is a column of the parent, and so is the name of an item
  have hkeys : ∀ key ∈ keys, Returns (fun e => ∃ item ∈ s.projection, item.expr ≠ .star ∧
      e = .column (columnName item.expr item.label)) (c.lower none key.expr) := by
    intro key hkey
    obtain ⟨name, hname⟩ := h.byColumns _ (Node.mem_lineage_self _) parent keys rfl key hkey
    have hvalid : key.expr.Valid := by
      refine h.valid.inputs key.expr ?_
      simp only [Node.children, Op.children, List.mem_cons, List.mem_map]
      exact .inr ⟨key, hkey, rfl⟩
    obtain ⟨schema, hschema', column, hcolumn, hcolumnName⟩ := hvalid.mem_schema_of_field hname
    obtain rfl : schema = columns := Option.some.inj (hschema'.symm.trans hschema)
    have hlabel : some name ∈ s.projection.map (·.label) := by
      rw [hlabels, ← hcolumnName]
      exact List.mem_map_of_mem hcolumn
    obtain ⟨item, hitem, hlabel⟩ := List.mem_map.1 hlabel
    refine (c.lower_field hname).mono fun e he => ⟨item, hitem, hstar item hitem, ?_⟩
    rw [he, hlabel]
    rfl
  have horder := c.lowerKeys_returns (List.forall_mem_map.2 hkeys) order horder
  exact fun key hkey => horder key.expr (List.mem_map_of_mem hkey)

end

section

variable {V : Type} [DecidableEq V] {I : Interpretation V} {db : String → List (Row V)} (c : Compiler)

variable (I db) in
/-- The merged and the nested statement of a relation have the same rows, or both fail with the same error. -/
def SameRows (n : Node) : Prop :=
  Agree (fun s r => s.rows I db = r.rows I db) (c.lowerRelation n) (c.nestedRelation n)

private theorem sameRows_project {parent : Node} {values : List (Named Node)} {type : DataType} {shape : Shape}
    (h : parent.sorts = [] ∨ c.SortedOnce I ⟨.project parent values, type, shape⟩)
    (ih : c.SameRows I db parent) : c.SameRows I db ⟨.project parent values, type, shape⟩ := by
  have hkeys := c.keepsKeys_of_project (n := ⟨.project parent values, type, shape⟩) h rfl
  rw [SameRows, nestedRelation]
  rw [lowerRelation] at hkeys ⊢
  refine (Tracks.refl (R := fun _ _ => True) (fun _ => trivial) _).bind fun _ _ hsupported _ _ => ?_
  refine ih.bind fun s r hs _ hrows => ?_
  have hI : s.isOrdered = false ∨ I.Unordered := h.imp (c.lowers_of_lowerRelation hs).unordered (·.unordered)
  refine (c.lowerNamed_agree (scopes_agree hrows hI _) values).bind fun items items' hitems _ hsame => .ok ?_
  have hkeys := hkeys _ (bind_eq_ok.2 ⟨_, hsupported, bind_eq_ok.2 ⟨s, hs, bind_eq_ok.2 ⟨items, hitems, rfl⟩⟩⟩)
  rw [Select.rows_nestedProjection, ← hrows, ← Select.regrouped_congr .nil hsame]
  revert hkeys
  refine Select.wrapUnless_induction (P := fun t => Select.KeepsKeys items t.order →
    ({ t with projection := items } : Select).rows I db = _) (fun hfree hkeys => ?_) fun _ => ?_
  · simp only [Bool.and_eq_true, Bool.not_eq_true'] at hfree
    obtain ⟨⟨hstar, hgroups⟩, hreduces⟩ := hfree
    refine Select.rows_projected I db hstar hgroups (fun haggregate => ?_) hkeys
    -- only a projection of reductions alone aggregates, and it goes into no statement that cuts or sorts
    have hreduction : values.any (·.value.hasReduction) = true := by
      by_contra hnone
      have hrowwise := c.lowerNamed_rowwise (.inr (by simpa using hnone)) items hitems
      simp [itemsAggregate_of_rowwise hrowwise] at haggregate
    have hscalar : values.any (·.value.shape != .scalar) = false := by
      by_contra hsome
      rw [Bool.not_eq_false] at hsome
      have hscope : (scopeFor (values.any (·.value.hasReduction) && values.any (·.value.shape != .scalar))
          s).isSome = true := by
        simp [scopeFor, hreduction, hsome]
      have hrowwise := c.lowerNamed_rowwise (.inl hscope) items hitems
      simp [itemsAggregate_of_rowwise hrowwise] at haggregate
    simpa [hreduction, hscalar] using hreduces
  · exact Select.rows_nestedProjection I db s items

private theorem sameRows_filter {parent : Node} {predicates : List Node} {type : DataType} {shape : Shape}
    (h : parent.sorts = [] ∨ I.Unordered)
    (ih : c.SameRows I db parent) : c.SameRows I db ⟨.filter parent predicates, type, shape⟩ := by
  rw [SameRows, lowerRelation, nestedRelation]
  refine (Tracks.refl (R := fun _ _ => True) (fun _ => trivial) _).bind fun _ _ _ _ _ => ?_
  refine ih.bind fun s r hs _ hrows => ?_
  have hI : s.isOrdered = false ∨ I.Unordered := h.imp (c.lowers_of_lowerRelation hs).unordered id
  refine (c.lowerAll_agree (scopes_agree hrows hI _) predicates).bind fun es es' _ _ hsame => ?_
  have hnested : (r.wrap.addSelection es').rows I db =
      (s.rows I db).filter fun row => es.all fun e => I.holds (e.value I db (.ofRow row)) := by
    rw [Select.rows_addSelection I db rfl rfl rfl, Select.rows_wrap, ← hrows]
    simp only [all_holds_congr hsame]
  split
  · rename_i hempty
    obtain rfl : es = [] := by simpa using hempty
    exact .ok (by simp [hnested])
  · refine .ok ?_
    rw [hnested]
    refine Select.wrapUnless_induction (P := fun t => (t.addSelection es).rows I db = _) (fun hfree => ?_) ?_
    · simp only [Bool.and_eq_true, Bool.not_eq_true'] at hfree
      exact Select.rows_addSelection I db hfree.1.1 hfree.1.2 hfree.2 es
    · rw [Select.rows_addSelection I db rfl rfl rfl, Select.rows_wrap]

private theorem sameRows_aggregate {parent : Node} {groups metrics : List (Named Node)} {type : DataType}
    {shape : Shape} (ih : c.SameRows I db parent) :
    c.SameRows I db ⟨.aggregate parent groups metrics, type, shape⟩ := by
  rw [SameRows, lowerRelation, nestedRelation]
  refine (Tracks.refl (R := fun _ _ => True) (fun _ => trivial) _).bind fun _ _ _ _ _ => ?_
  refine ih.bind fun s r hs _ hrows => ?_
  refine (Tracks.refl (fun _ => rfl) _).bind fun groupItems _ _ _ hgroups => ?_
  refine (Tracks.refl (fun _ => rfl) _).bind fun metricItems _ _ _ hmetrics => .ok ?_
  subst hgroups hmetrics
  rw [Select.rows_regrouped I db (s := r.wrap) rfl rfl rfl rfl, Select.rows_wrap, ← hrows]
  refine Select.wrapUnless_induction (P := fun t =>
    ({ t with groups := groupItems.map (·.expr), projection := groupItems ++ metricItems } : Select).rows I db = _)
    (fun hfree => ?_) ?_
  · simp only [Bool.and_eq_true, Bool.not_eq_true'] at hfree
    exact Select.rows_regrouped I db hfree.1.1.1 hfree.1.1.2 hfree.1.2 hfree.2 _ _
  · rw [Select.rows_regrouped I db (s := s.wrap) rfl rfl rfl rfl, Select.rows_wrap]

private theorem sameRows_sort {parent : Node} {keys : List (SortKey Node)} {type : DataType} {shape : Shape}
    (h : c.SortedOnce I ⟨.sort parent keys, type, shape⟩)
    (ih : c.SameRows I db parent) : c.SameRows I db ⟨.sort parent keys, type, shape⟩ := by
  have hsorts : parent.sorts = [] := by simpa using h.once
  rw [SameRows, lowerRelation, nestedRelation]
  refine (Tracks.refl (R := fun _ _ => True) (fun _ => trivial) _).bind fun _ _ _ _ _ => ?_
  refine ih.bind fun s r hs _ hrows => ?_
  refine (Tracks.refl (fun _ => rfl) _).bind fun order _ horder _ heq => .ok ?_
  subst heq
  rw [Select.rows_ordered I db (s := r.wrap) rfl rfl (.inl ⟨rfl, rfl⟩), Select.rows_wrap, ← hrows]
  refine Select.wrapUnless_induction (P := fun t => ({ t with order } : Select).rows I db = _) (fun hfree => ?_) ?_
  · simp only [Bool.and_eq_true, Bool.not_eq_true'] at hfree
    exact Select.rows_ordered I db hfree.1 ((c.lowers_of_lowerRelation hs).unordered hsorts)
      (c.outputs_of_sort h hs horder)
  · rw [Select.rows_ordered I db (s := s.wrap) rfl rfl (.inl ⟨rfl, rfl⟩), Select.rows_wrap]

private theorem sameRows_limit {parent : Node} {count : Option UInt64} {offset : UInt64} {type : DataType}
    {shape : Shape} (ih : c.SameRows I db parent) : c.SameRows I db ⟨.limit parent count offset, type, shape⟩ := by
  rw [SameRows, lowerRelation, nestedRelation]
  refine (Tracks.refl (R := fun _ _ => True) (fun _ => trivial) _).bind fun _ _ _ _ _ => ?_
  refine ih.bind fun s r hs _ hrows => .ok ?_
  have hfree : (s.wrapUnless (!s.isLimited)).isLimited = false :=
    Select.wrapUnless_induction (P := fun t => t.isLimited = false) (by simp) rfl
  rw [Select.rows_window I db (s := r.wrap) rfl, Select.rows_window I db hfree, Select.rows_wrap,
    Select.rows_wrapUnless, hrows]

/-- Merging keeps the rows of a relation without sorts, and of one whose order is safe. -/
private theorem sameRows (n : Node) (h : n.sorts = [] ∨ c.SortedOnce I n) : c.SameRows I db n := by
  induction n using Node.induction with
  | step n ih =>
    obtain ⟨op, type, shape⟩ := n
    have ih : ∀ m ∈ op.children, m.sorts = [] ∨ c.SortedOnce I m → c.SameRows I db m := ih
    cases op with
    | table name schema =>
      rw [SameRows, lowerRelation, nestedRelation]
      exact Tracks.refl (R := fun s r : Select => s.rows I db = r.rows I db) (fun _ => rfl) _
    | project parent values =>
      have hparent : parent ∈ (Op.project parent values).children := by simp [Op.children]
      exact c.sameRows_project h (ih parent hparent (h.imp id (·.parent hparent rfl)))
    | filter parent predicates =>
      have hparent : parent ∈ (Op.filter parent predicates).children := by simp [Op.children]
      exact c.sameRows_filter (h.imp id (·.unordered)) (ih parent hparent (h.imp id (·.parent hparent rfl)))
    | aggregate parent groups metrics =>
      have hparent : parent ∈ (Op.aggregate parent groups metrics).children := by simp [Op.children]
      exact c.sameRows_aggregate (ih parent hparent (h.imp id (·.parent hparent rfl)))
    | sort parent keys =>
      have hparent : parent ∈ (Op.sort parent keys).children := by simp [Op.children]
      have h := h.resolve_left (by simp)
      exact c.sameRows_sort h (ih parent hparent (.inr (h.parent hparent rfl)))
    | limit parent count offset =>
      have hparent : parent ∈ (Op.limit parent count offset).children := by simp [Op.children]
      exact c.sameRows_limit (ih parent hparent (h.imp id (·.parent hparent rfl)))
    | _ =>
      rw [SameRows, lowerRelation, nestedRelation]
      · exact Tracks.refl (R := fun s r : Select => s.rows I db = r.rows I db) (fun _ => rfl) _
      all_goals simp

end

end Compiler

/-! ### A small database -/

/-- Values are numbers, truth values are the numbers up to two, and all aggregates add up. -/
def Sql.Interpretation.numbers : Interpretation Nat where
  null := 0
  truth v := if v = 2 then some true else if v = 1 then some false else none
  ofTruth t := t.elim 0 fun b => if b then 2 else 1
  truth_ofTruth := by rintro (_ | _ | _) <;> rfl
  literal text := text.length
  keyword text := text.length
  cast v _ := v
  operator op a b := if op = "<" then (if a < b then 2 else 1) else a + b
  not v := v
  negate v := v
  isNull v _ := v
  apply _ args := args.sum
  aggregate _ inputs := (inputs.map (·.args.sum)).sum
  case _ branches _ := (branches.map (·.2)).sum
  interval v _ := v
  subscript v _ := v
  le a b := a ≤ b
  le_total a b := by simpa using Nat.le_total a b
  le_trans a b c := by simpa using Nat.le_trans

private theorem Sql.Interpretation.numbers_unordered : numbers.Unordered :=
  fun _ _ _ h => (h.map _).sum_nat

namespace Node

/-- Two rows of `pairs`. -/
def pairRows : String → List (Row Nat) := fun _ => [[("x", 1), ("y", 2)], [("x", 2), ("y", 1)]]

/-- The first row of `pairs`, if its `x` is less than the sum of `x` over what is left of the table. -/
def belowSum : Node :=
  let first : Node := ⟨.limit pairs (some 1) 0, pairs.type, .tabular⟩
  let sum : Node := ⟨.reduce .sum (first.column "x") none, .int .w64, .scalar⟩
  ⟨.filter first [⟨.binary .less (first.column "x") sum, .boolean, .columnar⟩], pairs.type, .tabular⟩

/-- The rows of `pairs` in the order of `x`. -/
def sortedPairs : Node := ⟨.sort pairs [⟨pairs.column "x", true⟩], pairs.type, .tabular⟩

/-- The values of `y` under a name of its own. -/
def renamed (relation : Node) (name : String) : Node :=
  ⟨.project relation [⟨name, relation.column "y"⟩], .struct [⟨name, .int .w64, true⟩], .tabular⟩

/-- The sort of `pairs` is valid. -/
theorem sortedPairs_valid : sortedPairs.Valid :=
  ⟨by simp [children, sortedPairs, Op.children, pairs_valid, column_valid], rfl⟩

private theorem renamed_valid (name : String) : (sortedPairs.renamed name).Valid := by
  have hcolumn : (sortedPairs.column "y").Valid := ⟨by simp [children, column, Op.children, sortedPairs_valid], rfl⟩
  exact ⟨by simp [children, renamed, Op.children, sortedPairs_valid, hcolumn], rfl⟩

private theorem lineage_renamed (name : String) :
    (sortedPairs.renamed name).lineage = [sortedPairs.renamed name, sortedPairs, pairs] := rfl

private theorem renamed_sortsByColumns (name : String) : (sortedPairs.renamed name).SortsByColumns := by
  intro m hm parent keys hop key hkey
  simp only [lineage_renamed, List.mem_cons, List.not_mem_nil, or_false] at hm
  rcases hm with rfl | rfl | rfl <;> cases hop
  obtain rfl : key = ⟨pairs.column "x", true⟩ := by simpa using hkey
  exact ⟨"x", rfl⟩

end Node

namespace Compiler

section

variable {V : Type} [DecidableEq V] (c : Compiler)

/-- Without a sort, merging operations into one statement never changes the rows: the statement of a relation has the
same rows as the statement in which every operation is nested, in every database and under every interpretation. -/
theorem rows_lowerRelation_of_unsorted (I : Interpretation V) (db : String → List (Row V)) {n : Node}
    (h : n.sorts = []) : (c.lowerRelation n).map (·.rows I db) = (c.nestedRelation n).map (·.rows I db) :=
  (c.sameRows n (.inl h)).map_eq fun _ _ hrows => hrows

/-- The filter on the first row has the same rows whether operations are merged or not. -/
theorem rows_lowerRelation_of_unsorted_belowSum :
    Node.belowSum.sorts = [] ∧ (base.lowerRelation Node.belowSum).map (·.rows .numbers Node.pairRows) =
      (base.nestedRelation Node.belowSum).map (·.rows .numbers Node.pairRows) :=
  ⟨rfl, base.rows_lowerRelation_of_unsorted .numbers Node.pairRows rfl⟩

/-- With one sort by columns, merging keeps the rows in their order unless a projection gives the name of a sort key
to another value. -/
theorem rows_lowerRelation_of_sorted (I : Interpretation V) (db : String → List (Row V)) {n : Node} (hn : n.Valid)
    (hI : I.Unordered) (honce : n.sorts.length = 1) (hcolumns : n.SortsByColumns) (hkeys : c.KeepsSortKeys n) :
    (c.lowerRelation n).map (·.rows I db) = (c.nestedRelation n).map (·.rows I db) :=
  (c.sameRows n (.inr ⟨hn, hI, honce.le, hcolumns, hkeys⟩)).map_eq fun _ _ hrows => hrows

/-- The values of `y` in the order of `x`, under a name that is no sort key. -/
theorem rows_lowerRelation_of_sorted_renamed :
    base.KeepsSortKeys (Node.sortedPairs.renamed "z") ∧
      (base.lowerRelation (Node.sortedPairs.renamed "z")).map (·.rows .numbers Node.pairRows) =
        (base.nestedRelation (Node.sortedPairs.renamed "z")).map (·.rows .numbers Node.pairRows) := by
  have hkeys : base.KeepsSortKeys (Node.sortedPairs.renamed "z") := by
    intro m hm hkind
    simp only [Node.lineage_renamed, List.mem_cons, List.not_mem_nil, or_false] at hm
    rcases hm with rfl | rfl | rfl <;> cases hkind
    have hkeeps : Select.KeepsKeys [⟨.column "y", some "z"⟩] [⟨.column "x", true⟩] := by
      simp [Select.KeepsKeys, columnName]
    exact Returns.ok hkeeps
  exact ⟨hkeys, base.rows_lowerRelation_of_sorted .numbers Node.pairRows (Node.renamed_valid "z")
    Interpretation.numbers_unordered rfl (Node.renamed_sortsByColumns "z") hkeys⟩

/-- A projection of `y` under the name of the sort key `x` is sorted by `y` when merged, and by `x` when nested. -/
theorem rows_lowerRelation_renamed_ne :
    (Node.sortedPairs.renamed "x").Valid ∧ (Node.sortedPairs.renamed "x").sorts.length = 1 ∧
      (Node.sortedPairs.renamed "x").SortsByColumns ∧
      (base.lowerRelation (Node.sortedPairs.renamed "x")).map (·.rows .numbers Node.pairRows) =
        .ok [[("x", 1)], [("x", 2)]] ∧
      (base.nestedRelation (Node.sortedPairs.renamed "x")).map (·.rows .numbers Node.pairRows) =
        .ok [[("x", 2)], [("x", 1)]] :=
  ⟨Node.renamed_valid "x", rfl, Node.renamed_sortsByColumns "x", rfl, rfl⟩

end

end Compiler

end SqlPlan
