import SqlPlan.Compiler.Relation
import SqlPlan.Proofs.Nodes

/-!
# What relations become

The statement of a relation comes about from the statement of its parent, by one rule for each operation. Statements
about all compiled relations follow by induction over the rules.

* `Compiler.Lowers`: the rules.
* `Compiler.lowers_of_lowerRelation`: a compiled relation is compiled by the rules.
-/

namespace SqlPlan

open Sql

/-- Whether reductions stand next to values that are taken row by row. -/
def mixesReductions (values : List (Named Node)) : Bool :=
  values.any (·.value.hasReduction) && values.any (·.value.shape != .scalar)

namespace Sql.Select

/-- Whether a projection may go into the statement. Reductions alone take all rows of it, in no particular order. -/
def takesProjection (s : Select) (values : List (Named Node)) : Bool :=
  s.isStar && !s.isGrouped &&
    !(values.any (·.value.hasReduction) && !mixesReductions values && (s.isLimited || s.isOrdered))

/-- A projection is put on statements only that select all columns. -/
theorem isStar_of_takesProjection {s : Select} {values : List (Named Node)} (h : s.takesProjection values = true) :
    s.isStar = true := by
  simp only [takesProjection, Bool.and_eq_true] at h
  exact h.1.1

/-- Whether a selection may go into the statement. -/
def takesSelection (s : Select) : Bool := s.isStar && !s.isGrouped && !s.isLimited

/-- A selection is put on statements only that select all columns. -/
theorem isStar_of_takesSelection {s : Select} (h : s.takesSelection = true) : s.isStar = true := by
  simp only [takesSelection, Bool.and_eq_true] at h
  exact h.1.1

/-- Whether groups may go into the statement. -/
def takesGroups (s : Select) : Bool := s.isStar && !s.isGrouped && !s.isLimited && !s.isOrdered

/-- Groups are put on statements only that select all columns. -/
theorem isStar_of_takesGroups {s : Select} (h : s.takesGroups = true) : s.isStar = true := by
  simp only [takesGroups, Bool.and_eq_true] at h
  exact h.1.1.1

/-- Whether an order may go into the statement. Only plain columns may be sorted by next to computed ones. -/
def takesOrder (s : Select) (order : List (SortKey Expr)) : Bool :=
  !s.isLimited && (s.isStar || order.all fun key => match key.expr with
    | .column _ => true
    | _ => false)

/-- A statement that may be wrapped is the statement or the wrapped one. -/
theorem wrapUnless_induction {P : Select → Prop} {free : Bool} {s : Select} (hfree : free = true → P s)
    (hwrap : P s.wrap) : P (s.wrapUnless free) := by
  cases free with
  | false => exact hwrap
  | true => exact hfree rfl

end Sql.Select

namespace Compiler

variable (c : Compiler)

/-- How the statement of a relation comes about. -/
inductive Lowers : Node → Select → Prop
  | table (name : String) (schema : Schema) (type : DataType) (shape : Shape) :
    Lowers ⟨.table name schema, type, shape⟩ (.ofTable name)
  | project {parent : Node} {values : List (Named Node)} {type : DataType} {shape : Shape} {s : Select}
    {projection : List (Item Expr)} (hparent : Lowers parent s)
    (hvalues : c.lowerNamed (scopeFor (mixesReductions values) s) values = .ok projection) :
    Lowers ⟨.project parent values, type, shape⟩ { s.wrapUnless (s.takesProjection values) with projection }
  | unfiltered {parent : Node} {predicates : List Node} {type : DataType} {shape : Shape} {s : Select}
    (hparent : Lowers parent s)
    (hpredicates : c.lowerAll (scopeFor (predicates.any (·.hasReduction)) s) predicates = .ok []) :
    Lowers ⟨.filter parent predicates, type, shape⟩ s
  | filter {parent : Node} {predicates : List Node} {type : DataType} {shape : Shape} {s : Select} {es : List Expr}
    (hparent : Lowers parent s)
    (hpredicates : c.lowerAll (scopeFor (predicates.any (·.hasReduction)) s) predicates = .ok es) (hes : es ≠ []) :
    Lowers ⟨.filter parent predicates, type, shape⟩ ((s.wrapUnless s.takesSelection).addSelection es)
  | aggregate {parent : Node} {groups metrics : List (Named Node)} {type : DataType} {shape : Shape} {s : Select}
    {groupItems metricItems : List (Item Expr)} (hparent : Lowers parent s)
    (hgroups : c.lowerNamed none groups = .ok groupItems) (hmetrics : c.lowerNamed none metrics = .ok metricItems) :
    Lowers ⟨.aggregate parent groups metrics, type, shape⟩
      { s.wrapUnless s.takesGroups with groups := groupItems.map (·.expr), projection := groupItems ++ metricItems }
  | sort {parent : Node} {keys : List (SortKey Node)} {type : DataType} {shape : Shape} {s : Select}
    {order : List (SortKey Expr)} (hparent : Lowers parent s) (hkeys : c.lowerKeys none keys = .ok order) :
    Lowers ⟨.sort parent keys, type, shape⟩ { s.wrapUnless (s.takesOrder order) with order }
  | limit {parent : Node} {count : Option UInt64} {offset : UInt64} {type : DataType} {shape : Shape} {s : Select}
    (hparent : Lowers parent s) :
    Lowers ⟨.limit parent count offset, type, shape⟩
      { s.wrapUnless (!s.isLimited) with limit := count, offset := if 0 < offset then some offset else none }

/-- A relation is compiled by the rules. -/
theorem lowers_of_lowerRelation {n : Node} {s : Select} (h : c.lowerRelation n = .ok s) : c.Lowers n s := by
  induction n using Node.induction generalizing s with
  | step n ih =>
    obtain ⟨op, type, shape⟩ := n
    have ih : ∀ m ∈ op.children, ∀ s, c.lowerRelation m = .ok s → c.Lowers m s := fun m hm s hs => ih m hm hs
    cases op with
    | table name schema =>
      rw [lowerRelation] at h
      obtain ⟨_, -, h⟩ := bind_eq_ok.1 h
      obtain rfl := Except.ok.inj h
      exact .table name schema type shape
    | project parent values =>
      rw [lowerRelation] at h
      obtain ⟨_, -, h⟩ := bind_eq_ok.1 h
      obtain ⟨s, hs, h⟩ := bind_eq_ok.1 h
      obtain ⟨projection, hprojection, h⟩ := bind_eq_ok.1 h
      obtain rfl := Except.ok.inj h
      exact .project (ih parent (by simp [Op.children]) s hs) hprojection
    | filter parent predicates =>
      rw [lowerRelation] at h
      obtain ⟨_, -, h⟩ := bind_eq_ok.1 h
      obtain ⟨s, hs, h⟩ := bind_eq_ok.1 h
      obtain ⟨es, hes, h⟩ := bind_eq_ok.1 h
      have hparent := ih parent (by simp [Op.children]) s hs
      split at h
      · rename_i hempty
        obtain rfl := Except.ok.inj h
        exact .unfiltered hparent (by rw [hes, List.isEmpty_iff.1 hempty])
      · rename_i hempty
        obtain rfl := Except.ok.inj h
        exact .filter hparent hes (by simpa using hempty)
    | aggregate parent groups metrics =>
      rw [lowerRelation] at h
      obtain ⟨_, -, h⟩ := bind_eq_ok.1 h
      obtain ⟨s, hs, h⟩ := bind_eq_ok.1 h
      obtain ⟨groupItems, hgroups, h⟩ := bind_eq_ok.1 h
      obtain ⟨metricItems, hmetrics, h⟩ := bind_eq_ok.1 h
      obtain rfl := Except.ok.inj h
      exact .aggregate (ih parent (by simp [Op.children]) s hs) hgroups hmetrics
    | sort parent keys =>
      rw [lowerRelation] at h
      obtain ⟨_, -, h⟩ := bind_eq_ok.1 h
      obtain ⟨s, hs, h⟩ := bind_eq_ok.1 h
      obtain ⟨order, horder, h⟩ := bind_eq_ok.1 h
      obtain rfl := Except.ok.inj h
      exact .sort (ih parent (by simp [Op.children]) s hs) horder
    | limit parent count offset =>
      rw [lowerRelation] at h
      obtain ⟨_, -, h⟩ := bind_eq_ok.1 h
      obtain ⟨s, hs, h⟩ := bind_eq_ok.1 h
      obtain rfl := Except.ok.inj h
      exact .limit (ih parent (by simp [Op.children]) s hs)
    | _ =>
      -- a value is not compiled as a relation
      rw [lowerRelation] at h
      · obtain ⟨_, -, h⟩ := bind_eq_ok.1 h
        cases h
      all_goals simp

end Compiler

end SqlPlan
