import SqlPlan.Proofs.Trees

/-!
# Steps of compiled relations

A relation is compiled operation by operation. An operation keeps the source of its parent's statement or makes that
statement its source, replaces some clauses, and keeps the others. So what holds throughout the parent's statement
holds throughout the new one if and only if it holds of the new statement itself and of the values that are compiled
into it.

* `Lowers.source_cases`: what a compiled relation reads from.
* `Lowers.parent_induction`: induction over the operations of a compiled relation.
* `Lowers.throughout_iff`: what one operation adds to what holds throughout its parent's statement.
-/

namespace SqlPlan

open Sql

/-! ### Replaced clauses -/

namespace Sql

/-- A property of the two sides of `AND` holds of a conjunction if and only if it does of all predicates. -/
private theorem Expr.forall_mem_conjunction_iff {P : Expr → Prop}
    (hand : ∀ left right, P (.binary left "AND" right) ↔ P left ∧ P right) {es : List Expr} :
    (∀ e ∈ conjunction es, P e) ↔ ∀ e ∈ es, P e := by
  have hfold : ∀ (es : List Expr) (e : Expr),
      P (es.foldl (fun left right => .binary left "AND" right) e) ↔ P e ∧ ∀ k ∈ es, P k := by
    intro es
    induction es with
    | nil => simp
    | cons k es ih =>
      intro e
      rw [List.foldl_cons, ih, hand, List.forall_mem_cons, and_assoc]
  cases es with
  | nil => simp [conjunction]
  | cons e es => simp [conjunction, hfold]

namespace Select.Throughout

variable {P : Expr → Prop} {Q : Select → Prop} {s t : Select} (h : s.Throughout P Q)

include h

private theorem wrapUnless (hstar : P .star) (hwrap : Q s.wrap) (free : Bool) : (s.wrapUnless free).Throughout P Q :=
  wrapUnless_induction (P := Throughout P Q) (fun _ => h) (h.wrap hstar hwrap)

/-- What holds throughout a statement holds throughout its source for single values. -/
theorem scalarSource (hstar : P .star) (hwrap : Q s.wrap) (hunordered : Q { s with order := [] }) :
    s.scalarSource.Throughout P Q := by
  rcases s.scalarSource_cases with ⟨-, hsource⟩ | hsource
  · rw [hsource]
    exact h.update rfl hunordered (.inl rfl) (.inl rfl) (.inl rfl) (.inr (by simp))
  · rw [hsource]
    exact h.wrap hstar hwrap

/-- A statement for a single value. -/
theorem single_iff {e : Expr} (hsubquery : ∀ q, P (.subquery q)) (hsingle : Q { s with projection := [⟨e, none⟩] }) :
    (Expr.subquery { s with projection := [⟨e, none⟩] }).Throughout P Q ↔ e.Throughout P Q := by
  constructor
  · exact fun he => ((he _ .refl).2 _ rfl).exprs e (by simp [Select.exprs])
  · intro he
    refine Expr.throughout_iff.2 ⟨hsubquery _, by simp [Expr.operands], ?_⟩
    rintro q ⟨rfl⟩
    exact h.update rfl hsingle (.inr (List.forall_mem_singleton.2 he)) (.inl rfl) (.inl rfl) (.inl rfl)

/-- Over the same source, only the new expressions and the statement itself are left to look at. -/
private theorem replace_iff (new : List Expr) (hsource : t.source = s.source) (hnew : new ⊆ t.exprs)
    (hexprs : ∀ e ∈ t.exprs, e ∈ s.exprs ∨ e ∈ new) : t.Throughout P Q ↔ Q t ∧ ∀ e ∈ new, e.Throughout P Q := by
  constructor
  · exact fun ht => ⟨ht.here, fun e he => ht.exprs e (hnew he)⟩
  · rintro ⟨ht, hnew⟩
    refine throughout_iff.2 ⟨ht, fun e he => ?_, by rw [hsource]; exact h.source⟩
    rcases hexprs e he with he | he
    · exact h.exprs e he
    · exact hnew e he

private theorem addSelection_iff (hand : ∀ left right, P (.binary left "AND" right)) {es : List Expr} :
    (s.addSelection es).Throughout P Q ↔ Q (s.addSelection es) ∧ ∀ e ∈ es, e.Throughout P Q := by
  have hconjunction : (∀ e ∈ (s.addSelection es).selection.toList, e.Throughout P Q) ↔
      (∀ e ∈ s.selection.toList, e.Throughout P Q) ∧ ∀ e ∈ es, e.Throughout P Q := by
    simp only [Option.mem_toList]
    refine (Expr.forall_mem_conjunction_iff fun left right => ?_).trans (List.forall_mem_append.trans (by simp))
    rw [Expr.throughout_iff]
    simp [hand, Expr.operands]
  have hold : ∀ e ∈ s.selection.toList, e.Throughout P Q :=
    fun e he => h.exprs e (by simp [Select.exprs, Option.mem_toList.1 he])
  refine (h.replace_iff (s.addSelection es).selection.toList (by rfl) ?_ ?_).trans ?_
  · intro e he
    simp [Select.exprs, Option.mem_toList.1 he]
  · simp only [Select.exprs, List.mem_append]
    intro e he
    rcases he with ((he | he) | he) | he
    · exact .inl (.inl (.inl (.inl he)))
    · exact .inr he
    · exact .inl (.inl (.inr he))
    · exact .inl (.inr he)
  · rw [hconjunction, and_iff_right hold]

end Select.Throughout

end Sql

/-! ### Sources -/

namespace Sql.Select

/-- If the source is a statement, its label is that of its depth. -/
def Labelled (s : Select) : Prop := ∀ q label, s.source = .subquery q label → label = "t" ++ toString q.depth

/-- A wrapped statement is labelled by its depth. -/
theorem labelled_wrap (s : Select) : s.wrap.Labelled := by
  intro q label h
  obtain ⟨rfl, rfl⟩ := Source.subquery.inj h
  rfl

/-- Only the source counts. -/
theorem Labelled.of_source {s t : Select} (h : s.Labelled) (hsource : t.source = s.source) : t.Labelled :=
  fun q label hq => h q label (hsource.symm.trans hq)

end Sql.Select

namespace Compiler

variable {c : Compiler} {n : Node} {s : Select}

/-- A compiled relation reads from a table, from the source of its parent, or from its whole parent. -/
theorem Lowers.source_cases (h : c.Lowers n s) :
    (∃ name, s.source = .table name) ∨
      ∃ parent t, n.op.relation? = some parent ∧ c.Lowers parent t ∧
        (s.source = t.source ∨ s.source = t.wrap.source) := by
  have hwrapUnless : ∀ (t : Select) free, (t.wrapUnless free).source = t.source ∨
      (t.wrapUnless free).source = t.wrap.source := by
    intro t free
    cases free with
    | true => exact .inl rfl
    | false => exact .inr rfl
  cases h with
  | table name => exact .inl ⟨name, rfl⟩
  | unfiltered hparent => exact .inr ⟨_, _, rfl, hparent, .inl rfl⟩
  | project hparent | filter hparent | aggregate hparent | sort hparent | limit hparent =>
    exact .inr ⟨_, _, rfl, hparent, hwrapUnless _ _⟩

/-- One operation keeps the label of the source, or labels its parent. -/
theorem Lowers.labelled (h : c.Lowers n s)
    (hparent : ∀ parent t, n.op.relation? = some parent → c.Lowers parent t → t.Labelled) : s.Labelled := by
  rcases h.source_cases with ⟨name, hsource⟩ | ⟨parent, t, hrelation, ht, hsource | hsource⟩
  · intro q label hq
    cases hsource.symm.trans hq
  · exact (hparent parent t hrelation ht).of_source hsource
  · exact t.labelled_wrap.of_source hsource

end Compiler

/-! ### Operations -/

/-- Whether the values of an operation are taken row by row next to reductions, which have to be statements of their
own. -/
def Op.rowByRow : Op Node → Bool
  | .project _ values => mixesReductions values
  | .filter _ predicates => predicates.any (·.hasReduction)
  | _ => false

namespace Compiler

variable {c : Compiler} {n : Node} {s : Select}

/-- All inputs of a relation are compiled with it. -/
theorem Lowers.lowered_eq (h : c.Lowers n s) : n.lowered = n.children := by
  cases h <;> rfl

/-- The only scope that a statement gives is its source for single values. -/
theorem eq_of_mem_scopeFor {rowByRow : Bool} {source : Select} (h : source ∈ scopeFor rowByRow s) :
    source = s.scalarSource := by
  cases rowByRow with
  | false => cases h
  | true => exact (Option.some.inj h).symm

/-- Induction over the operations of a compiled relation. -/
theorem Lowers.parent_induction {motive : Node → Select → Prop}
    (step : ∀ {n s}, c.Lowers n s → (∀ parent t, n.op.relation? = some parent → c.Lowers parent t → motive parent t) →
      motive n s)
    (h : c.Lowers n s) : motive n s := by
  induction n using Node.induction generalizing s with
  | step n ih => exact step h fun parent t hparent ht => ih parent (Op.mem_children.2 (.inl hparent)) ht

/-- What one operation does: over a statement throughout which something holds, it leads to one if and only if it
holds of the new statement itself and of the values of the operation. -/
theorem Lowers.throughout_iff {P : Expr → Prop} {Q : Select → Prop} {H : Node → Prop} (h : c.Lowers n s)
    (hstar : P .star) (hand : ∀ left right, P (.binary left "AND" right)) (hwrap : ∀ t, Q (.wrap t))
    (hparent : ∀ parent t, n.op.relation? = some parent → c.Lowers parent t → t.Throughout P Q ∧
      ∀ m ∈ n.op.arguments, Returns (Expr.Throughout P Q · ↔ H m) (c.lower (scopeFor n.op.rowByRow t) m)) :
    s.Throughout P Q ↔ Q s ∧ ∀ m ∈ n.op.arguments, H m := by
  cases h with
  | table name schema type shape =>
    have hexpr : Expr.star.Throughout P Q := Expr.throughout_iff.2 ⟨hstar, by simp [Expr.operands], by simp⟩
    have hnone : ∀ m ∈ (Op.table name schema).arguments, H m := by simp [Op.arguments, Op.children]
    rw [Select.throughout_iff, and_iff_left hnone, and_iff_left]
    exact ⟨List.forall_mem_singleton.2 hexpr, by simp [Select.ofTable, Select.star]⟩
  | @project parent values type shape s projection hlowers hvalues =>
    obtain ⟨hs, harguments⟩ := hparent parent s rfl hlowers
    refine ((hs.wrapUnless hstar (hwrap s) _).replace_iff (projection.map (·.expr)) (by rfl) ?_ ?_).trans
      (and_congr_right' (List.forall_mem_map.trans (lowerNamed_iff harguments projection hvalues)))
    · simp [Select.exprs]
    · simp only [Select.exprs, List.mem_append]
      tauto
  | @unfiltered parent predicates type shape s hlowers hpredicates =>
    obtain ⟨hs, harguments⟩ := hparent parent s rfl hlowers
    have hnone : ∀ m ∈ predicates, H m := (lowerAll_iff harguments [] hpredicates).1 (by simp)
    exact iff_of_true hs ⟨hs.here, hnone⟩
  | @filter parent predicates type shape s es hlowers hpredicates hes =>
    obtain ⟨hs, harguments⟩ := hparent parent s rfl hlowers
    exact ((hs.wrapUnless hstar (hwrap s) _).addSelection_iff hand).trans
      (and_congr_right' (lowerAll_iff harguments es hpredicates))
  | @aggregate parent groups metrics type shape s groupItems metricItems hlowers hgroups hmetrics =>
    obtain ⟨hs, harguments⟩ := hparent parent s rfl hlowers
    have hinputs := harguments
    simp only [Op.arguments, List.map_append, List.forall_mem_append] at hinputs
    have hwrapped := hs.wrapUnless hstar (hwrap s) s.takesGroups
    refine (hwrapped.replace_iff ((groupItems ++ metricItems).map (·.expr)) (by rfl) ?_ ?_).trans
      (and_congr_right' ?_)
    · simp [Select.exprs]
    · -- the groups are among the items
      simp only [Select.exprs, List.mem_append, List.map_append]
      tauto
    · have hgroupItems := lowerNamed_iff hinputs.1 groupItems hgroups
      have hmetricItems := lowerNamed_iff hinputs.2 metricItems hmetrics
      simp only [Op.arguments, List.map_append, List.forall_mem_append, List.forall_mem_map]
        at hgroupItems hmetricItems ⊢
      exact and_congr hgroupItems hmetricItems
  | @sort parent keys type shape s order hlowers hkeys =>
    obtain ⟨hs, harguments⟩ := hparent parent s rfl hlowers
    refine ((hs.wrapUnless hstar (hwrap s) _).replace_iff (order.map (·.expr)) (by rfl) ?_ ?_).trans
      (and_congr_right' (List.forall_mem_map.trans (lowerKeys_iff harguments order hkeys)))
    · exact fun e he => List.mem_append_right _ he
    · simp only [Select.exprs, List.mem_append]
      tauto
  | @limit parent count offset type shape s hlowers =>
    obtain ⟨hs, -⟩ := hparent parent s rfl hlowers
    refine ((hs.wrapUnless hstar (hwrap s) _).replace_iff [] (by rfl) (List.nil_subset _) ?_).trans
      (and_congr_right' (iff_of_true (List.forall_mem_nil _) (List.forall_mem_nil _)))
    exact fun e he => .inl he

end Compiler

end SqlPlan
