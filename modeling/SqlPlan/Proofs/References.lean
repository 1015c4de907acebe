import SqlPlan.Proofs.Compilable
import SqlPlan.Proofs.Merging

/-!
# What compiled values refer to

The columns in a compiled value are the fields of the node, and the statements in it are those for its outermost
reductions, over the rows of the scope.

* `Sql.Expr.Mentions`: what occurs in an expression, outside of the statements in it.
* `Compiler.lower_onlyRefers`: the two facts.
-/

namespace SqlPlan

open Sql

/-! ### Parts of expressions -/

namespace Sql.Expr

/-- An expression occurs in another one, outside of statements for single values. -/
def Mentions (e part : Expr) : Prop := Relation.ReflTransGen (fun a b => b ∈ a.operands) e part

/-- What an expression mentions is the expression itself or mentioned by an operand. -/
theorem mentions_iff {e part : Expr} : e.Mentions part ↔ part = e ∨ ∃ k ∈ e.operands, k.Mentions part := by
  constructor
  · intro h
    rcases Relation.ReflTransGen.cases_head h with rfl | ⟨k, hk, h⟩
    · exact .inl rfl
    · exact .inr ⟨k, hk, h⟩
  · rintro (rfl | ⟨k, hk, h⟩)
    · exact .refl
    · exact .head hk h

/-- An expression without operands mentions itself only. -/
theorem eq_of_mentions_of_operands {e part : Expr} (h : e.Mentions part) (hoperands : e.operands = []) :
    part = e := by
  rcases mentions_iff.1 h with rfl | ⟨k, hk, -⟩
  · rfl
  · simp [hoperands] at hk

end Sql.Expr

namespace Compiler

variable (c : Compiler)

/-- What a value that is compiled in a scope may refer to: the fields that are compiled with it, and statements over
the scope for the reductions among them. -/
inductive Refers (scope : Option Select) (n : Node) : Expr → Prop
  | column {m relation : Node} {name : String} (hm : n.LoweredWith m) (hfield : m.op = .field relation name) :
    Refers scope n (.column name)
  | single {m : Node} {source : Select} {call : Expr} (hm : n.LoweredWith m) (hscope : scope = some source)
    (hcall : c.lower none m = .ok call) : Refers scope n (.subquery { source with projection := [⟨call, none⟩] })

/-- All that an expression refers to is what a compiled value may refer to. -/
def OnlyRefers (scope : Option Select) (n : Node) (e : Expr) : Prop :=
  ∀ part, part.isReference = true → e.Mentions part → c.Refers scope n part

variable {c} {scope : Option Select} {n : Node} {e : Expr}

private theorem onlyRefers_iff_operands (h : e.isReference = false) :
    c.OnlyRefers scope n e ↔ ∀ k ∈ e.operands, c.OnlyRefers scope n k := by
  constructor
  · exact fun he k hk part hreference hpart => he part hreference (.head hk hpart)
  · intro hoperands part hreference hpart
    rcases Expr.mentions_iff.1 hpart with rfl | ⟨k, hk, hpart⟩
    · simp [h] at hreference
    · exact hoperands k hk part hreference hpart

/-- The call of an aggregate refers to what the expressions in it do. -/
private theorem OnlyRefers.of_reduced (he : e.isReduction = true) (h : ∀ k ∈ e.reduced, c.OnlyRefers scope n k) :
    c.OnlyRefers scope n e := by
  unfold Expr.isReduction at he
  split at he
  · exact (onlyRefers_iff_operands rfl).2 h
  · refine (onlyRefers_iff_operands rfl).2 (List.forall_mem_singleton.2 ?_)
    exact (onlyRefers_iff_operands rfl).2 h
  · cases he

variable (c) in
/-- A compiled value refers to the fields that are compiled with it, and in a scope to statements for reductions. -/
theorem lower_onlyRefers (scope : Option Select) (n : Node) : Returns (c.OnlyRefers scope n) (c.lower scope n) := by
  refine lower_closes (H := n.LoweredWith) (fun e href _ => (onlyRefers_iff_operands href).2)
    (fun m hm _ _ k hk => hm.tail hk) (fun relation name type shape hm part _ hpart => ?_)
    (fun m e hm hreduction hinput he => ?_) n .refl
  · obtain rfl := Expr.eq_of_mentions_of_operands hpart rfl
    exact .column hm rfl
  · cases scope with
    | some source =>
      intro part _ hpart
      obtain rfl := Expr.eq_of_mentions_of_operands hpart rfl
      exact .single hm rfl he
    | none =>
      -- without a scope, the inputs of the reduction are compiled as the rest of the value is
      refine .of_reduced (c.lower_isReduction hreduction e he) ?_
      refine (lower_reduced_iff (fun _ href _ _ => onlyRefers_iff_operands href) (H := fun _ => True) hreduction
        (fun k hk => ?_) e he).2 (fun _ _ => True.intro)
      exact (hinput k hk (hm.tail hk)).mono fun _ hrefers => iff_of_true hrefers True.intro

variable (c) in
/-- Without a scope, there are no statements in a value. -/
theorem lower_none_singles (n : Node) : Returns (fun e => ∀ q, ¬e.Mentions (.subquery q)) (c.lower none n) := by
  intro e he q hq
  cases c.lower_onlyRefers none n e he _ rfl hq with
  | single _ hscope _ => cases hscope

end Compiler

end SqlPlan
