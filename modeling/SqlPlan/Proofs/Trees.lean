import SqlPlan.Proofs.Columns

/-!
# Trees of compiled SQL

Expressions and statements contain each other, through lists of operands and clauses. `tree_induction` is the
induction over all of them, and `Throughout P Q` says that `P` holds of every expression and `Q` of every statement in
a tree, at every depth.
-/

namespace SqlPlan

open Sql

namespace Sql

/-! ### Induction over trees -/

private theorem sizeOf_lt_of_mem_keys {k : Expr} {keys : List (SortKey Expr)} (h : k ∈ keys.map (·.expr)) :
    sizeOf k < sizeOf keys := by
  obtain ⟨key, hkey, rfl⟩ := List.mem_map.1 h
  have hlt := List.sizeOf_lt_of_mem hkey
  cases key
  simp only [SortKey.mk.sizeOf_spec] at hlt ⊢
  omega

private theorem sizeOf_lt_of_mem_option {k : Expr} {o : Option Expr} (h : k ∈ o.toList) : sizeOf k < sizeOf o := by
  obtain rfl : o = some k := by simpa using h
  simp

private theorem sizeOf_lt_of_mem_branches {k : Expr} {bs : List (Branch Expr)}
    (h : k ∈ bs.flatMap fun b => [b.condition, b.result]) : sizeOf k < sizeOf bs := by
  obtain ⟨b, hb, hk⟩ := List.mem_flatMap.1 h
  have hlt := List.sizeOf_lt_of_mem hb
  cases b
  simp only [Branch.mk.sizeOf_spec, List.mem_cons, List.not_mem_nil, or_false] at hlt hk
  rcases hk with rfl | rfl <;> omega

private theorem sizeOf_lt_of_mem_items {k : Expr} {items : List (Item Expr)} (h : k ∈ items.map (·.expr)) :
    sizeOf k < sizeOf items := by
  obtain ⟨item, hitem, rfl⟩ := List.mem_map.1 h
  have hlt := List.sizeOf_lt_of_mem hitem
  cases item
  simp only [Item.mk.sizeOf_spec] at hlt ⊢
  omega

/-- The operands of an expression are smaller than it. -/
private theorem Expr.sizeOf_lt_of_mem_operands {e k : Expr} (h : k ∈ e.operands) : sizeOf k < sizeOf e := by
  cases e with
  | star | column | literal | keyword | subquery => simp [operands] at h
  | cast | not | negate | isNull | interval | subscript =>
    simp only [operands, List.mem_singleton] at h
    subst h
    simp only [cast.sizeOf_spec, not.sizeOf_spec, negate.sizeOf_spec, isNull.sizeOf_spec, interval.sizeOf_spec,
      subscript.sizeOf_spec]
    omega
  | binary left op right =>
    simp only [operands, List.mem_cons, List.not_mem_nil, or_false] at h
    simp only [binary.sizeOf_spec]
    rcases h with rfl | rfl <;> omega
  | call function =>
    cases function with
    | mk name args order within filter =>
      simp only [operands, Call.operands, List.mem_append] at h
      simp only [call.sizeOf_spec, Call.mk.sizeOf_spec]
      rcases h with ((h | h) | h) | h
      · have := List.sizeOf_lt_of_mem h; omega
      · have := sizeOf_lt_of_mem_keys h; omega
      · have := sizeOf_lt_of_mem_keys h; omega
      · have := sizeOf_lt_of_mem_option h; omega
  | case operand branches default =>
    simp only [operands, List.mem_append] at h
    simp only [case.sizeOf_spec]
    rcases h with (h | h) | h
    · have := sizeOf_lt_of_mem_option h; omega
    · have := sizeOf_lt_of_mem_branches h; omega
    · have := sizeOf_lt_of_mem_option h; omega

/-- The expressions in a statement are smaller than it. -/
private theorem Select.sizeOf_lt_of_mem_exprs {s : Select} {e : Expr} (h : e ∈ s.exprs) : sizeOf e < sizeOf s := by
  cases s with
  | mk projection source selection groups order limit offset =>
    simp only [exprs, List.mem_append] at h
    simp only [mk.sizeOf_spec]
    rcases h with ((h | h) | h) | h
    · have := sizeOf_lt_of_mem_items h; omega
    · have := sizeOf_lt_of_mem_option h; omega
    · have := List.sizeOf_lt_of_mem h; omega
    · have := sizeOf_lt_of_mem_keys h; omega

private theorem Select.sizeOf_lt_of_source {s q : Select} {label : String} (h : s.source = .subquery q label) :
    sizeOf q < sizeOf s := by
  cases s
  obtain rfl := h
  simp
  omega

/-- A statement about expressions and one about statements hold everywhere if each holds of a tree whenever both hold
of its parts. -/
theorem tree_induction {P : Expr → Prop} {Q : Select → Prop}
    (expr : ∀ e : Expr, (∀ k ∈ e.operands, P k) → (∀ q, e = .subquery q → Q q) → P e)
    (select : ∀ s : Select, (∀ e ∈ s.exprs, P e) → (∀ q label, s.source = .subquery q label → Q q) → Q s) :
    (∀ e, P e) ∧ ∀ s, Q s := by
  have hbound : ∀ n, (∀ e : Expr, sizeOf e < n → P e) ∧ ∀ s : Select, sizeOf s < n → Q s := by
    intro n
    induction n with
    | zero => simp
    | succ n ih =>
      obtain ⟨hexpr, hselect⟩ := ih
      refine ⟨fun e he => expr e ?_ ?_, fun s hs => select s ?_ ?_⟩
      · intro k hk
        have hlt := Expr.sizeOf_lt_of_mem_operands hk
        exact hexpr k (by omega)
      · rintro q rfl
        simp only [Expr.subquery.sizeOf_spec] at he
        exact hselect q (by omega)
      · intro e he
        have hlt := Select.sizeOf_lt_of_mem_exprs he
        exact hexpr e (by omega)
      · intro q label hq
        have hlt := Select.sizeOf_lt_of_source hq
        exact hselect q (by omega)
  exact ⟨fun e => (hbound (sizeOf e + 1)).1 e (by omega), fun s => (hbound (sizeOf s + 1)).2 s (by omega)⟩

/-! ### Properties throughout a tree -/

section

variable (P : Expr → Prop) (Q : Select → Prop)

/-- Every statement in a statement satisfies `Q`, and every expression in it `P`. -/
def Select.Throughout (s : Select) : Prop :=
  ∀ t, s.Contains t → Q t ∧ ∀ e ∈ t.exprs, ∀ k, e.Mentions k → P k

/-- Every expression in an expression satisfies `P`, and every statement in it `Q`. -/
def Expr.Throughout (e : Expr) : Prop :=
  ∀ k, e.Mentions k → P k ∧ ∀ q, k = .subquery q → q.Throughout P Q

def Fragment.Throughout : Fragment → Prop
  | .expr e => e.Throughout P Q
  | .query q => q.Throughout P Q

end

variable {P : Expr → Prop} {Q : Select → Prop}

/-- A condition throughout an expression, by its operands and its statement. -/
theorem Expr.throughout_iff {e : Expr} :
    e.Throughout P Q ↔ P e ∧ (∀ k ∈ e.operands, k.Throughout P Q) ∧ ∀ q, e = .subquery q → q.Throughout P Q := by
  constructor
  · intro h
    exact ⟨(h e .refl).1, fun k hk m hm => h m (.head hk hm), (h e .refl).2⟩
  · rintro ⟨he, hoperands, hsingle⟩ k hk
    rcases mentions_iff.1 hk with rfl | ⟨m, hm, hk⟩
    · exact ⟨he, hsingle⟩
    · exact hoperands m hm k hk

/-- A condition throughout a statement, by its expressions and its source. -/
theorem Select.throughout_iff {s : Select} :
    s.Throughout P Q ↔
      Q s ∧ (∀ e ∈ s.exprs, e.Throughout P Q) ∧ ∀ q label, s.source = .subquery q label → q.Throughout P Q := by
  constructor
  · intro h
    refine ⟨(h s .refl).1, fun e he k hk => ⟨(h s .refl).2 e he k hk, ?_⟩, fun q label hq t ht => ?_⟩
    · rintro q rfl t ht
      exact h t (.head (.single he hk) ht)
    · exact h t (.head (.source hq) ht)
  · rintro ⟨hs, hexprs, hsource⟩ t ht
    rcases Relation.ReflTransGen.cases_head ht with rfl | ⟨q, hq, ht⟩
    · exact ⟨hs, fun e he k hk => (hexprs e he k hk).1⟩
    · cases hq with
      | source hq => exact hsource q _ hq t ht
      | single he hq => exact (hexprs _ he _ hq).2 q rfl t ht

section

variable {P' : Expr → Prop} {Q' : Select → Prop} (hP : ∀ e, P e → P' e) (hQ : ∀ s, Q s → Q' s)

include hP hQ

private theorem Select.Throughout.mono {s : Select} (h : s.Throughout P Q) : s.Throughout P' Q' :=
  fun t ht => ⟨hQ t (h t ht).1, fun e he k hk => hP k ((h t ht).2 e he k hk)⟩

private theorem Expr.Throughout.mono {e : Expr} (h : e.Throughout P Q) : e.Throughout P' Q' :=
  fun k hk => ⟨hP k (h k hk).1, fun q hq => ((h k hk).2 q hq).mono hP hQ⟩

theorem Fragment.Throughout.mono {f : Fragment} (h : f.Throughout P Q) : f.Throughout P' Q' := by
  cases f with
  | expr e => exact Expr.Throughout.mono hP hQ h
  | query q => exact Select.Throughout.mono hP hQ h

end

/-- Induction over the trees in which `P` and `Q` hold throughout. -/
theorem throughout_induction {M : Expr → Prop} {N : Select → Prop}
    (expr : ∀ e : Expr, e.Throughout P Q → (∀ k ∈ e.operands, M k) → (∀ q, e = .subquery q → N q) → M e)
    (select : ∀ s : Select, s.Throughout P Q → (∀ e ∈ s.exprs, M e) →
      (∀ q label, s.source = .subquery q label → N q) → N s) :
    (∀ e : Expr, e.Throughout P Q → M e) ∧ ∀ s : Select, s.Throughout P Q → N s := by
  refine tree_induction (fun e hoperands hsingle he => ?_) fun s hexprs hsource hs => ?_
  · obtain ⟨-, hk, hq⟩ := Expr.throughout_iff.1 he
    exact expr e he (fun k h => hoperands k h (hk k h)) fun q h => hsingle q h (hq q h)
  · obtain ⟨-, he, hq⟩ := Select.throughout_iff.1 hs
    exact select s hs (fun e h => hexprs e h (he e h)) fun q label h => hsource q label h (hq q label h)

namespace Select.Throughout

variable {s t : Select}

theorem here (h : s.Throughout P Q) : Q s := (throughout_iff.1 h).1

theorem exprs (h : s.Throughout P Q) : ∀ e ∈ s.exprs, e.Throughout P Q := (throughout_iff.1 h).2.1

theorem source (h : s.Throughout P Q) : ∀ q label, s.source = .subquery q label → q.Throughout P Q :=
  (throughout_iff.1 h).2.2

/-- A statement over the same source, in which every clause is kept or a new one. -/
theorem update (h : s.Throughout P Q) (hsource : t.source = s.source) (ht : Q t)
    (hprojection : t.projection = s.projection ∨ ∀ item ∈ t.projection, item.expr.Throughout P Q)
    (hselection : t.selection = s.selection ∨ ∀ e ∈ t.selection, e.Throughout P Q)
    (hgroups : t.groups = s.groups ∨ ∀ e ∈ t.groups, e.Throughout P Q)
    (horder : t.order = s.order ∨ ∀ key ∈ t.order, key.expr.Throughout P Q) : t.Throughout P Q := by
  obtain ⟨hprojection', hselection', hgroups', horder'⟩ := forall_mem_exprs.1 h.exprs
  refine throughout_iff.2 ⟨ht, forall_mem_exprs.2 ⟨?_, ?_, ?_, ?_⟩, by rw [hsource]; exact h.source⟩
  · rcases hprojection with heq | hnew
    · rwa [heq]
    · exact hnew
  · rcases hselection with heq | hnew
    · rwa [heq]
    · exact hnew
  · rcases hgroups with heq | hnew
    · rwa [heq]
    · exact hnew
  · rcases horder with heq | hnew
    · rwa [heq]
    · exact hnew

/-- What holds throughout a statement holds throughout the wrapped one. -/
theorem wrap (h : s.Throughout P Q) (hstar : P .star) (hs : Q s.wrap) : s.wrap.Throughout P Q := by
  have hleaf : Expr.star.Throughout P Q := Expr.throughout_iff.2 ⟨hstar, by simp [Expr.operands], by simp⟩
  refine throughout_iff.2 ⟨hs, ?_, ?_⟩
  · simpa [Select.exprs, Select.wrap, star] using hleaf
  · intro q label hq
    obtain ⟨rfl, -⟩ := Source.subquery.inj hq
    exact h

end Select.Throughout

end Sql

end SqlPlan
