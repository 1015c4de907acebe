import SqlPlan.Proofs.Positions

/-!
# Numbers of units in intervals

An interval of a literal is written as the quoted text of the literal with a unit. The text is the numeral of an
integer, whether the interval is itself the literal of a node or made from an integer, except where it is made from a
null without a type: nulls are admitted in the place of integers, and such a null is a literal as well.

* `lower_isBareNull`: a null without a type is the literal `NULL`.
* `lower_allSpan_iff`: the texts of intervals in a compiled value.
* `Lowers.allSpan_iff`: what one operation adds to the texts of intervals in a compiled relation.
* `intervals_compile`: in compiled SQL, the texts of intervals are numerals, unless an interval is made from a null.
-/

namespace SqlPlan

open Sql

/-! ### Texts of intervals -/

namespace Sql

variable {p : String → Prop}

/-- If an expression is an interval of a literal, `p` holds of the text. -/
def Expr.Spans (p : String → Prop) : Expr → Prop
  | .interval (.literal text) _ => p text
  | _ => True

/-- All intervals of literals in an expression have texts with `p`. -/
abbrev Expr.AllSpan (p : String → Prop) (e : Expr) : Prop := e.Throughout (Spans p) fun _ => True

abbrev Select.AllSpan (p : String → Prop) (s : Select) : Prop := s.Throughout (Expr.Spans p) fun _ => True

abbrev Fragment.AllSpan (p : String → Prop) (f : Fragment) : Prop := f.Throughout (Expr.Spans p) fun _ => True

/-- All intervals of literals are intervals of an integral number of units. -/
abbrev Select.AllCounted (s : Select) : Prop := s.AllSpan fun text => isNumeral text.toList = true

abbrev Fragment.AllCounted (f : Fragment) : Prop := f.AllSpan fun text => isNumeral text.toList = true

namespace Expr

variable {e : Expr}

private theorem spans_of_isInterval (h : e.isInterval = false) : e.Spans p := by
  unfold Spans
  split
  · cases h
  · trivial

private theorem spans_interval {unit : String} (h : ∀ text, e = .literal text → p text) :
    (interval e unit).Spans p := by
  cases e with
  | literal text => exact h text rfl
  | _ => trivial

private theorem allSpan_iff_operands (href : e.isReference = false) (hinterval : e.isInterval = false) :
    e.AllSpan p ↔ ∀ k ∈ e.operands, k.AllSpan p := by
  have hsingle : ∀ q, e = .subquery q → q.AllSpan p := by
    rintro q rfl
    cases href
  rw [AllSpan, throughout_iff]
  exact ⟨fun h => h.2.1, fun h => ⟨spans_of_isInterval hinterval, h, hsingle⟩⟩

private theorem allSpan_literal (text : String) : (literal text).AllSpan p :=
  (allSpan_iff_operands rfl rfl).2 (by simp [operands])

private theorem allSpan_interval_iff {unit : String} :
    (interval e unit).AllSpan p ↔ (interval e unit).Spans p ∧ e.AllSpan p := by
  rw [AllSpan, throughout_iff]
  simp [operands]

private theorem allSpan_iff_reduced (h : e.isReduction = true) : e.AllSpan p ↔ ∀ k ∈ e.reduced, k.AllSpan p := by
  unfold isReduction at h
  split at h
  · exact allSpan_iff_operands rfl rfl
  · rw [allSpan_iff_operands rfl rfl, operands, List.forall_mem_singleton]
    exact allSpan_iff_operands rfl rfl
  · cases h

end Expr

end Sql

/-! ### Intervals of nulls -/

namespace Node

/-- Whether a node makes an interval from a null without a type. -/
def spansNull (n : Node) : Bool :=
  match n.op with
  | .interval arg _ => arg.isBareNull
  | _ => false

/-- If an interval of a null is compiled with a node, `p` holds of the text of a null. -/
def Spans (p : String → Prop) (n : Node) : Prop := ∀ m, n.LoweredWith m → m.spansNull = true → p "NULL"

variable {p : String → Prop} {n : Node}

private theorem spans_iff : n.Spans p ↔ (n.spansNull = true → p "NULL") ∧ ∀ m ∈ n.lowered, m.Spans p :=
  forall_loweredWith

private theorem spans_iff_of_ne_interval (h : ∀ arg unit, n.op ≠ .interval arg unit) :
    n.Spans p ↔ ∀ m ∈ n.lowered, m.Spans p := by
  have hnull : n.spansNull = false := by
    unfold spansNull
    split
    · rename_i arg unit hop
      exact absurd hop (h arg unit)
    · rfl
  rw [spans_iff]
  simp [hnull]

private theorem spans_iff_of_not (h : ¬p "NULL") : n.Spans p ↔ ∀ m, n.LoweredWith m → m.spansNull = false :=
  forall₂_congr fun m _ => by simp [h]

private theorem spansNull_of_isRelation (h : n.op.isRelation = true) : n.spansNull = false := by
  unfold spansNull
  split
  · rename_i hop
    rw [hop] at h
    cases h
  · rfl

private theorem lowered_eq_arguments (h : n.op.isRelation = false) : n.lowered = n.op.arguments := by
  obtain ⟨op, type, shape⟩ := n
  cases op with
  | table | project | filter | aggregate | sort | limit => cases h
  | _ => rfl

/-- A null without a type is one value. -/
private theorem Valid.shape_of_isBareNull (hn : n.Valid) (h : n.isBareNull = true) : n.shape = .scalar := by
  induction n using Node.induction with
  | step n ih =>
    have hshape := hn.shape_eq
    obtain ⟨op, type, shape⟩ := n
    cases op with
    | null => exact hshape
    | cast arg target =>
      have harg := hn.inputs arg (by simp [children, Op.children])
      have hscalar := ih arg (by simp [children, Op.children]) harg (Bool.and_eq_true_iff.1 h).2
      rw [Op.shape, Op.children, List.map_singleton, hscalar] at hshape
      exact hshape
    | _ => cases h

/-- A literal in an interval is the literal of an integer. -/
private theorem Valid.isIntegerLiteral_of_interval {arg : Node} {unit : TemporalUnit} {type : DataType}
    {shape : Shape} (h : Valid ⟨.interval arg unit, type, shape⟩) {value : Value} {valueType : DataType}
    (hop : arg.op = .literal value valueType) : arg.isIntegerLiteral = true := by
  have harg := h.inputs arg (by simp [children, Op.children])
  obtain ⟨haccepts, -⟩ := h.hasType
  have hnull := mt (fun hnull => harg.ne_literal_of_isNull hnull value valueType) (not_not_intro hop)
  have hliteral := harg.hasType
  rw [hop] at hliteral
  obtain ⟨-, -, rfl⟩ := hliteral
  rw [isIntegerLiteral, hop]
  exact haccepts.resolve_right hnull

end Node

namespace Compiler

variable {c : Compiler} {p : String → Prop} {n : Node}

variable (c) in
/-- A null without a type is compiled to `NULL`. -/
theorem lower_isBareNull (h : n.isBareNull = true) (scope : Option Select) :
    Returns (· = .literal "NULL") (c.lower scope n) := by
  induction n using Node.induction with
  | step n ih =>
    obtain ⟨op, type, shape⟩ := n
    rw [lower_eq]
    refine (Returns.trivial _).bind fun _ _ => ?_
    cases op with
    | null type =>
      have htype : type.isNull = true := h
      rw [lowerOp, Handlers.nullLiteral, if_pos htype]
      exact .ok rfl
    | cast arg target =>
      obtain ⟨htarget, harg⟩ := Bool.and_eq_true_iff.1 h
      rw [lowerOp]
      refine (ih arg (by simp [Node.children, Op.children]) harg).bind fun e he => ?_
      rw [if_pos htarget]
      exact .ok he
    | _ => cases h

section

variable (hp : ∀ text, isNumeral text.toList = true → p text)

include hp

private theorem literal_allSpan (value : Value) (type : DataType) :
    Returns (Expr.AllSpan p) (c.literal value type) := by
  refine (c.literal_spelling value type).mono fun e he => ?_
  cases he with
  | literal text => exact Expr.allSpan_literal text
  | cast text =>
    exact (Expr.allSpan_iff_operands rfl rfl).2 (by simpa [Expr.operands] using Expr.allSpan_literal text)
  | interval k unit => exact Expr.allSpan_interval_iff.2 ⟨hp _ (isNumeral_toString k), Expr.allSpan_literal _⟩

/-- The text of an interval is that of a null if it is made from one, and a numeral otherwise. -/
private theorem intervalOf_allSpan_iff {arg : Node} {unit : TemporalUnit} {type : DataType} {shape : Shape}
    (hn : Node.Valid ⟨.interval arg unit, type, shape⟩) {scope : Option Select} {e : Expr}
    (he : c.lower scope arg = .ok e) (hiff : e.AllSpan p ↔ arg.Spans p) :
    Returns (Expr.AllSpan p · ↔ Node.Spans p ⟨.interval arg unit, type, shape⟩) (c.intervalOf e arg.shape unit) := by
  have harg := hn.inputs arg (by simp [Node.children, Op.children])
  have hspans : Node.Spans p ⟨.interval arg unit, type, shape⟩ ↔
      (arg.isBareNull = true → p "NULL") ∧ e.AllSpan p := by
    rw [hiff, Node.spans_iff]
    simp [Node.spansNull, Node.lowered, Op.children]
  rw [hspans]
  cases hnull : arg.isBareNull with
  | true =>
    obtain rfl := c.lower_isBareNull hnull scope e he
    rw [harg.shape_of_isBareNull hnull]
    unfold intervalOf
    split
    · exact .error _
    · exact .ok (Expr.allSpan_interval_iff.trans (by simp [Expr.Spans]))
  | false =>
    -- a literal is a numeral, since it is not a null
    have hnumeral : ∀ text, e = .literal text → p text := by
      rintro text rfl
      rcases c.lower_isLiteral harg scope _ he rfl with ⟨value, valueType, hop, -⟩ | ⟨hbare, -⟩
      · refine hp text ((c.lower_isNumeral harg scope _ he).trans ?_)
        exact hn.isIntegerLiteral_of_interval hop
      · simp [hnull] at hbare
    have hunit : ∀ keyword, (Expr.interval (.literal "1") keyword).AllSpan p :=
      fun keyword => Expr.allSpan_interval_iff.2 ⟨hp "1" (by decide), Expr.allSpan_literal _⟩
    simp only [Bool.false_eq_true, false_imp_iff, true_and]
    unfold intervalOf
    split
    · exact .error _
    split
    · exact .ok (Expr.allSpan_interval_iff.trans (and_iff_right (Expr.spans_interval hnumeral)))
    · refine .ok ((Expr.allSpan_iff_operands rfl rfl).trans ?_)
      simp [Expr.operands, hunit]
    · exact .error _

/-- In a compiled value, all intervals of literals have texts with `p` if and only if no interval is made from a null,
or the text of a null has it too. -/
theorem lower_allSpan_iff (hn : n.Valid) {scope : Option Select} (hscope : ∀ source ∈ scope, source.AllSpan p) :
    Returns (Expr.AllSpan p · ↔ n.Spans p) (c.lower scope n) := by
  have hP : ∀ e : Expr, e.isReference = false → e.isAggregate = false → e.isInterval = false →
      (e.AllSpan p ↔ ∀ k ∈ e.operands, k.AllSpan p) :=
    fun e href _ hinterval => Expr.allSpan_iff_operands href hinterval
  refine lower_iff (G := fun scope => ∀ source ∈ scope, source.AllSpan p) hP (fun name => ?_) (literal_allSpan hp)
    (fun m _ _ hinterval => Node.spans_iff_of_ne_interval hinterval)
    (fun scope arg unit type shape e hn he hiff => intervalOf_allSpan_iff hp hn he hiff)
    (fun m scope e hm hreduction hscope hinput he => ?_) hn (by simp) hscope
  · exact Expr.throughout_iff.2 ⟨True.intro, by simp [Expr.operands], by simp⟩
  · have hop : ∀ arg unit, m.op ≠ .interval arg unit := by
      intro arg unit hop
      rw [hop] at hreduction
      cases hreduction
    have hcall : e.AllSpan p ↔ m.Spans p := by
      rw [Expr.allSpan_iff_reduced (c.lower_isReduction hreduction e he), Node.spans_iff_of_ne_interval hop]
      exact lower_reduced_iff hP hreduction hinput e he
    rw [← hcall]
    cases scope with
    | none => rfl
    | some source => exact (hscope source rfl).single_iff (fun _ => True.intro) True.intro

/-- What one operation does: over a statement whose intervals have texts with `p`, it leads to one if and only if its
values do. -/
theorem Lowers.allSpan_iff {s : Select} (h : c.Lowers n s) (hn : n.Valid)
    (hparent : ∀ parent t, n.op.relation? = some parent → c.Lowers parent t → t.AllSpan p) :
    s.AllSpan p ↔ ∀ m ∈ n.op.arguments, m.Spans p := by
  refine (h.throughout_iff True.intro (fun _ _ => True.intro) (fun _ => True.intro) ?_).trans
    (and_iff_right True.intro)
  intro parent t hrelation ht
  have hs := hparent parent t hrelation ht
  refine ⟨hs, fun m hm => lower_allSpan_iff hp (hn.argument hm) fun source hsource => ?_⟩
  obtain rfl := eq_of_mem_scopeFor hsource
  exact hs.scalarSource True.intro True.intro True.intro

/-- What holds of the text of a null, or of a relation without intervals of nulls, by induction over the
operations. -/
private theorem Lowers.allSpan {s : Select} (h : c.Lowers n s) (hn : n.Valid) (hspans : n.Spans p) : s.AllSpan p := by
  refine h.parent_induction (motive := fun n s => n.Valid → n.Spans p → s.AllSpan p) ?_ hn hspans
  intro n s h ih hn hspans
  have hinput := (Node.spans_iff.1 hspans).2
  rw [h.lowered_eq] at hinput
  refine (h.allSpan_iff hp hn fun parent t hrelation ht => ?_).2 fun m hm => hinput m (Op.mem_children.2 (.inr hm))
  exact ih parent t hrelation ht (hn.relation hrelation) (hinput parent (Op.mem_children.2 (.inl hrelation)))

private theorem compile_allSpan (hn : n.Valid) (hspans : n.Spans p) : Returns (Fragment.AllSpan p) (c.compile n) := by
  unfold compile
  split
  · refine Returns.map (P := fun s => c.lowerRelation n = .ok s) (fun s hs => hs) fun s hs => ?_
    exact (c.lowers_of_lowerRelation hs).allSpan hp hn hspans
  · exact (lower_allSpan_iff hp hn (by simp)).map fun e he => he.2 hspans

/-- What one operation does to the texts of intervals, on values as well as on relations. -/
theorem compile_allSpan_iff (hn : n.Valid)
    (hparent : ∀ parent ∈ n.op.relation?, ∀ t, c.lowerRelation parent = .ok t → t.AllSpan p) :
    Returns (Fragment.AllSpan p · ↔ (n.spansNull = true → p "NULL") ∧ ∀ m ∈ n.op.arguments, m.Spans p)
      (c.compile n) := by
  have hkind : n.isRelation = n.op.isRelation := hn.isRelation_eq.trans (Op.isRelation_kind n.op)
  unfold compile
  split
  · rename_i hrelation
    have hnull : n.spansNull = false := Node.spansNull_of_isRelation (hkind.symm.trans hrelation)
    refine Returns.map (P := fun s => c.lowerRelation n = .ok s) (fun s hs => hs) fun s hs => ?_
    refine ((c.lowers_of_lowerRelation hs).allSpan_iff hp hn fun parent t hrelation ht => ?_).trans (by simp [hnull])
    exact hparent parent hrelation t (c.lowerRelation_of_relation? hs hrelation ht)
  · rename_i hvalue
    refine (lower_allSpan_iff hp hn (by simp)).map fun e he => he.trans ?_
    rw [Node.spans_iff, Node.lowered_eq_arguments (by simpa [hkind] using hvalue)]

end

/-- In compiled SQL, at every depth, the text of an interval is a numeral or `NULL`, and all texts are numerals if no
interval is made from a null without a type. An operation over intervals of numerals leads to an interval of `NULL` if
and only if it makes one or there is one in its values. -/
theorem intervals_compile {f : Fragment} (hn : n.Valid) (hf : c.compile n = .ok f) :
    f.AllSpan (fun text => isNumeral text.toList = true ∨ text = "NULL") ∧
      ((∀ m, n.LoweredWith m → m.spansNull = false) → f.AllCounted) ∧
      ((∀ parent ∈ n.op.relation?, ∀ t, c.lowerRelation parent = .ok t → t.AllCounted) →
        (f.AllCounted ↔ n.spansNull = false ∧
          ∀ m ∈ n.op.arguments, ∀ k, m.LoweredWith k → k.spansNull = false)) := by
  have hnumeral : ¬isNumeral "NULL".toList = true := by decide
  refine ⟨?_, fun hnone => ?_, fun hparent => ?_⟩
  · exact compile_allSpan (fun _ => .inl) hn (fun _ _ _ => .inr rfl) f hf
  · exact compile_allSpan (fun _ => id) hn ((Node.spans_iff_of_not hnumeral).2 hnone) f hf
  · refine (compile_allSpan_iff (fun _ => id) hn hparent f hf).trans (and_congr ?_ ?_)
    · rw [← Bool.not_eq_true]
      exact ⟨fun hnull h => hnumeral (hnull h), fun hnull h => absurd h hnull⟩
    · exact forall₂_congr fun m _ => Node.spans_iff_of_not hnumeral

end Compiler

namespace Node

/-- Three days, and as many days as the column `x` says. -/
def threeAndMoreDays : Node :=
  let three : Node := ⟨.literal (.int 3) (.int .w64), .int .w64, .scalar⟩
  ⟨.binary .add ⟨.interval three .day, .interval .day, .scalar⟩
    ⟨.interval (pairs.column "x") .day, .interval .day, .columnar⟩, .interval .day, .columnar⟩

/-- As many days as a null without a type says. -/
def nullDays : Node := ⟨.interval ⟨.null .null, .null, .scalar⟩ .day, .interval .day, .scalar⟩

end Node

/-- Made from integers, intervals have numbers of units. -/
theorem Compiler.intervals_compile_threeAndMoreDays :
    Node.threeAndMoreDays.Valid ∧ ∃ f, base.compile Node.threeAndMoreDays = .ok f ∧
      f.text = "(INTERVAL '3' DAY + (\"x\" * INTERVAL '1' DAY))" ∧ f.AllCounted := by
  have hvalid : Node.threeAndMoreDays.Valid := by
    refine ⟨?_, rfl⟩
    simp only [Node.threeAndMoreDays, Node.children, Op.children, List.forall_mem_cons]
    refine ⟨⟨?_, rfl⟩, ⟨?_, rfl⟩, by simp⟩
    · exact List.forall_mem_singleton.2 ⟨by simp [Node.children, Op.children], rfl⟩
    · exact List.forall_mem_singleton.2 Node.column_valid
  have hleaf : ∀ m : Node, m.lowered = [] → m.spansNull = false → ∀ k, m.LoweredWith k → k.spansNull = false :=
    fun m hnone hm => Node.forall_loweredWith.2 ⟨hm, by simp [hnone]⟩
  refine ⟨hvalid, _, rfl, by decide, (intervals_compile (c := base) hvalid rfl).2.1 ?_⟩
  refine Node.forall_loweredWith.2 ⟨rfl, List.forall_mem_cons.2 ⟨?_, List.forall_mem_singleton.2 ?_⟩⟩
  · exact Node.forall_loweredWith.2 ⟨rfl, List.forall_mem_singleton.2 (hleaf _ rfl rfl)⟩
  · exact Node.forall_loweredWith.2 ⟨rfl, List.forall_mem_singleton.2 (hleaf _ rfl rfl)⟩

/-- Made from a null without a type, an interval has the text of a null. -/
theorem Compiler.not_allCounted_nullDays :
    Node.nullDays.Valid ∧
      ∃ f, base.compile Node.nullDays = .ok f ∧ f.text = "INTERVAL 'NULL' DAY" ∧ ¬f.AllCounted := by
  have hvalid : Node.nullDays.Valid := by
    refine ⟨List.forall_mem_singleton.2 ⟨by simp [Node.children, Op.children], rfl⟩, rfl⟩
  refine ⟨hvalid, _, rfl, by decide, fun h => ?_⟩
  have htext : isNumeral "NULL".toList = true := (h _ .refl).1
  exact absurd htext (by decide)

end SqlPlan
