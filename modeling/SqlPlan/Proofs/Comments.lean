import SqlPlan.Proofs.Texts

/-!
# Comments in compiled SQL

A comment starts in compiled SQL where a negation meets the sign of a number, and nowhere else. Such a number is a
literal of the node, and the negation one of its operations.

* `Compiler.lower_isLiteral`: what is compiled to a literal.
* `Compiler.commented_compile_iff`: where comments start.
-/

namespace SqlPlan

open Sql

/-! ### Signs of values -/

/-- Whether a value is a negative number. -/
def Value.isSigned : Value → Bool
  | .int n => n.toInt < 0
  | .float x => isNegative x
  | _ => false

/-- Whether a node negates a literal that is a negative number. -/
def Node.negatesSigned (n : Node) : Bool :=
  match n.op with
  | .unary .negate ⟨.literal value _, _, _⟩ => value.isSigned
  | _ => false

namespace Sql.Expr

/-- Whether an expression is a literal. -/
def isLiteral : Expr → Bool
  | .literal _ => true
  | _ => false

private theorem isLiteral_of_isSigned {e : Expr} (h : e.isSigned = true) : e.isLiteral = true := by
  cases e with
  | literal => rfl
  | _ => cases h

end Sql.Expr

namespace Node

mutual

/-- Whether a node is a null without a type. A cast of it to that type changes nothing. -/
def isBareNull : Node → Bool
  | ⟨op, _, _⟩ => opIsBareNull op

def opIsBareNull : Op Node → Bool
  | .null type => type.isNull
  | .cast arg target => target.isNull && isBareNull arg
  | _ => false

end

private theorem Valid.of_loweredWith {n m : Node} (h : n.Valid) (hm : n.LoweredWith m) : m.Valid := by
  induction hm with
  | refl => exact h
  | tail _ hlowered ih => exact ih.inputs _ (mem_children_of_mem_lowered hlowered)

private theorem eq_null_of_isNull {t : DataType} (h : t.isNull = true) : t = .null := by
  unfold DataType.isNull at h
  split at h
  · rfl
  · cases h

private theorem type_of_castable_null {t target : DataType} (h : t.castable target = true)
    (htarget : target.isNull = true) : t = .null := by
  obtain rfl := eq_null_of_isNull htarget
  cases t with
  | primitive p =>
    cases p with
    | null => rfl
    | _ => cases h
  | array | struct | map => cases h

/-- No literal has the type of null. -/
theorem Valid.ne_literal_of_isNull {n : Node} (h : n.Valid) (htype : n.type.isNull = true) (value : Value)
    (type : DataType) : n.op ≠ .literal value type := by
  intro hop
  have hliteral := h.hasType
  rw [hop] at hliteral
  obtain ⟨hnull, hconforms, rfl⟩ := hliteral
  rw [eq_null_of_isNull htype] at hconforms
  cases value with
  | null => cases hnull
  | _ => cases hconforms

/-- Only a null is cast to the type of null. -/
private theorem Valid.ne_literal_of_castNull {arg : Node} {target type : DataType} {shape : Shape}
    (h : Valid ⟨.cast arg target, type, shape⟩) (htarget : target.isNull = true) (value : Value)
    (valueType : DataType) : arg.op ≠ .literal value valueType := by
  obtain ⟨hcastable, -⟩ := h.hasType
  have harg : arg.type.isNull = true := by rw [type_of_castable_null hcastable htarget]; rfl
  exact (h.inputs arg (by simp [children, Op.children])).ne_literal_of_isNull harg value valueType

end Node

namespace Compiler

variable (c : Compiler)

private theorem castTo_isLiteral (e : Expr) (type : DataType) :
    Returns (fun f => f.isLiteral = false) (c.handlers.castTo e type) :=
  (Returns.trivial _).bind fun _ _ => Returns.ok rfl

private theorem castTo_unsigned (e : Expr) (type : DataType) :
    Returns (fun f => f.isSigned = false) (c.handlers.castTo e type) :=
  (Returns.trivial _).bind fun _ _ => Returns.ok rfl

private theorem nullLiteral_isLiteral (type : DataType) :
    Returns (fun f => f.isLiteral = true → type.isNull = true ∧ f = .literal "NULL")
      (c.handlers.nullLiteral type) := by
  unfold Handlers.nullLiteral
  split
  · rename_i hnull
    exact Returns.ok fun _ => ⟨hnull, rfl⟩
  · exact (c.castTo_isLiteral _ type).mono fun f hf hliteral => by simp [hf] at hliteral

private theorem quoteString_unsigned (text : String) : (Expr.literal (quoteString text)).isSigned = false := by
  simp [Expr.isSigned, quoteString, toList_quoted]

/-- Only a negative number is compiled to a literal with a sign. -/
private theorem commonLiteral_isSigned (value : Value) (type : DataType) :
    Returns (fun e => e.isSigned = true → value.isSigned = true) (c.commonLiteral value type) := by
  have hunsigned : ∀ {x : Except CompileError Expr}, Returns (fun e => e.isSigned = false) x →
      Returns (fun e => e.isSigned = true → value.isSigned = true) x := by
    intro x hx e he hsigned
    simp [hx e he] at hsigned
  have hnumber : ∀ n : Int, (n < 0 → value.isSigned = true) →
      Returns (fun e => e.isSigned = true → value.isSigned = true) (c.handlers.number n type) := by
    intro n hn
    unfold Handlers.number
    split
    · exact hunsigned (c.castTo_unsigned _ type)
    · exact Returns.ok fun hsigned => hn (lt_of_head?_toString (by simpa [Expr.isSigned] using hsigned))
  -- only numbers are written with a sign: all others are quoted or are words
  cases value with
  | null =>
    intro e he hsigned
    rw [(c.nullLiteral_isLiteral type e he (Expr.isLiteral_of_isSigned hsigned)).2] at hsigned
    exact absurd hsigned (by decide)
  | boolean b => exact hunsigned (Returns.ok (by cases b <;> decide))
  | int n =>
    unfold commonLiteral Handlers.commonLiteral
    split
    · unfold Handlers.interval
      split
      · exact hunsigned (Returns.ok rfl)
      · exact Returns.error _
    · exact hnumber _ fun hn => by simpa [Value.isSigned] using hn
  | uint n => exact hnumber _ fun hn => by omega
  | float x =>
    unfold commonLiteral Handlers.commonLiteral Handlers.floatLiteral
    split
    · exact hunsigned (c.castTo_unsigned _ type)
    split
    · exact hunsigned (c.castTo_unsigned _ type)
    split
    · exact hunsigned (c.castTo_unsigned _ type)
    · exact Returns.ok fun hsigned => isNegative_of_head?_write (by simpa [Expr.isSigned] using hsigned)
  | decimal text | date d | json text => exact hunsigned (c.castTo_unsigned _ type)
  | string text =>
    unfold commonLiteral Handlers.commonLiteral
    split
    · exact hunsigned (c.castTo_unsigned _ _)
    · exact hunsigned (Returns.ok (quoteString_unsigned text))
  | binary bytes | time t => exact hunsigned (Returns.ok (by simp [Expr.isSigned]))
  | timestamp t =>
    unfold commonLiteral Handlers.commonLiteral Handlers.timestampLiteral
    split
    · exact hunsigned (c.castTo_unsigned _ _)
    · exact hunsigned (Returns.ok (by simp [Expr.isSigned]))
  | array items =>
    unfold commonLiteral Handlers.commonLiteral
    split
    · split
      · exact hunsigned (c.castTo_unsigned _ _)
      · exact (Returns.trivial _).bind fun texts _ => hunsigned (Returns.ok (by simp [Expr.isSigned]))
    · exact Returns.error _

private theorem literal_isSigned (value : Value) (type : DataType) :
    Returns (fun e => e.isSigned = true → value.isSigned = true) (c.literal value type) := by
  rcases c.literal_cases value type with ⟨text, -, hown⟩ | ⟨bytes, -, hown⟩ | hown <;> rw [hown]
  · exact Returns.ok (by simp [quoteString_unsigned])
  · exact (c.castTo_unsigned _ type).mono fun e he => by simp [he]
  · exact c.commonLiteral_isSigned value type

private theorem unary_isLiteral (op : UnaryOp) (e : Expr) : (c.handlers.unary op e).isLiteral = false := by
  cases op with
  | stringLength =>
    obtain ⟨name, -, hlength⟩ := c.exists_stringLength
    rw [hlength]
    rfl
  | _ => rfl

private theorem truncation_isLiteral (kind : Kind) (e : Expr) (unit : TemporalUnit) :
    Returns (fun f => f.isLiteral = false) (c.truncation kind e unit) := by
  unfold truncation
  split
  · exact Returns.ok rfl
  · exact Returns.error _

private theorem intervalOf_isLiteral (e : Expr) (shape : Shape) (unit : TemporalUnit) :
    Returns (fun f => f.isLiteral = false) (c.intervalOf e shape unit) := by
  unfold intervalOf
  split
  · exact Returns.error _
  · split
    · exact Returns.ok rfl
    · exact Returns.ok rfl
    · exact Returns.error _

private theorem generated_isLiteral (source : Generator) :
    Returns (fun f => f.isLiteral = false) (c.handlers.generated source) := by
  intro e he
  rcases c.generated_cases he with ⟨text, -, rfl⟩ | ⟨name, -, rfl⟩ | ⟨name, -, rfl⟩ <;> rfl

private theorem inScope_isLiteral {e : Expr} (h : e.isReduction = true) (scope : Option Select) :
    (e.inScope scope).isLiteral = false := by
  cases scope with
  | some source => rfl
  | none =>
    cases e with
    | literal => cases h
    | _ => rfl

/-- A value that is compiled to a literal is one, or a null without a type. -/
theorem lower_isLiteral {n : Node} (hn : n.Valid) (scope : Option Select) :
    Returns (fun e => e.isLiteral = true →
      (∃ value type, n.op = .literal value type ∧ c.literal value type = .ok e) ∨
        n.isBareNull = true ∧ e = .literal "NULL") (c.lower scope n) := by
  refine (c.lower_induction (motive := fun _ n e => n.Valid → e.isLiteral = true →
    (∃ value type, n.op = .literal value type ∧ c.literal value type = .ok e) ∨
      n.isBareNull = true ∧ e = .literal "NULL") (fun {scope n e} hmakes hn hs => ?_) scope n).mono fun e he => he hn
  cases hmakes with
  | literal he => exact .inl ⟨_, _, rfl, he⟩
  | null he => exact .inr (c.nullLiteral_isLiteral _ _ he hs)
  | castNull htarget he =>
    have harg := hn.inputs _ (Node.mem_children_of_mem_lowered he.1)
    rcases he.2.2 harg hs with ⟨value, type, hop, -⟩ | ⟨hnull, he⟩
    · exact absurd hop (hn.ne_literal_of_castNull htarget value type)
    · exact .inr ⟨Bool.and_eq_true_iff.2 ⟨htarget, hnull⟩, he⟩
  | cast _ hf => simp [c.castTo_isLiteral _ _ _ hf] at hs
  | unary => simp [c.unary_isLiteral] at hs
  | truncate _ hf => simp [c.truncation_isLiteral _ _ _ _ hf] at hs
  | generate he => simp [c.generated_isLiteral _ _ he] at hs
  | interval _ hf => simp [c.intervalOf_isLiteral _ _ _ _ hf] at hs
  | reduce _ _ hcall => simp [inScope_isLiteral (c.reduction_isReduction _ _ _ _ _ hcall)] at hs
  | pick => simp [inScope_isLiteral (c.pick_isReduction _ _ _ _)] at hs
  | correlate => simp [inScope_isLiteral (c.correlation_isReduction _ _ _)] at hs
  | field | binary | simpleCase | searchedCase | dateFromYmd => cases hs

/-- A value that is compiled to a number with a sign is a literal. -/
private theorem exists_literal_of_isSigned {scope : Option Select} {n : Node} {e : Expr} (hn : n.Valid)
    (he : c.lower scope n = .ok e) (hsigned : e.isSigned = true) :
    ∃ value type, n.op = .literal value type ∧ value.isSigned = true := by
  rcases c.lower_isLiteral hn scope e he (Expr.isLiteral_of_isSigned hsigned) with
    ⟨value, type, hop, hvalue⟩ | ⟨-, rfl⟩
  · exact ⟨value, type, hop, c.literal_isSigned value type e hvalue hsigned⟩
  · exact absurd hsigned (by decide)

/-! ### Where comments start -/

private theorem negates_unsigned {n : Node} (hn : n.Valid) (h : ∀ m, n.LoweredWith m → m.negatesSigned = false) :
    c.Negates (fun e => e.isSigned = false) n := by
  intro m hm arg hop scope e he
  have harg : arg.Valid := (hn.of_loweredWith hm).argument (by simp [hop, Op.arguments, Op.children])
  rw [← Bool.not_eq_true]
  intro hsigned
  obtain ⟨value, type, hliteral, hvalue⟩ := c.exists_literal_of_isSigned harg he hsigned
  have hnot := h m hm
  obtain ⟨op, argType, argShape⟩ := arg
  obtain rfl : op = .literal value type := hliteral
  rw [Node.negatesSigned, hop] at hnot
  simp [hvalue] at hnot

end Compiler

namespace Sql

/-- If no number with a sign is negated, no two signs meet. -/
private theorem Fragment.Written.singleSigns {f : Fragment} (h : f.Written fun e => e.isSigned = false) :
    f.SingleSigns := by
  have hworded : ∀ k : Expr, k.Worded (fun e => e.isSigned = false) → k.doublesSign = false := by
    intro k hk
    cases k with
    | negate e => exact hk
    | _ => rfl
  exact h.mono hworded fun _ _ => True.intro

end Sql

namespace Compiler

variable {c : Compiler}

/-- A comment starts in a compiled text just if two signs meet in it, and for this a number with a sign has to be
negated somewhere in the node. -/
theorem commented_compile_iff (hc : c ∈ builtins) {n : Node} (hn : n.Valid) {f : Fragment}
    (hf : c.compile n = .ok f) :
    (Commented (bare f.text.toList) ↔ ¬f.SingleSigns) ∧
      (Commented (bare f.text.toList) → ∃ m, n.LoweredWith m ∧ m.negatesSigned = true) := by
  have hunits := c.wordedUnits_of_mem_builtins hc
  have hiff := (Fragment.settled_text (compile_written hunits (c.negates_true n) f hf)).commented
  refine ⟨hiff, fun hcommented => ?_⟩
  by_contra hnone
  have hunsigned : ∀ m, n.LoweredWith m → m.negatesSigned = false := by
    intro m hm
    by_contra hm'
    exact hnone ⟨m, hm, by simpa using hm'⟩
  have hsingle := (compile_written hunits (c.negates_unsigned hn hunsigned) f hf).singleSigns
  exact hiff.1 hcommented hsingle

/-- The number -5. -/
def minusFive : Node := ⟨.literal (.int (-5)) (.int .w64), .int .w64, .scalar⟩

private theorem minusFive_valid : minusFive.Valid := ⟨by simp [minusFive, Node.children, Op.children], rfl⟩

/-- The negated column `x`, less the number -5. -/
def negatedLessMinusFive : Node :=
  ⟨.binary .subtract ⟨.unary .negate (Node.pairs.column "x"), .int .w64, .columnar⟩ minusFive, .int .w64, .columnar⟩

private theorem negatedLessMinusFive_valid : negatedLessMinusFive.Valid := by
  refine ⟨?_, rfl⟩
  simp only [negatedLessMinusFive, Node.children, Op.children, List.forall_mem_cons]
  refine ⟨⟨?_, rfl⟩, minusFive_valid, by simp⟩
  simp [Node.children, Op.children, Node.column_valid]

/-- A sign next to a subtraction starts no comment. -/
theorem commented_compile_iff_negatedLessMinusFive :
    negatedLessMinusFive.Valid ∧ ∃ f, base.compile negatedLessMinusFive = .ok f ∧
      f.text = "((-\"x\") - -5)" ∧ ¬Commented (bare f.text.toList) ∧ f.SingleSigns := by
  have hvalid := negatedLessMinusFive_valid
  have hbase : base ∈ builtins := by simp [builtins]
  have hiff := (commented_compile_iff hbase hvalid rfl).1
  refine ⟨hvalid, _, rfl, by decide, by decide, ?_⟩
  by_contra hsigns
  exact absurd (hiff.2 hsigns) (by decide)

/-- The negation of a negative number starts a comment. -/
theorem commented_compile_negated :
    ∃ n f, n.Valid ∧ base.compile n = .ok f ∧ f.text = "(--5)" ∧ Commented (bare f.text.toList) := by
  refine ⟨⟨.unary .negate minusFive, .int .w64, .scalar⟩, _, ⟨?_, rfl⟩, rfl, ?_, ?_⟩
  · simpa [Node.children, Op.children] using minusFive_valid
  · decide
  · decide

end Compiler

end SqlPlan
