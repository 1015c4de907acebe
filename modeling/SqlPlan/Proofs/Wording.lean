import SqlPlan.Proofs.Steps
import SqlPlan.Proofs.Words

/-!
# How compiled SQL is worded

All texts in compiled SQL are literals, names of types, words for units, or out of short lists: operators, functions
and keywords.

* `Expr.Worded`, `Select.Worded`: what is said of the texts at one place of a tree, and `Written` of a whole tree.
* `Compiler.compile_written`: all compiled SQL is written in this way, if the words for units are words.
-/

namespace SqlPlan

open Sql

namespace Sql

/-! ### Trees of words -/

/-- The functions of compiled SQL besides the aggregates. -/
def functionNames : List String :=
  ["DATE_TRUNC", "MAKE_DATE", "UUID", "GEN_RANDOM_UUID", "LENGTH", "CHAR_LENGTH", "LOWER", "UPPER"]

/-- What is said of the texts at one place of a tree, and of the operands `N` that negations have. -/
def Expr.Worded (N : Expr → Prop) : Expr → Prop
  | .literal text => LiteralText text
  | .keyword text => text ∈ ["CURRENT_DATE", "CURRENT_TIMESTAMP"]
  | .cast _ target => Contained target.toList
  | .binary _ op _ => ∃ operator : BinaryOp, op = operator.symbol
  | .call function => function.name ∈ functionNames ++ aggregateNames
  | .interval _ unit => ∀ c ∈ unit.toList, isWordChar c = true
  | .subscript expr index => (∃ function, expr = .call function) ∧ index = 1
  | .negate expr => N expr
  | .star | .column _ | .not _ | .isNull _ _ | .case _ _ _ | .subquery _ => True

/-- A column is never put out without a name, and a statement in a source is named by its depth. -/
structure Select.Worded (s : Select) : Prop where
  unlabelled : ∀ item ∈ s.projection, item.label = none → ∀ name, item.expr ≠ .column name
  label : ∀ q label, s.source = .subquery q label → label = "t" ++ toString q.depth

section

variable (N : Expr → Prop)

def Expr.Written (e : Expr) : Prop := e.Throughout (Expr.Worded N) Select.Worded

def Select.Written (s : Select) : Prop := s.Throughout (Expr.Worded N) Select.Worded

def Fragment.Written (f : Fragment) : Prop := f.Throughout (Expr.Worded N) Select.Worded

end

variable {N : Expr → Prop}

namespace Expr.Written

variable {e : Expr}

theorem worded (h : e.Written N) : e.Worded N := (throughout_iff.1 h).1

theorem operands (h : e.Written N) : ∀ k ∈ e.operands, k.Written N := (throughout_iff.1 h).2.1

theorem query {q : Select} (h : (Expr.subquery q).Written N) : q.Written N := (throughout_iff.1 h).2.2 q rfl

private theorem of_operands (h : e.Worded N) (hoperands : ∀ k ∈ e.operands, k.Written N)
    (hne : ∀ q, e ≠ .subquery q) : e.Written N :=
  throughout_iff.2 ⟨h, hoperands, fun q hq => absurd hq (hne q)⟩

private theorem subquery {q : Select} (h : q.Written N) : (Expr.subquery q).Written N := by
  refine throughout_iff.2 ⟨True.intro, by simp [Expr.operands], fun q' hq => ?_⟩
  obtain rfl := Expr.subquery.inj hq
  exact h

private theorem literal {text : String} (h : LiteralText text) : (Expr.literal text).Written N :=
  of_operands h (by simp [Expr.operands]) (by simp)

private theorem cast {target : String} (h : e.Written N) (htarget : Contained target.toList) :
    (Expr.cast e target).Written N :=
  of_operands htarget (by simpa [Expr.operands] using h) (by simp)

private theorem interval {unit : String} (h : e.Written N) (hunit : ∀ c ∈ unit.toList, isWordChar c = true) :
    (Expr.interval e unit).Written N :=
  of_operands hunit (by simpa [Expr.operands] using h) (by simp)

private theorem binary {d : Expr} (operator : BinaryOp) (h : e.Written N) (hd : d.Written N) :
    (Expr.binary e operator.symbol d).Written N :=
  of_operands ⟨operator, rfl⟩ (by simpa [Expr.operands] using ⟨h, hd⟩) (by simp)

private theorem case {operand default : Option Expr} {branches : List (Branch Expr)}
    (hoperand : ∀ k ∈ operand, k.Written N) (hbranches : ∀ b ∈ branches, b.condition.Written N ∧ b.result.Written N)
    (hdefault : ∀ k ∈ default, k.Written N) : (Expr.case operand branches default).Written N :=
  of_operands True.intro (forall_mem_operands_case.2 ⟨hoperand, hbranches, hdefault⟩) (by simp)

private theorem call {function : Call Expr} (hname : function.name ∈ functionNames ++ aggregateNames)
    (hoperands : ∀ k ∈ function.operands, k.Written N) : (Expr.call function).Written N :=
  of_operands hname hoperands (by simp)

private theorem apply {name : String} {args : List Expr} (hname : name ∈ functionNames)
    (hargs : ∀ k ∈ args, k.Written N) : (Expr.apply name args).Written N :=
  call (List.mem_append_left _ hname) (by simpa [Call.operands] using hargs)

end Expr.Written

/-- Induction over written trees. -/
theorem written_induction {P : Expr → Prop} {Q : Select → Prop}
    (expr : ∀ e : Expr, e.Written N → (∀ k ∈ e.operands, P k) → (∀ q, e = .subquery q → Q q) → P e)
    (select : ∀ s : Select, s.Written N → (∀ e ∈ s.exprs, P e) →
      (∀ q label, s.source = .subquery q label → Q q) → Q s) :
    (∀ e : Expr, e.Written N → P e) ∧ ∀ s : Select, s.Written N → Q s :=
  throughout_induction expr select

end Sql

namespace Compiler

variable (c : Compiler)

/-! ### Literals of values -/

private theorem castTo_written {e : Expr} (he : e.Written N) (type : DataType) :
    Returns (Expr.Written N) (c.handlers.castTo e type) :=
  (c.typeName_contained type).bind fun _ hname => Returns.ok (he.cast hname)

/-- The words for units in intervals are words. -/
def WordedUnits : Prop :=
  ∀ unit keyword, c.dialect.intervalUnits unit = some keyword → ∀ ch ∈ keyword.toList, isWordChar ch = true

/-- The built-in dialects have words for their units. -/
theorem wordedUnits_of_mem_builtins (hc : c ∈ builtins) : c.WordedUnits := by
  have hplain : ∀ unit keyword, Dialect.plainIntervalUnits unit = some keyword →
      ∀ ch ∈ keyword.toList, isWordChar ch = true := by
    intro unit keyword h
    cases unit <;> cases h <;> decide
  simp only [builtins, List.mem_cons, List.not_mem_nil, or_false] at hc
  rcases hc with rfl | rfl | rfl | rfl <;> exact hplain

private theorem castText_written {text : String} (h : LiteralText text) (type : DataType) :
    Returns (Expr.Written N) (c.handlers.castTo (.literal text) type) :=
  c.castTo_written (.literal h) type

private theorem quoteString_literalText (text : String) : LiteralText (quoteString text) := by
  have hstring := LiteralText.string "" text (by decide)
  rwa [String.empty_append] at hstring

theorem nullLiteral_written (type : DataType) : Returns (Expr.Written N) (c.handlers.nullLiteral type) := by
  have hnull : LiteralText "NULL" := .word (by simp)
  unfold Handlers.nullLiteral
  split
  · exact Returns.ok (.literal hnull)
  · exact c.castText_written hnull type

private theorem number_written (n : Int) (type : DataType) : Returns (Expr.Written N) (c.handlers.number n type) := by
  unfold Handlers.number
  split
  · exact c.castText_written (.int n) type
  · exact Returns.ok (.literal (.int n))

private theorem floatLiteral_written (x : Float) (type : DataType) :
    Returns (Expr.Written N) (c.handlers.floatLiteral x type) := by
  unfold Handlers.floatLiteral
  split
  · exact c.castText_written (quoteString_literalText "NaN") type
  split
  · refine c.castText_written ?_ type
    split
    · exact quoteString_literalText "-Infinity"
    · exact quoteString_literalText "Infinity"
  split
  · exact c.castText_written (.float x) type
  · exact Returns.ok (.literal (.float x))

private theorem timestampLiteral_written (t : Timestamp) (type : DataType) :
    Returns (Expr.Written N) (c.handlers.timestampLiteral t type) := by
  unfold Handlers.timestampLiteral
  split
  · exact c.castText_written (quoteString_literalText _) _
  · have htext : '\'' ∉ (t.text " ").toList := by simp [Timestamp.text, not_mem_dateText, not_mem_timeText]
    exact Returns.ok (.literal (.marked "TIMESTAMP " _ (by simp) htext))

/-- The text of a value closes all that it opens. -/
private theorem Spelling.contained {e : Expr} (h : Spelling e) (hwritten : e.Written N) :
    Contained e.text.toList := by
  cases h with
  | literal text => exact LiteralText.contained hwritten.worded
  | cast text target =>
    have htext : LiteralText text := (hwritten.operands (.literal text) (by simp [Expr.operands])).worded
    have htarget : Contained target.toList := hwritten.worded
    have hcast : Contained "CAST".toList := by decide
    have hpair := htext.contained.append_cons (by decide : isPlain ' ' = true)
      (.plain_append (by decide : ∀ c ∈ "AS ".toList, isPlain c = true) htarget)
    simpa [Expr.text] using hcast.enclosed (by rfl : closer? '(' = some ')') hpair .nil
  | interval n unit =>
    have hunit : ∀ ch ∈ unit.toList, isWordChar ch = true := hwritten.worded
    have hunit : Contained unit.toList := by
      simpa using Settled.plain_append (fun ch hch => isPlain_of_isWordChar (hunit ch hch)) .nil
    have hpair := (contained_quoteString (toString n)).append_cons (by decide : isPlain ' ' = true) hunit
    simpa [Expr.text, intervalText] using
      Settled.plain_append (by decide : ∀ c ∈ "INTERVAL ".toList, isPlain c = true) hpair

private theorem literal_written_of_common {value : Value} {type : DataType}
    (hcommon : Returns (Expr.Written N) (c.commonLiteral value type)) :
    Returns (Expr.Written N) (c.literal value type) := by
  rcases c.literal_cases value type with ⟨text, -, hown⟩ | ⟨bytes, -, hown⟩ | hown <;> rw [hown]
  · exact Returns.ok (.literal (quoteString_literalText _))
  · exact c.castText_written (quoteString_literalText _) type
  · exact hcommon

variable {c} in
mutual

private theorem commonLiteral_written (hc : c.WordedUnits) : ∀ (value : Value) (type : DataType),
    Returns (Expr.Written N) (c.commonLiteral value type)
  | .null, type => c.nullLiteral_written type
  | .boolean b, _ => by
    refine Returns.ok (.literal (.word ?_))
    cases b <;> simp
  | .int n, type => by
    unfold commonLiteral Handlers.commonLiteral
    split
    · unfold Handlers.interval
      split
      · rename_i keyword hkeyword
        exact Returns.ok ((Expr.Written.literal (.int n.toInt)).interval (hc _ keyword hkeyword))
      · exact Returns.error _
    · exact c.number_written n.toInt type
  | .uint n, type => c.number_written n.toNat type
  | .float x, type => c.floatLiteral_written x type
  | .decimal _, type | .date _, type | .json _, type => c.castText_written (quoteString_literalText _) type
  | .string text, type => by
    unfold commonLiteral Handlers.commonLiteral
    split
    · exact c.castText_written (quoteString_literalText text) _
    · exact Returns.ok (.literal (quoteString_literalText text))
  | .binary bytes, _ => Returns.ok (.literal (.marked "X" _ (by simp) (not_mem_hexCapitals bytes)))
  | .time t, _ => Returns.ok (.literal (.marked "TIME " _ (by simp) (not_mem_timeText t)))
  | .timestamp t, type => c.timestampLiteral_written t type
  | .array items, type => by
    unfold commonLiteral Handlers.commonLiteral
    split
    · split
      · exact c.castText_written (LiteralText.array "" .nil) _
      · refine (elementTexts_contained hc items _).bind fun texts htexts => Returns.ok ?_
        exact .literal (.array _ (Contained.intercalate htexts))
    · exact Returns.error _

private theorem elementTexts_contained (hc : c.WordedUnits) : ∀ (values : List Value) (type : DataType),
    Returns (fun texts => ∀ text ∈ texts, Contained text.toList) (c.handlers.elementTexts values type)
  | [], _ => Returns.ok (by simp)
  | v :: vs, type => by
    have hwritten := c.literal_written_of_common (commonLiteral_written (N := fun _ => True) hc v type)
    have hliteral : Returns (fun e => Contained e.text.toList) (c.literal v type) :=
      fun e he => (c.literal_spelling v type e he).contained (hwritten e he)
    rw [elementTexts_cons]
    refine hliteral.bind fun e he => ?_
    exact (elementTexts_contained hc vs type).bind fun texts htexts =>
      Returns.ok (List.forall_mem_cons.2 ⟨he, htexts⟩)

end

/-- Every value is written with the texts of literals. -/
theorem literal_written (hc : c.WordedUnits) (value : Value) (type : DataType) :
    Returns (Expr.Written N) (c.literal value type) :=
  c.literal_written_of_common (commonLiteral_written hc value type)

/-! ### Calls -/

private theorem keyword_written {text : String} (h : text ∈ ["CURRENT_DATE", "CURRENT_TIMESTAMP"]) :
    (Expr.keyword text).Written N :=
  .of_operands h (by simp [Expr.operands]) (by simp)

theorem generated_written (source : Generator) : Returns (Expr.Written N) (c.handlers.generated source) := by
  intro e he
  rcases c.generated_cases he with ⟨text, htext, rfl⟩ | ⟨name, hname, rfl⟩ | ⟨name, hname, rfl⟩
  · exact keyword_written htext
  · exact (keyword_written (by simp)).cast (c.typeName_contained .date name hname)
  · have hnames : ∀ name ∈ ["UUID", "GEN_RANDOM_UUID"], name ∈ functionNames := by decide
    exact .apply (hnames name hname) (by simp)

private theorem unary_written {e : Expr} (he : e.Written N) {op : UnaryOp} (hnegate : op = .negate → N e) :
    (c.handlers.unary op e).Written N := by
  have hoperand : ∀ f : Expr, f.Worded N → f.operands = [e] → (∀ q, f ≠ .subquery q) → f.Written N :=
    fun f hf hoperands => .of_operands hf (by simpa [hoperands] using he)
  cases op with
  | stringLength =>
    obtain ⟨name, hname, hlength⟩ := c.exists_stringLength
    have hnames : ∀ name ∈ ["LENGTH", "CHAR_LENGTH"], name ∈ functionNames := by decide
    rw [hlength]
    exact .apply (hnames name hname) (by simpa using he)
  | lowercase | uppercase => exact .apply (by simp [functionNames]) (by simpa using he)
  | negate => exact hoperand _ (hnegate rfl) rfl (by simp [Handlers.unary])
  | not | isNull | notNull => exact hoperand _ True.intro rfl (by simp [Handlers.unary])

private theorem truncation_written {e : Expr} (he : e.Written N) (kind : Kind) (unit : TemporalUnit) :
    Returns (Expr.Written N) (c.truncation kind e unit) := by
  unfold truncation
  split
  · exact Returns.ok (.apply (by simp [functionNames]) (by simpa using ⟨.literal (quoteString_literalText _), he⟩))
  · exact Returns.error _

private theorem dividend_written {e : Expr} (he : e.Written N) (op : BinaryOp) (left right type : DataType) :
    Returns (Expr.Written N) (c.handlers.dividend op left right type e) := by
  unfold Handlers.dividend
  split
  · exact c.castTo_written he type
  · exact Returns.ok he

variable {c} in
private theorem intervalOf_written (hc : c.WordedUnits) {e : Expr} (he : e.Written N) (shape : Shape)
    (unit : TemporalUnit) : Returns (Expr.Written N) (c.intervalOf e shape unit) := by
  unfold intervalOf
  split
  · exact Returns.error _
  · rename_i keyword hkeyword
    have hunit := hc unit keyword hkeyword
    split
    · exact Returns.ok (he.interval hunit)
    · exact Returns.ok (he.binary .multiply ((Expr.Written.literal (.int 1)).interval hunit))
    · exact Returns.error _

section

variable {arg : Expr} {condition : Option Expr}

/-- The arguments of an aggregate, with or without its condition in them. -/
private theorem args_aggregate_written (d : Dialect) (name : String) {args : List Expr}
    (hargs : ∀ k ∈ args, k.Written N) (hcondition : ∀ k ∈ condition, k.Written N) :
    ∀ k ∈ (d.aggregate name args condition).args, k.Written N := by
  cases condition with
  | none => exact hargs
  | some condition =>
    simp only [Dialect.aggregate]
    split
    · exact hargs
    · rw [List.forall_mem_map]
      intro arg harg
      exact .case (by simp) (by simpa using ⟨hcondition condition rfl, hargs arg harg⟩) (by simp)

private theorem filter_aggregate_written (d : Dialect) (name : String) {args : List Expr}
    (hargs : ∀ k ∈ args, k.Written N) (hcondition : ∀ k ∈ condition, k.Written N) :
    ∀ k ∈ (d.aggregate name args condition).filter, k.Written N := by
  intro k hk
  rcases List.mem_append.1 (filter_aggregate name args condition d k hk) with h | h
  · exact hargs k h
  · exact hcondition k (Option.mem_toList.1 h)

private theorem aggregate_written (d : Dialect) {name : String} {args : List Expr} {order : List (SortKey Expr)}
    (hname : name ∈ aggregateNames) (hargs : ∀ k ∈ args, k.Written N) (hcondition : ∀ k ∈ condition, k.Written N)
    (horder : ∀ key ∈ order, key.expr.Written N) :
    (Expr.call { d.aggregate name args condition with order }).Written N := by
  have hargs' := args_aggregate_written d name hargs hcondition
  have hfilter := filter_aggregate_written d name hargs hcondition
  refine .call (List.mem_append_right _ (by rwa [name_aggregate])) (Call.forall_mem_operands.2 ?_)
  exact ⟨hargs', horder, by simp [within_aggregate], hfilter⟩

private theorem reduction_written (harg : arg.Written N) (hcondition : ∀ k ∈ condition, k.Written N)
    (func : Reduction) (type : DataType) : Returns (Expr.Written N) (c.reduction func arg type condition) := by
  have hcall : ∀ arg, Expr.Written N arg →
      (Expr.call (c.dialect.aggregate func.sqlName [arg] condition)).Written N := by
    intro arg harg
    rw [← aggregate_eq]
    have hname : func.sqlName ∈ aggregateNames := by simpa using contains_sqlName func
    exact aggregate_written c.dialect hname (by simpa using harg) hcondition (by simp)
  have hplain : Returns (Expr.Written N) (c.plainReduction func arg type condition) := by
    unfold plainReduction
    dsimp only
    split
    · exact (c.typeName_contained _).bind fun target htarget => Returns.ok (hcall _ (harg.cast htarget))
    · exact Returns.ok (hcall _ harg)
  have hmode : (c.modeOfGroup arg condition).Written N := by
    have hargs : ∀ k ∈ [arg], k.Written N := by simpa using harg
    have hwithin := args_aggregate_written c.dialect "MODE" hargs hcondition
    have hfilter := filter_aggregate_written c.dialect "MODE" hargs hcondition
    refine .call (List.mem_append_right _ (by simp [name_aggregate, aggregateNames])) (Call.forall_mem_operands.2 ?_)
    exact ⟨by simp, by simp [order_aggregate], by simpa using hwithin, hfilter⟩
  unfold reduction reductionAs
  split
  · exact Returns.ok hmode
  · exact Returns.ok hmode
  · exact hplain

private theorem pick_written {order : List (SortKey Expr)} (harg : arg.Written N)
    (hcondition : ∀ k ∈ condition, k.Written N) (horder : ∀ key ∈ order, key.expr.Written N) (func : Pick) :
    (c.pick func arg condition order).Written N := by
  have hargs : ∀ k ∈ [arg], k.Written N := by simpa using harg
  have hcall : ∀ name ∈ aggregateNames,
      (Expr.call { c.dialect.aggregate name [arg] condition with order }).Written N :=
    fun name hname => aggregate_written c.dialect hname hargs hcondition horder
  have hreversed : (Expr.call { c.dialect.aggregate "ARRAY_AGG" [arg] condition with
      order := order.map (·.reversed) }).Written N :=
    aggregate_written c.dialect (by simp [aggregateNames]) hargs hcondition (List.forall_mem_map.2 horder)
  have helement : ∀ function, (Expr.call function).Written N → (Expr.subscript (.call function) 1).Written N :=
    fun function h => .of_operands ⟨⟨function, rfl⟩, rfl⟩ (by simpa [Expr.operands] using h) (by simp)
  unfold pick pickAs
  cases c.family <;> cases func
  case postgres.first => exact helement _ (hcall _ (by simp [aggregateNames]))
  case postgres.last => exact helement _ hreversed
  all_goals exact hcall _ (by simp [aggregateNames])

private theorem correlation_written {left right : Expr} (hleft : left.Written N) (hright : right.Written N)
    (hcondition : ∀ k ∈ condition, k.Written N) : (c.correlation left right condition).Written N := by
  rw [correlation, ← aggregate_eq]
  exact aggregate_written c.dialect (by simp [aggregateNames]) (by simpa using ⟨hleft, hright⟩) hcondition (by simp)

end

/-! ### Compiled SQL -/

/-- A reduction by itself, or as a statement for its value. -/
private theorem inScope_written {e : Expr} {scope : Option Select} (he : e.Written N)
    (hreduction : e.isReduction = true) (hscope : ∀ s ∈ scope, s.Written N) : (e.inScope scope).Written N := by
  cases scope with
  | none => exact he
  | some s =>
    have hs : s.Written N := hscope s rfl
    refine .subquery (hs.update rfl ⟨?_, hs.here.label⟩ (.inr ?_) (.inl rfl) (.inl rfl) (.inl rfl))
    · rw [List.forall_mem_singleton]
      rintro - name rfl
      cases hreduction
    · exact List.forall_mem_singleton.2 he

/-- What is negated in a node is compiled to an operand out of `N`. -/
def Negates (N : Expr → Prop) (n : Node) : Prop :=
  ∀ m, n.LoweredWith m → ∀ arg, m.op = .unary .negate arg → ∀ scope, Returns N (c.lower scope arg)

variable {c} in
private theorem Negates.input {n m : Node} (h : c.Negates N n) (hm : m ∈ n.lowered) : c.Negates N m :=
  fun k hk => h k (.head hm hk)

/-- Nothing is said of negated operands. -/
theorem negates_true (n : Node) : c.Negates (fun _ => True) n := fun _ _ _ _ _ => Returns.trivial _

variable {c} in
/-- What a value becomes is written in the words of SQL, if the statement that it is in is. -/
theorem lower_written (hc : c.WordedUnits) {scope : Option Select} (hscope : ∀ s ∈ scope, s.Written N) {n : Node}
    (hn : c.Negates N n) : Returns (Expr.Written N) (c.lower scope n) := by
  refine (c.lower_induction (motive := fun scope n e => c.Negates N n → (∀ s ∈ scope, s.Written N) → e.Written N)
    (fun {scope n e} hmakes hn hscope => ?_) scope n).mono fun e he => he hn hscope
  -- the inputs of reductions have no scope, which is written as it should be
  have hnone : ∀ s ∈ (none : Option Select), s.Written N := by simp
  replace hmakes := hmakes.mono
    (J := fun scope m k => (∀ s ∈ scope, s.Written N) → c.lower scope m = .ok k ∧ k.Written N)
    fun scope m k hk hscope => ⟨hk.2.1, hk.2.2 (hn.input hk.1) hscope⟩
  have hcondition : ∀ {o : Option Node} {w : Option Expr},
      Option.Rel (fun m k => (∀ s ∈ (none : Option Select), s.Written N) → c.lower none m = .ok k ∧ k.Written N) o w →
        ∀ k ∈ w, k.Written N := by
    rintro _ _ (h | -)
    · simpa using (h hnone).2
    · simp
  cases hmakes with
  | literal he => exact literal_written c hc _ _ _ he
  | null he => exact c.nullLiteral_written _ _ he
  | field => exact .of_operands True.intro (by simp [Expr.operands]) (by simp)
  | generate he => exact c.generated_written _ _ he
  | castNull _ he => exact (he hscope).2
  | cast he hf => exact c.castTo_written (he hscope).2 _ _ hf
  | binary he hf hd => exact .binary _ (c.dividend_written (he hscope).2 _ _ _ _ _ hd) (hf hscope).2
  | unary he =>
    refine c.unary_written (he hscope).2 ?_
    rintro rfl
    exact hn _ .refl _ rfl _ _ (he hscope).1
  | simpleCase he hbs hd =>
    exact .case (by simpa using (he hscope).2)
      (forall_mem_of_forall₂ (hbs.imp fun _ _ hb => ⟨(hb.1 hscope).2, (hb.2 hscope).2⟩))
      (by simpa using (hd hscope).2)
  | searchedCase hbs hd =>
    exact .case (by simp)
      (forall_mem_of_forall₂ (hbs.imp fun _ _ hb => ⟨(hb.1 hscope).2, (hb.2 hscope).2⟩))
      (by simpa using (hd hscope).2)
  | truncate he hf => exact c.truncation_written (he hscope).2 _ _ _ hf
  | dateFromYmd hy hm hd =>
    exact .apply (by simp [functionNames]) (by simpa using ⟨(hy hscope).2, (hm hscope).2, (hd hscope).2⟩)
  | interval he hf => exact intervalOf_written hc (he hscope).2 _ _ _ hf
  | reduce he hw hcall =>
    exact inScope_written (c.reduction_written (he hnone).2 (hcondition hw) _ _ _ hcall)
      (c.reduction_isReduction _ _ _ _ _ hcall) hscope
  | pick he hw hkeys =>
    exact inScope_written (c.pick_written (he hnone).2 (hcondition hw)
      (forall_mem_of_forall₂ (hkeys.imp fun _ _ hkey => (hkey hnone).2)) _) (c.pick_isReduction _ _ _ _) hscope
  | correlate he hf hw =>
    exact inScope_written (c.correlation_written (he hnone).2 (hf hnone).2 (hcondition hw))
      (c.correlation_isReduction _ _ _) hscope

end Compiler

namespace Sql

variable {s : Select}

namespace Select

private theorem worded_star {source : Source} (h : (star source).Labelled) : (star source).Worded :=
  ⟨by simp [star], h⟩

private theorem Worded.wrapUnless (h : s.Worded) (free : Bool) : (s.wrapUnless free).Worded :=
  wrapUnless_induction (P := Worded) (fun _ => h) (worded_star s.labelled_wrap)

private theorem Written.scalarSource (h : s.Written N) : s.scalarSource.Written N :=
  Throughout.scalarSource h True.intro (worded_star s.labelled_wrap) ⟨h.here.unlabelled, h.here.label⟩

end Select

end Sql

namespace Compiler

variable {c : Compiler}

/-- All items of a projection have names. -/
private theorem lowerNamed_labelled {scope : Option Select} {values : List (Named Node)} {items : List (Item Expr)}
    (h : c.lowerNamed scope values = .ok items) : ∀ item ∈ items, item.label ≠ none := by
  intro item hitem hnone
  have hlabels : none ∈ values.map (some ·.name) := by
    rw [← (c.lowerNamed_columns scope values items h).1, ← hnone]
    exact List.mem_map_of_mem hitem
  simp at hlabels

/-- One operation names the items of a projection, or keeps them. -/
private theorem Lowers.worded {n : Node} {s : Select} (h : c.Lowers n s)
    (hparent : ∀ parent t, n.op.relation? = some parent → c.Lowers parent t → t.Worded) : s.Worded := by
  refine ⟨?_, h.labelled fun parent t hrelation ht => (hparent parent t hrelation ht).label⟩
  cases h with
  | table => simp [Select.ofTable, Select.star]
  | project _ hvalues => exact fun item hitem hnone => absurd hnone (lowerNamed_labelled hvalues item hitem)
  | @unfiltered parent predicates type shape s hlowers _ => exact (hparent parent s rfl hlowers).unlabelled
  | aggregate _ hgroups hmetrics =>
    have hlabels := List.forall_mem_append.2 ⟨lowerNamed_labelled hgroups, lowerNamed_labelled hmetrics⟩
    exact fun item hitem hnone => absurd hnone (hlabels item hitem)
  | filter hlowers | sort hlowers | limit hlowers => exact ((hparent _ _ rfl hlowers).wrapUnless _).unlabelled

variable (hc : c.WordedUnits)

include hc

/-- The statement of a relation is written in the words of SQL, by induction over the operations. -/
theorem lowers_written {n : Node} {s : Select} (h : c.Lowers n s) (hn : c.Negates N n) : s.Written N := by
  refine h.parent_induction (motive := fun n s => c.Negates N n → s.Written N) (fun {n s} h ih hn => ?_) hn
  have hinput : ∀ m ∈ n.children, c.Negates N m := fun m hm => hn.input (by rwa [h.lowered_eq])
  have hparent : ∀ parent t, n.op.relation? = some parent → c.Lowers parent t → t.Written N :=
    fun parent t hrelation ht => ih parent t hrelation ht (hinput parent (Op.mem_children.2 (.inl hrelation)))
  refine (h.throughout_iff (H := fun _ => True) True.intro (fun _ _ => ⟨.and, rfl⟩) (fun t => ?_) ?_).2 ⟨?_, by simp⟩
  · exact Select.worded_star t.labelled_wrap
  · intro parent t hrelation ht
    have hs := hparent parent t hrelation ht
    refine ⟨hs, fun m hm => ?_⟩
    have hscope : ∀ source ∈ scopeFor n.op.rowByRow t, source.Written N := by
      intro source hsource
      obtain rfl := eq_of_mem_scopeFor hsource
      exact hs.scalarSource
    have hm := lower_written hc hscope (hinput m (Op.mem_children.2 (.inr hm)))
    exact hm.mono fun e he => iff_of_true he True.intro
  · exact h.worded fun parent t hrelation ht => (hparent parent t hrelation ht).here

/-- All compiled SQL is written in the words of SQL. -/
theorem compile_written {n : Node} (hn : c.Negates N n) : Returns (Fragment.Written N) (c.compile n) := by
  unfold compile
  split
  · have hquery : Returns (Select.Written N) (c.lowerRelation n) :=
      fun s hs => lowers_written hc (c.lowers_of_lowerRelation hs) hn
    exact hquery.map fun s hs => hs
  · exact (lower_written hc (by simp) hn).map fun e he => he

end Compiler

end SqlPlan
