import SqlPlan.Proofs.Operations

/-!
# Compiling side by side

Two compilers take a value and its counterpart to related expressions, if every handler and every expression that is
put together from operands respects the relation. The two may differ in the scope, in the dialect or in the literals
of the value.

* `Corresponds`: what is asked of operations with operands, and `Reduces` of reductions.
* `lower_tracks`: values are related if the reductions in them are.
* `lower_tracks_throughout`: all values are related.
-/

namespace SqlPlan

open Sql

/-! ### Counterparts of nodes -/

namespace Op

variable {α β : Type}

/-- An operation with other inputs. -/
def map (f : α → β) : Op α → Op β
  | .literal value type => .literal value type
  | .null type => .null type
  | .field relation name => .field (f relation) name
  | .cast arg target => .cast (f arg) target
  | .binary op left right => .binary op (f left) (f right)
  | .unary op arg => .unary op (f arg)
  | .simpleCase base conditions results default =>
    .simpleCase (f base) (conditions.map f) (results.map f) (f default)
  | .searchedCase conditions results default => .searchedCase (conditions.map f) (results.map f) (f default)
  | .truncate clock arg unit => .truncate clock (f arg) unit
  | .dateFromYmd year month day => .dateFromYmd (f year) (f month) (f day)
  | .generate source => .generate source
  | .interval arg unit => .interval (f arg) unit
  | .reduce func arg condition => .reduce func (f arg) (condition.map f)
  | .pick func arg condition order =>
    .pick func (f arg) (condition.map f) (order.map fun key => ⟨f key.expr, key.ascending⟩)
  | .correlate left right mode condition => .correlate (f left) (f right) mode (condition.map f)
  | .table name schema => .table name schema
  | .project parent values => .project (f parent) (values.map fun v => ⟨v.name, f v.value⟩)
  | .filter parent predicates => .filter (f parent) (predicates.map f)
  | .aggregate parent groups metrics =>
    .aggregate (f parent) (groups.map fun v => ⟨v.name, f v.value⟩) (metrics.map fun v => ⟨v.name, f v.value⟩)
  | .sort parent keys => .sort (f parent) (keys.map fun key => ⟨f key.expr, key.ascending⟩)
  | .limit parent count offset => .limit (f parent) count offset

private theorem map_id (op : Op α) : op.map id = op := by cases op <;> simp [map]

private theorem kind_map (f : α → β) (op : Op α) : (op.map f).kind = op.kind := by cases op <;> rfl

end Op

/-- A counterpart of every node, with the same type and shape, that takes the counterparts of the same inputs. -/
structure Node.Counterpart (g : Node → Node) : Prop where
  type (n : Node) : (g n).type = n.type
  shape (n : Node) : (g n).shape = n.shape
  op (n : Node) (h : n.op.arguments ≠ []) : (g n).op = n.op.map g

private theorem Node.Counterpart.eq {g : Node → Node} (h : Counterpart g) {op : Op Node} (hop : op.arguments ≠ [])
    (type : DataType) (shape : Shape) : g ⟨op, type, shape⟩ = ⟨op.map g, type, shape⟩ := by
  have htype := h.type ⟨op, type, shape⟩
  have hshape := h.shape ⟨op, type, shape⟩
  have hmap := h.op ⟨op, type, shape⟩ hop
  generalize g ⟨op, type, shape⟩ = n at htype hshape hmap ⊢
  obtain ⟨op', type', shape'⟩ := n
  obtain rfl : type' = type := htype
  obtain rfl : shape' = shape := hshape
  obtain rfl : op' = op.map g := hmap
  rfl

/-- Every node is its own counterpart. -/
theorem Node.counterpart_id : Counterpart id where
  type _ := rfl
  shape _ := rfl
  op n _ := n.op.map_id.symm

namespace Compiler

variable {c c' : Compiler} {lenient : Prop} {R : Expr → Expr → Prop} {g : Node → Node}

/-! ### Lists of inputs -/

section

variable {scope scope' : Option Select}

/-- Two runs that correspond on each of some nodes correspond on all of them. -/
theorem lowerAll_tracks {ns : List Node}
    (h : ∀ m ∈ ns, Tracks lenient R (c.lower scope m) (c'.lower scope' (g m))) :
    Tracks lenient (List.Forall₂ R) (c.lowerAll scope ns) (c'.lowerAll scope' (ns.map g)) := by
  rw [lowerAll, lowerAll, lowerEach_eq_map, lowerEach_eq_map]
  exact .collect_map h

private theorem lowerOption_tracks {o : Option Node}
    (h : ∀ m ∈ o.toList, Tracks lenient R (c.lower scope m) (c'.lower scope' (g m))) :
    Tracks lenient (Option.Rel R) (c.lowerOption scope o) (c'.lowerOption scope' (o.map g)) := by
  cases o with
  | none => exact .ok .none
  | some m => exact (h m (by simp)).bind fun e e' _ _ he => .ok (.some he)

/-- The same for keys, which keep their directions. -/
theorem lowerKeys_tracks {S : SortKey Expr → SortKey Expr → Prop}
    (hR : ∀ e e' ascending, R e e' → S ⟨e, ascending⟩ ⟨e', ascending⟩) {keys : List (SortKey Node)}
    (h : ∀ m ∈ keys.map (·.expr), Tracks lenient R (c.lower scope m) (c'.lower scope' (g m))) :
    Tracks lenient (List.Forall₂ S) (c.lowerKeys scope keys)
      (c'.lowerKeys scope' (keys.map fun key => ⟨g key.expr, key.ascending⟩)) := by
  rw [lowerKeys_eq_collect, lowerKeys_eq_collect]
  exact .collect_map fun key hkey => (h key.expr (List.mem_map_of_mem hkey)).map fun e e' => hR e e' key.ascending

/-- The same for named values, which keep their names. -/
theorem lowerNamed_tracks {S : Item Expr → Item Expr → Prop}
    (hR : ∀ e e' label, R e e' → S ⟨e, label⟩ ⟨e', label⟩) {values : List (Named Node)}
    (h : ∀ m ∈ values.map (·.value), Tracks lenient R (c.lower scope m) (c'.lower scope' (g m))) :
    Tracks lenient (List.Forall₂ S) (c.lowerNamed scope values)
      (c'.lowerNamed scope' (values.map fun v => ⟨v.name, g v.value⟩)) := by
  rw [lowerNamed_eq_collect, lowerNamed_eq_collect]
  exact .collect_map fun v hv => (h v.value (List.mem_map_of_mem hv)).map fun e e' => hR e e' (some v.name)

private theorem branches_tracks {conditions results : List Node}
    (h : ∀ m ∈ conditions ++ results, Tracks lenient R (c.lower scope m) (c'.lower scope' (g m))) :
    Tracks lenient (List.Forall₂ fun b b' => R b.condition b'.condition ∧ R b.result b'.result)
      (branches (c.lowerEach scope conditions) (c.lowerEach scope results))
      (branches (c'.lowerEach scope' (conditions.map g)) (c'.lowerEach scope' (results.map g))) := by
  rw [branches_eq_collect, branches_eq_collect, List.zip_map]
  refine .collect_map fun pair hpair => ?_
  obtain ⟨hcondition, hresult⟩ := List.of_mem_zip hpair
  refine (h _ (List.mem_append_left _ hcondition)).bind fun e e' _ _ he => ?_
  exact (h _ (List.mem_append_right _ hresult)).bind fun f f' _ _ hf => .ok ⟨he, hf⟩

end

/-! ### Conditions on operations -/

/-- Two compilers make related expressions of related operands. -/
structure Corresponds (c c' : Compiler) (lenient : Prop) (R : Expr → Expr → Prop) : Prop where
  supported (kind : Kind) :
    Tracks lenient (fun _ _ => True) (c.dialect.ensureSupported kind) (c'.dialect.ensureSupported kind)
  castTo {e e' : Expr} (h : R e e') (type : DataType) :
    Tracks lenient R (c.handlers.castTo e type) (c'.handlers.castTo e' type)
  binary {e e' f f' : Expr} (h : R e e') (op : BinaryOp) (hf : R f f') :
    R (.binary e op.symbol f) (.binary e' op.symbol f')
  unary {e e' : Expr} (h : R e e') (op : UnaryOp) : R (c.handlers.unary op e) (c'.handlers.unary op e')
  case {operand operand' : Option Expr} {bs bs' : List (Branch Expr)} {e e' : Expr}
    (hoperand : Option.Rel R operand operand')
    (hbranches : List.Forall₂ (fun b b' => R b.condition b'.condition ∧ R b.result b'.result) bs bs')
    (hdefault : R e e') : R (.case operand bs (some e)) (.case operand' bs' (some e'))
  truncation {e e' : Expr} (h : R e e') (kind : Kind) (unit : TemporalUnit) :
    Tracks lenient R (c.truncation kind e unit) (c'.truncation kind e' unit)
  dateFromYmd {e e' f f' k k' : Expr} (h : R e e') (hf : R f f') (hk : R k k') :
    R (.apply "MAKE_DATE" [e, f, k]) (.apply "MAKE_DATE" [e', f', k'])
  intervalOf {e e' : Expr} (h : R e e') (shape : Shape) (unit : TemporalUnit) :
    Tracks lenient R (c.intervalOf e shape unit) (c'.intervalOf e' shape unit)

/-- Two compilers make related calls of aggregates, and statements for them in scopes that are related by `G`. -/
structure Reduces (c c' : Compiler) (lenient : Prop) (R : Expr → Expr → Prop)
    (G : Option Select → Option Select → Prop) : Prop where
  ordered (func : Pick) {order order' : List (SortKey Node)} (h : order.isEmpty = order'.isEmpty) :
    Tracks lenient (fun _ _ => True) (c.handlers.ensureOrdered func order) (c'.handlers.ensureOrdered func order')
  correlated (mode : CorrelationMode) :
    Tracks lenient (fun _ _ => True) (c.handlers.ensureCorrelation mode) (c'.handlers.ensureCorrelation mode)
  reduction (func : Reduction) {e e' : Expr} {w w' : Option Expr} (h : R e e') (type : DataType)
    (hw : Option.Rel R w w') : Tracks lenient R (c.reduction func e type w) (c'.reduction func e' type w')
  pick (func : Pick) {e e' : Expr} {w w' : Option Expr} {order order' : List (SortKey Expr)} (h : R e e')
    (hw : Option.Rel R w w')
    (horder : List.Forall₂ (fun key key' => R key.expr key'.expr ∧ key.ascending = key'.ascending) order order') :
    R (c.pick func e w order) (c'.pick func e' w' order')
  correlation {e e' f f' : Expr} {w w' : Option Expr} (h : R e e') (hf : R f f') (hw : Option.Rel R w w') :
    R (c.correlation e f w) (c'.correlation e' f' w')
  inScope {e e' : Expr} {scope scope' : Option Select} (h : R e e') (hscope : G scope scope') :
    R (e.inScope scope) (e'.inScope scope')
  none : G none none

private theorem Corresponds.dividend (h : Corresponds c c' lenient R) {e e' : Expr} (he : R e e') (op : BinaryOp)
    (left right type : DataType) :
    Tracks lenient R (c.handlers.dividend op left right type e) (c'.handlers.dividend op left right type e') := by
  unfold Handlers.dividend
  split
  · exact h.castTo he type
  · exact .ok he

/-! ### Values -/

/-- What has no values among its inputs is the same in all scopes. -/
theorem lower_leaf (c : Compiler) {n : Node} (h : n.op.arguments = []) (scope : Option Select) :
    c.lower scope n = c.lower none n := by
  obtain ⟨op, type, shape⟩ := n
  rw [lower_eq, lower_eq]
  cases op with
  | searchedCase => simp [Op.arguments, Op.children] at h
  | cast | binary | unary | simpleCase | truncate | dateFromYmd | interval | reduce | pick | correlate => cases h
  | _ => rfl

section

variable (h : Corresponds c c' lenient R) (hg : Node.Counterpart g)

include h hg

/-- What one operation other than a reduction does: it is related to its counterpart if the inputs are. -/
private theorem lowerOp_tracks {op : Op Node} (hleaf : op.arguments ≠ []) (hreduction : op.isReduction = false)
    {scope scope' : Option Select} (type : DataType)
    (hinput : op.isRelation = false →
      ∀ m ∈ op.arguments, Tracks lenient R (c.lower scope m) (c'.lower scope' (g m))) :
    Tracks lenient R (c.lowerOp scope type op) (c'.lowerOp scope' type (op.map g)) := by
  cases op with
  | literal | null | field | generate => exact absurd rfl hleaf
  | cast arg target =>
    refine (hinput rfl arg (by simp [Op.arguments, Op.children])).bind fun e e' _ _ he => ?_
    split
    · exact .ok he
    · exact h.castTo he target
  | binary op left right =>
    rw [lowerOp, Op.map, lowerOp, hg.type, hg.type]
    refine (hinput rfl left (by simp [Op.arguments, Op.children])).bind fun e e' _ _ he => ?_
    refine (hinput rfl right (by simp [Op.arguments, Op.children])).bind fun f f' _ _ hf => ?_
    refine (h.dividend he op left.type right.type type).bind fun d d' _ _ hd => ?_
    exact .ok (h.binary hd op hf)
  | unary op arg =>
    refine (hinput rfl arg (by simp [Op.arguments, Op.children])).bind fun e e' _ _ he => ?_
    exact .ok (h.unary he op)
  | simpleCase base conditions results default =>
    refine (hinput rfl base (by simp [Op.arguments, Op.children])).bind fun e e' _ _ he => ?_
    refine (branches_tracks fun m hm => hinput rfl m ?_).bind fun bs bs' _ _ hbs => ?_
    · exact List.mem_cons_of_mem _ (List.mem_append_left _ hm)
    refine (hinput rfl default (by simp [Op.arguments, Op.children])).bind fun d d' _ _ hd => ?_
    exact .ok (h.case (.some he) hbs hd)
  | searchedCase conditions results default =>
    refine (branches_tracks fun m hm => hinput rfl m (List.mem_append_left _ hm)).bind fun bs bs' _ _ hbs => ?_
    refine (hinput rfl default (by simp [Op.arguments, Op.children])).bind fun d d' _ _ hd => ?_
    exact .ok (h.case .none hbs hd)
  | truncate clock arg unit =>
    refine (hinput rfl arg (by simp [Op.arguments, Op.children])).bind fun e e' _ _ he => ?_
    exact h.truncation he clock.kind unit
  | dateFromYmd year month day =>
    refine (hinput rfl year (by simp [Op.arguments, Op.children])).bind fun e e' _ _ he => ?_
    refine (hinput rfl month (by simp [Op.arguments, Op.children])).bind fun f f' _ _ hf => ?_
    refine (hinput rfl day (by simp [Op.arguments, Op.children])).bind fun k k' _ _ hk => ?_
    exact .ok (h.dateFromYmd he hf hk)
  | interval arg unit =>
    rw [lowerOp, Op.map, lowerOp, hg.shape]
    refine (hinput rfl arg (by simp [Op.arguments, Op.children])).bind fun e e' _ _ he => ?_
    exact h.intervalOf he arg.shape unit
  | reduce | pick | correlate => cases hreduction
  -- a relation is refused on both sides
  | table | project | filter | aggregate | sort | limit => exact .error _

/-- A value and its counterpart are related as the reductions in them are. -/
theorem lower_tracks {G : Option Select → Option Select → Prop} {H : Node → Prop}
    (inherited : ∀ n : Node, H n → n.op.isReduction = false → n.op.isRelation = false → ∀ m ∈ n.op.arguments, H m)
    (leaf : ∀ n : Node, n.op.arguments = [] → ∀ scope scope',
      Tracks lenient R (c.lower scope n) (c'.lower scope' (g n)))
    (reduction : ∀ (n : Node) (scope scope' : Option Select), H n → n.op.isReduction = true → G scope scope' →
      (G none none → ∀ m ∈ n.op.arguments, H m → Tracks lenient R (c.lower none m) (c'.lower none (g m))) →
      Tracks lenient R (c.lower scope n) (c'.lower scope' (g n)))
    {scope scope' : Option Select} (n : Node) (hn : H n) (hscope : G scope scope') :
    Tracks lenient R (c.lower scope n) (c'.lower scope' (g n)) := by
  induction n using Node.induction generalizing scope scope' with
  | step n ih =>
    have hargument : ∀ m ∈ n.op.arguments, m ∈ n.children := fun m hm => Op.mem_children.2 (.inr hm)
    by_cases hleaf : n.op.arguments = []
    · exact leaf n hleaf scope scope'
    cases hreduction : n.op.isReduction with
    | true =>
      refine reduction n scope scope' hn hreduction hscope fun hnone m hm hH => ?_
      exact ih m (hargument m hm) hH hnone
    | false =>
      have hinput : n.op.isRelation = false → ∀ m ∈ n.op.arguments,
          Tracks lenient R (c.lower scope m) (c'.lower scope' (g m)) :=
        fun hvalue m hm => ih m (hargument m hm) (inherited n hn hreduction hvalue m hm) hscope
      obtain ⟨op, type, shape⟩ := n
      rw [hg.eq hleaf, lower_eq, lower_eq, op.kind_map]
      exact (h.supported op.kind).bind fun _ _ _ _ _ => lowerOp_tracks h hg hleaf hreduction type hinput

/-- What one reduction does: it is related to its counterpart if the inputs are. -/
private theorem lower_reduction_tracks {G : Option Select → Option Select → Prop} (hr : Reduces c c' lenient R G)
    {n : Node} (hreduction : n.op.isReduction = true) {scope scope' : Option Select} (hscope : G scope scope')
    (hinput : ∀ m ∈ n.op.arguments, Tracks lenient R (c.lower none m) (c'.lower none (g m))) :
    Tracks lenient R (c.lower scope n) (c'.lower scope' (g n)) := by
  obtain ⟨op, type, shape⟩ := n
  have hleaf : op.arguments ≠ [] := by
    cases op with
    | reduce | pick | correlate => exact List.cons_ne_nil _ _
    | _ => cases hreduction
  -- a reduction has inputs, so its counterpart is the same reduction of their counterparts
  rw [hg.eq hleaf, lower_eq, lower_eq, op.kind_map]
  refine (h.supported op.kind).bind fun _ _ _ _ _ => ?_
  cases op with
  | reduce func arg condition =>
    rw [lowerOp, Op.map, lowerOp, hg.type]
    refine (hinput arg (by simp [Op.arguments, Op.children])).bind fun e e' _ _ he => ?_
    refine (lowerOption_tracks fun m hm => hinput m (List.mem_cons_of_mem _ hm)).bind fun w w' _ _ hw => ?_
    exact (hr.reduction func he arg.type hw).bind fun call call' _ _ hcall => .ok (hr.inScope hcall hscope)
  | pick func arg condition order =>
    refine (hr.ordered func (by simp)).bind fun _ _ _ _ _ => ?_
    refine (hinput arg (by simp [Op.arguments, Op.children])).bind fun e e' _ _ he => ?_
    refine (lowerOption_tracks fun m hm => hinput m ?_).bind fun w w' _ _ hw => ?_
    · exact List.mem_cons_of_mem _ (List.mem_append_left _ hm)
    refine (lowerKeys_tracks (S := fun key key' => R key.expr key'.expr ∧ key.ascending = key'.ascending)
      (fun _ _ _ hkey => ⟨hkey, rfl⟩) fun m hm => hinput m ?_).bind fun keys keys' _ _ hkeys => ?_
    · exact List.mem_cons_of_mem _ (List.mem_append_right _ hm)
    exact .ok (hr.inScope (hr.pick func he hw hkeys) hscope)
  | correlate left right mode condition =>
    refine (hr.correlated mode).bind fun _ _ _ _ _ => ?_
    refine (hinput left (by simp [Op.arguments, Op.children])).bind fun e e' _ _ he => ?_
    refine (hinput right (by simp [Op.arguments, Op.children])).bind fun f f' _ _ hf => ?_
    refine (lowerOption_tracks fun m hm => hinput m ?_).bind fun w w' _ _ hw => ?_
    · exact List.mem_cons_of_mem _ (List.mem_cons_of_mem _ hm)
    exact .ok (hr.inScope (hr.correlation he hf hw) hscope)
  | _ => cases hreduction

/-- A value and its counterpart are related, if the two compilers respect the relation in reductions as well. -/
theorem lower_tracks_throughout {G : Option Select → Option Select → Prop} (hr : Reduces c c' lenient R G)
    (leaf : ∀ n : Node, n.op.arguments = [] → ∀ scope scope',
      Tracks lenient R (c.lower scope n) (c'.lower scope' (g n)))
    {scope scope' : Option Select} (hscope : G scope scope') (n : Node) :
    Tracks lenient R (c.lower scope n) (c'.lower scope' (g n)) := by
  refine lower_tracks h hg (H := fun _ => True) (fun _ _ _ _ _ _ => True.intro) leaf ?_ n True.intro hscope
  intro n scope scope' _ hreduction hscope hinput
  exact lower_reduction_tracks h hg hr hreduction hscope fun m hm => hinput hr.none m hm True.intro

end

end Compiler

end SqlPlan
