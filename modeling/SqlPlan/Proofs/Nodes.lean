import SqlPlan.Node.Typing
import SqlPlan.Proofs.Outcome

/-!
# Trees of nodes

Induction over nodes, and the nodes that the library itself can make. A node holds its inputs in lists, options and
named values, so that a recursion over nodes runs through several types; `Node.induction` asks for the statement at
the inputs only. `Node.Valid` says that every node of a tree is the one that `Node.new?` makes of its operation.
-/

namespace SqlPlan

namespace Op

private theorem sizeOf_lt_of_mem_toList {m : Node} {w : Option Node} (h : m ∈ w.toList) : sizeOf m < sizeOf w := by
  cases w with
  | none => simp at h
  | some n =>
    simp only [Option.toList_some, List.mem_singleton] at h
    subst h
    simp

private theorem sizeOf_lt_of_mem_exprs {m : Node} {keys : List (SortKey Node)} (h : m ∈ keys.map (·.expr)) :
    sizeOf m < sizeOf keys := by
  obtain ⟨key, hkey, rfl⟩ := List.mem_map.1 h
  have hlt := List.sizeOf_lt_of_mem hkey
  cases key
  simp only [SortKey.mk.sizeOf_spec] at hlt ⊢
  omega

private theorem sizeOf_lt_of_mem_values {m : Node} {values : List (Named Node)} (h : m ∈ values.map (·.value)) :
    sizeOf m < sizeOf values := by
  obtain ⟨value, hvalue, rfl⟩ := List.mem_map.1 h
  have hlt := List.sizeOf_lt_of_mem hvalue
  cases value
  simp only [Named.mk.sizeOf_spec] at hlt ⊢
  omega

/-- The inputs of an operation are smaller than it. -/
private theorem sizeOf_lt_of_mem_children {op : Op Node} {m : Node} (h : m ∈ op.children) : sizeOf m < sizeOf op := by
  have list : ∀ {ns : List Node}, m ∈ ns → sizeOf m < sizeOf ns := List.sizeOf_lt_of_mem
  cases op <;>
    simp only [children, List.mem_cons, List.mem_append, List.map_append, List.not_mem_nil, or_false] at h <;>
    simp only [field.sizeOf_spec, cast.sizeOf_spec, binary.sizeOf_spec, unary.sizeOf_spec, simpleCase.sizeOf_spec,
      searchedCase.sizeOf_spec, truncate.sizeOf_spec, dateFromYmd.sizeOf_spec, interval.sizeOf_spec,
      reduce.sizeOf_spec, pick.sizeOf_spec, correlate.sizeOf_spec, project.sizeOf_spec, filter.sizeOf_spec,
      aggregate.sizeOf_spec, sort.sizeOf_spec, limit.sizeOf_spec]
  case field | cast | unary | truncate | interval | limit =>
    subst h
    omega
  case binary | dateFromYmd => rcases h with rfl | rfl | rfl <;> omega
  case simpleCase =>
    rcases h with rfl | (h | h) | rfl
    · omega
    · have := list h; omega
    · have := list h; omega
    · omega
  case searchedCase =>
    rcases h with (h | h) | rfl
    · have := list h; omega
    · have := list h; omega
    · omega
  case reduce =>
    rcases h with rfl | h
    · omega
    · have := sizeOf_lt_of_mem_toList h; omega
  case pick =>
    rcases h with rfl | h | h
    · omega
    · have := sizeOf_lt_of_mem_toList h; omega
    · have := sizeOf_lt_of_mem_exprs h; omega
  case correlate =>
    rcases h with rfl | rfl | h
    · omega
    · omega
    · have := sizeOf_lt_of_mem_toList h; omega
  case project =>
    rcases h with rfl | h
    · omega
    · have := sizeOf_lt_of_mem_values h; omega
  case filter =>
    rcases h with rfl | h
    · omega
    · have := list h; omega
  case aggregate =>
    rcases h with rfl | h | h
    · omega
    · have := sizeOf_lt_of_mem_values h; omega
    · have := sizeOf_lt_of_mem_values h; omega
  case sort =>
    rcases h with rfl | h
    · omega
    · have := sizeOf_lt_of_mem_exprs h; omega

/-- The relation among the inputs. -/
def relation? {α : Type} : Op α → Option α
  | .field relation _ => some relation
  | .project parent _ | .filter parent _ | .aggregate parent _ _ | .sort parent _ | .limit parent _ _ => some parent
  | _ => none

/-- The values among the inputs. -/
def arguments {α : Type} : Op α → List α
  | .field _ _ | .limit _ _ _ => []
  | .project _ values => values.map (·.value)
  | .filter _ predicates => predicates
  | .aggregate _ groups metrics => (groups ++ metrics).map (·.value)
  | .sort _ keys => keys.map (·.expr)
  | op => op.children

/-- The inputs of an operation are the relation that it works on, if any, and its arguments. -/
theorem children_eq {α : Type} (op : Op α) : op.children = op.relation?.toList ++ op.arguments := by
  cases op <;> rfl

theorem mem_children {α : Type} {op : Op α} {a : α} : a ∈ op.children ↔ op.relation? = some a ∨ a ∈ op.arguments := by
  rw [children_eq, List.mem_append, Option.mem_toList]

/-- Whether an operation makes a relation. -/
def isRelation {α : Type} : Op α → Bool
  | .table _ _ | .project _ _ | .filter _ _ | .aggregate _ _ _ | .sort _ _ | .limit _ _ _ => true
  | _ => false

/-- Whether an operation gives a relation depends on its kind only. -/
theorem isRelation_kind {α : Type} (op : Op α) : op.kind.isRelation = op.isRelation := by
  cases op with
  | binary op | unary op => cases op <;> rfl
  | truncate clock => cases clock <;> rfl
  | generate source => cases source <;> rfl
  | reduce func | pick func => cases func <;> rfl
  | _ => rfl

/-- Whether an operation turns many rows into one value. -/
def isReduction {α : Type} : Op α → Bool
  | .reduce _ _ _ | .pick _ _ _ _ | .correlate _ _ _ _ => true
  | _ => false

/-- Whether an operation is a reduction depends on its kind only. -/
theorem isReduction_kind {α : Type} (op : Op α) : op.kind.isReduction = op.isReduction := by
  cases op with
  | binary op | unary op => cases op <;> rfl
  | truncate clock => cases clock <;> rfl
  | generate source => cases source <;> rfl
  | reduce func | pick func => cases func <;> rfl
  | _ => rfl

end Op

/-- No name is repeated just if all of them are different and none is among those seen. -/
theorem repeatedName?_eq_none_iff {seen names : List String} :
    repeatedName? seen names = none ↔ names.Nodup ∧ ∀ name ∈ names, name ∉ seen := by
  induction names generalizing seen with
  | nil => simp [repeatedName?]
  | cons name names ih =>
    rw [repeatedName?]
    split
    · simp_all
    · rw [ih, List.nodup_cons, List.forall_mem_cons]
      grind

namespace Node

/-- A statement holds for all nodes if it holds for a node whenever it holds for the inputs of the node. -/
@[elab_as_elim]
theorem induction {motive : Node → Prop} (n : Node)
    (step : ∀ n : Node, (∀ m ∈ n.children, motive m) → motive n) : motive n :=
  step n fun m _ => induction m step
termination_by sizeOf n
decreasing_by
  have hlt := Op.sizeOf_lt_of_mem_children ‹m ∈ n.children›
  cases n
  simp only [Node.mk.sizeOf_spec] at hlt ⊢
  omega

/-- Every node of the tree is the one that is made of its operation. -/
inductive Valid : Node → Prop
  | intro {n : Node} (inputs : ∀ m ∈ n.children, Valid m) (made : new? n.op = .ok n) : Valid n

/-- The inputs of a valid node are valid. -/
theorem Valid.inputs {n : Node} (h : n.Valid) : ∀ m ∈ n.children, m.Valid := by
  cases h with
  | intro inputs _ => exact inputs

/-- A valid node is what the constructor makes of its operation. -/
theorem Valid.made {n : Node} (h : n.Valid) : new? n.op = .ok n := by
  cases h with
  | intro _ made => exact made

theorem Valid.relation {n r : Node} (h : n.Valid) (hr : n.op.relation? = some r) : r.Valid :=
  h.inputs r (Op.mem_children.2 (.inl hr))

theorem Valid.argument {n m : Node} (h : n.Valid) (hm : m ∈ n.op.arguments) : m.Valid :=
  h.inputs m (Op.mem_children.2 (.inr hm))

/-- The constructor gives a node its operation, the type that the operation has, and its shape. -/
theorem new?_eq_ok_iff {op : Op Node} {n : Node} :
    new? op = .ok n ↔ n.op = op ∧ op.type? = .ok n.type ∧ n.shape = op.shape := by
  obtain ⟨op', type, shape⟩ := n
  unfold new?
  cases op.type? with
  | error e => simp [bind, Except.bind]
  | ok t => simp [bind, Except.bind, pure, Except.pure, eq_comm]

theorem Valid.type?_eq {n : Node} (h : n.Valid) : n.op.type? = .ok n.type := (new?_eq_ok_iff.1 h.made).2.1

theorem Valid.shape_eq {n : Node} (h : n.Valid) : n.shape = n.op.shape := (new?_eq_ok_iff.1 h.made).2.2

/-- The nodes of relation kinds are the relations. -/
theorem Valid.isRelation_eq {n : Node} (h : n.Valid) : n.isRelation = n.kind.isRelation := by
  unfold isRelation kind
  rw [h.shape_eq, Op.shape, Kind.shape]
  cases hkind : n.op.kind.isRelation with
  | true => rfl
  | false =>
    simp only [Bool.false_eq_true, if_false]
    split
    · rfl
    · unfold Shape.combine
      split <;> rfl

/-! ### A small table -/

/-- A table with the columns `x` and `y`. -/
def pairs : Node :=
  let schema : Schema := [⟨"x", .int .w64, true⟩, ⟨"y", .int .w64, true⟩]
  ⟨.table "t" schema, .struct schema, .tabular⟩

/-- A column of `pairs`, or of a relation with the same columns. -/
def column (relation : Node) (name : String) : Node := ⟨.field relation name, .int .w64, .columnar⟩

theorem pairs_valid : pairs.Valid := ⟨by simp [children, pairs, Op.children], rfl⟩

theorem column_valid : (pairs.column "x").Valid := ⟨by simp [children, column, Op.children, pairs_valid], rfl⟩

end Node

end SqlPlan
