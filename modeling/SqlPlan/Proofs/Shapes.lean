import SqlPlan.Proofs.Aggregates
import SqlPlan.Proofs.Construction

/-!
# Shapes and columns

The shape of a value tells whether it varies from row to row, which depends on the columns that it reads and on the
reductions above them.

* `Node.Valid.columnar_iff`: the shape of a value in terms of its inputs.
* `Node.Valid.columnar_iff_exists_readPath`: a value varies exactly if it reads a column outside of all reductions.
-/

namespace SqlPlan

private theorem Shape.combine_eq_columnar_iff {inputs : List Shape} :
    combine inputs = .columnar ↔ ∃ s ∈ inputs, s ≠ .scalar := by
  unfold combine
  split
  · rename_i hall
    simpa using hall
  · rename_i hall
    simpa using hall

namespace Node

variable {n m : Node} {path : List Node}

/-- A way from a node through inputs to a column. The relation that the column belongs to is not entered. -/
inductive ReadPath : Node → List Node → Prop
  | column {n relation : Node} {name : String} (h : n.op = .field relation name) : ReadPath n [n]
  | input {n m : Node} {path : List Node} (hm : m ∈ n.lowered) (h : ReadPath m path) : ReadPath n (n :: path)

/-- No node of a path is a reduction. -/
def Unreduced (path : List Node) : Prop := ∀ m ∈ path, m.kind.isReduction = false

private theorem exists_readPath_iff :
    (∃ path, n.ReadPath path ∧ Unreduced path) ↔
      n.kind.isReduction = false ∧
        ((∃ relation name, n.op = .field relation name) ∨
          ∃ m ∈ n.lowered, ∃ path, m.ReadPath path ∧ Unreduced path) := by
  constructor
  · rintro ⟨path, hpath, hunreduced⟩
    cases hpath with
    | column h => exact ⟨hunreduced n (by simp), .inl ⟨_, _, h⟩⟩
    | input hm h =>
      obtain ⟨hn, hpath⟩ := List.forall_mem_cons.1 hunreduced
      exact ⟨hn, .inr ⟨_, hm, _, h, hpath⟩⟩
  · rintro ⟨hn, ⟨relation, name, h⟩ | ⟨m, hm, path, h, hpath⟩⟩
    · exact ⟨[n], .column h, by simpa [Unreduced] using hn⟩
    · exact ⟨n :: path, .input hm h, List.forall_mem_cons.2 ⟨hn, hpath⟩⟩

private theorem scalar_iff_not_columnar (hvalue : n.isRelation = false) :
    n.shape = .scalar ↔ ¬n.shape = .columnar := by
  unfold isRelation at hvalue
  cases hshape : n.shape <;> simp_all

private theorem lowered_eq_children (h : ¬∃ relation name, n.op = .field relation name) : n.lowered = n.children := by
  unfold lowered
  split
  · exact absurd ⟨_, _, ‹_›⟩ h
  · rfl

private theorem Valid.isValue_of_mem_lowered (h : n.Valid) (hvalue : n.isRelation = false) (hm : m ∈ n.lowered) :
    m.isRelation = false := by
  rcases Op.mem_children.1 (mem_children_of_mem_lowered hm) with hrelation | hargument
  · obtain ⟨name, hop⟩ := exists_field_of_relation? (h.isRelation_eq.symm.trans hvalue) hrelation
    simp [lowered, hop] at hm
  · exact h.inputs_isRelation.2 m hargument

private theorem Valid.shape_value (h : n.Valid) (hvalue : n.isRelation = false) :
    n.shape = if n.kind.isReduction then .scalar else .combine (n.children.map (·.shape)) := by
  rw [h.isRelation_eq] at hvalue
  rw [h.shape_eq, Op.shape, Kind.shape, ← kind, hvalue]
  rfl

/-- A value varies exactly if it is a column, or is no reduction and has an input that varies. -/
theorem Valid.columnar_iff (h : n.Valid) (hvalue : n.isRelation = false) :
    n.shape = .columnar ↔
      n.kind.isReduction = false ∧
        ((∃ relation name, n.op = .field relation name) ∨ ∃ m ∈ n.lowered, m.shape = .columnar) := by
  rw [h.shape_value hvalue]
  cases hreduction : n.kind.isReduction with
  | true => simp
  | false =>
    simp only [Bool.false_eq_true, if_false, true_and, Shape.combine_eq_columnar_iff, List.mem_map,
      exists_exists_and_eq_and]
    by_cases hfield : ∃ relation name, n.op = .field relation name
    · obtain ⟨relation, name, hop⟩ := hfield
      have htabular := isRelation_eq_true.1 (h.inputs_isRelation.1 relation (by simp [hop, Op.relation?]))
      refine iff_of_true ⟨relation, ?_, by simp [htabular]⟩ (.inl ⟨relation, name, hop⟩)
      simp [children, hop, Op.children]
    · rw [or_iff_right hfield, lowered_eq_children hfield]
      refine exists_congr fun m => and_congr_right fun hm => ?_
      rw [ne_eq, scalar_iff_not_columnar (h.isValue_of_mem_lowered hvalue (lowered_eq_children hfield ▸ hm)), not_not]

private theorem Valid.columnar_iff_unreduced (h : n.Valid) (hvalue : n.isRelation = false) :
    n.shape = .columnar ↔ ∃ path, n.ReadPath path ∧ Unreduced path := by
  induction n using Node.induction with
  | step n ih =>
    rw [h.columnar_iff hvalue, exists_readPath_iff]
    refine and_congr_right fun _ => or_congr_right (exists_congr fun m => and_congr_right fun hm => ?_)
    have hinput := mem_children_of_mem_lowered hm
    exact ih m hinput (h.inputs m hinput) (h.isValue_of_mem_lowered hvalue hm)

/-- A value varies from row to row exactly if there is a way from it to a column on which nothing is a reduction. All
other values are the same for all rows: they read columns only inside of reductions. -/
theorem Valid.columnar_iff_exists_readPath (h : n.Valid) (hvalue : n.isRelation = false) :
    (n.shape = .columnar ↔ ∃ path, n.ReadPath path ∧ ∀ m ∈ path, m.kind.isReduction = false) ∧
      (n.shape = .scalar ↔ ∀ path, n.ReadPath path → ∃ m ∈ path, m.kind.isReduction = true) := by
  refine ⟨h.columnar_iff_unreduced hvalue, ?_⟩
  rw [scalar_iff_not_columnar hvalue, h.columnar_iff_unreduced hvalue]
  simp [Unreduced]

/-- The greatest value in the column `x` of `pairs`. -/
def greatest : Node := ⟨.reduce .max (pairs.column "x") none, .int .w64, .scalar⟩

/-- By how much the values in the column `x` of `pairs` fall short of the greatest one. -/
def shortfall : Node := ⟨.binary .subtract greatest (pairs.column "x"), .int .w64, .columnar⟩

private theorem greatest_valid : greatest.Valid := ⟨by simp [children, greatest, Op.children, column_valid], rfl⟩

private theorem shortfall_valid : shortfall.Valid :=
  ⟨by simp [children, shortfall, Op.children, greatest_valid, column_valid], rfl⟩

/-- The column is read twice, and only one of the two ways makes the difference vary. -/
theorem Valid.columnar_iff_exists_readPath_shortfall :
    shortfall.Valid ∧ greatest.Valid ∧ shortfall.isRelation = false ∧ greatest.isRelation = false ∧
      shortfall.ReadPath [shortfall, greatest, pairs.column "x"] ∧
      (∃ path, shortfall.ReadPath path ∧ ∀ m ∈ path, m.kind.isReduction = false) ∧
      (∀ path, greatest.ReadPath path → ∃ m ∈ path, m.kind.isReduction = true) :=
  ⟨shortfall_valid, greatest_valid, rfl, rfl, .input (.head _) (.input (.head _) (.column rfl)),
    (shortfall_valid.columnar_iff_exists_readPath rfl).1.1 rfl,
    (greatest_valid.columnar_iff_exists_readPath rfl).2.1 rfl⟩

end Node

end SqlPlan
