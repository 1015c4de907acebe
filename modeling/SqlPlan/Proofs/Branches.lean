import SqlPlan.Node.Case
import SqlPlan.Proofs.Promotion

/-!
# Branches of case expressions

A builder looks at each branch when it is added, and `Node.new?` looks at the finished case as a whole. The two agree:
a builder refuses no branch of a case that can be made, in whatever order branches and defaults are added, and what it
finishes with is the case of these branches. A case without a default gets a null of the common type of its results,
which changes neither its type nor its shape.

* `foldlM_call_eq_ok_iff`: which sequences of calls a builder takes, and what it holds behind them.
* `fits_of_new?`: a builder takes all branches of a case that can be made.
* `build_eq_ok_iff`: a sequence of calls ends with a case exactly if the case of all its branches can be made.
-/

namespace SqlPlan

/-! ### Cases as a whole -/

/-- A simple case if there is a base, and a searched case otherwise. -/
def Op.case (base : Option Node) (conditions results : List Node) (default : Node) : Op Node :=
  match base with
  | some base => .simpleCase base conditions results default
  | none => .searchedCase conditions results default

section

variable {base : Option Node} {conditions results : List Node} {default n : Node}

private theorem Op.shape_case :
    (Op.case base conditions results default).shape =
      .combine ((base.toList ++ conditions ++ results ++ [default]).map (·.shape)) := by
  cases base with
  | none => rfl
  | some base => simp [Op.case, Op.shape, Op.children, Op.kind, Kind.shape, Kind.isRelation, Kind.isReduction]

/-- The type of a case is the common type of its results and its default. -/
private theorem unify_of_type?_case {type : DataType}
    (h : (Op.case base conditions results default).type? = .ok type) : unify (results ++ [default]) = .ok type := by
  obtain ⟨-, htype⟩ := Op.type?_eq_ok_iff.1 h
  cases base with
  | none | some => exact htype.2.2

end

/-! ### The default of a case without one -/

/-- A null of a type. -/
def Node.typedNull (type : DataType) : Node := ⟨.cast ⟨.null .null, .null, .scalar⟩ type, type, .scalar⟩

private theorem Node.new?_typedNull (type : DataType) :
    Node.new? (.cast ⟨.null .null, .null, .scalar⟩ type) = .ok (Node.typedNull type) := by
  rw [Node.new?_eq_ok_iff]
  refine ⟨rfl, ?_, rfl⟩
  rw [Op.type?]
  exact if_pos (DataType.castable_null type)

/-- A null of the common type of values leaves this type as it is. -/
private theorem unify_append_typedNull {nodes : List Node} {type : DataType} (h : unify nodes = .ok type) :
    unify (nodes ++ [Node.typedNull type]) = .ok type := by
  unfold unify at h ⊢
  rw [List.foldlM_append, bind_eq_ok]
  refine ⟨type, h, ?_⟩
  rw [List.foldlM_cons, bind_eq_ok]
  exact ⟨type, DataType.promote_self type, rfl⟩

private theorem Shape.combine_append_scalar (shapes : List Shape) :
    combine (shapes ++ [.scalar]) = combine shapes := by
  simp [combine]

/-! ### Calls of a builder -/

/-- A call on the builder of a case. -/
inductive CaseCall where
  | when (condition result : Node)
  | otherwise (result : Node)

namespace CaseCall

/-- The branch that a call adds. -/
def branch? : CaseCall → Option (Node × Node)
  | .when condition result => some (condition, result)
  | .otherwise _ => none

/-- The default that a call sets. -/
def default? : CaseCall → Option Node
  | .when _ _ => none
  | .otherwise result => some result

/-- The branches that calls add, in their order. -/
def branches (calls : List CaseCall) : List (Node × Node) := calls.filterMap branch?

def conditions (calls : List CaseCall) : List Node := (branches calls).map (·.1)

def results (calls : List CaseCall) : List Node := (branches calls).map (·.2)

/-- The default that the last call for one sets. -/
def lastDefault? (calls : List CaseCall) : Option Node := (calls.filterMap default?).getLast?

variable {calls : List CaseCall}

@[simp] theorem branches_when {condition result : Node} :
    branches (.when condition result :: calls) = (condition, result) :: branches calls := rfl

@[simp] theorem branches_otherwise {result : Node} : branches (.otherwise result :: calls) = branches calls := rfl

@[simp] theorem lastDefault?_when {condition result : Node} :
    lastDefault? (.when condition result :: calls) = lastDefault? calls := rfl

@[simp] theorem lastDefault?_otherwise {result : Node} :
    lastDefault? (.otherwise result :: calls) = some ((lastDefault? calls).getD result) := by
  simp [lastDefault?, default?, List.getLast?_cons]

end CaseCall

namespace CaseBuilder

/-- The builder behind a call. -/
def call (b : CaseBuilder) : CaseCall → Except NodeError CaseBuilder
  | .when condition result => b.when condition result
  | .otherwise result => .ok (b.otherwise result)

/-- A builder without branches: of a simple case if there is a base, and of a searched case otherwise. -/
def start : Option Node → CaseBuilder
  | some base => simple base
  | none => searched

/-- The case that a sequence of calls ends with. -/
def build (base : Option Node) (calls : List CaseCall) : Except NodeError Node := do
  let b ← calls.foldlM call (start base)
  b.finish

/-- Whether a condition can be compared with the base, or is boolean if there is none. -/
def suits (base : Option Node) (condition : Node) : Bool :=
  match base with
  | some base => base.type.comparable condition.type
  | none => condition.type.isBoolean

/-- A branch of values whose condition suits the base. -/
structure Fits (base : Option Node) (branch : Node × Node) : Prop where
  condition : branch.1.isRelation = false
  result : branch.2.isRelation = false
  suits : suits base branch.1 = true

section

variable {b extended : CaseBuilder} {condition result : Node}

private theorem when_of_fits (h : Fits b.base (condition, result)) :
    b.when condition result = .ok { b with branches := b.branches ++ [(condition, result)] } := by
  obtain ⟨base, branches, default?⟩ := b
  have hvalues : ¬(condition.isRelation || result.isRelation) = true := by simp [h.condition, h.result]
  unfold CaseBuilder.when
  rw [if_neg hvalues]
  cases base with
  | some base => exact if_pos h.suits
  | none => exact if_pos h.suits

private theorem fits_of_when (h : b.when condition result = .ok extended) : Fits b.base (condition, result) := by
  obtain ⟨base, branches, default?⟩ := b
  unfold CaseBuilder.when at h
  split at h
  · cases h
  rename_i hvalues
  obtain ⟨hcondition, hresult⟩ : condition.isRelation = false ∧ result.isRelation = false := by simpa using hvalues
  refine ⟨hcondition, hresult, ?_⟩
  cases base with
  | some base =>
    dsimp only at h
    split at h
    · assumption
    · cases h
  | none =>
    dsimp only at h
    split at h
    · assumption
    · cases h

/-- A builder takes the branches that fit its base, and keeps them in their order. -/
private theorem when_eq_ok_iff :
    b.when condition result = .ok extended ↔
      Fits b.base (condition, result) ∧ extended = { b with branches := b.branches ++ [(condition, result)] } := by
  constructor
  · intro h
    have hfits := fits_of_when h
    rw [when_of_fits hfits] at h
    exact ⟨hfits, (Except.ok.inj h).symm⟩
  · rintro ⟨hfits, rfl⟩
    exact when_of_fits hfits

end

/-- A sequence of calls is taken if all of its branches fit. The builder then holds these branches, and the default of
the last call for one. -/
theorem foldlM_call_eq_ok_iff {b b' : CaseBuilder} {calls : List CaseCall} :
    calls.foldlM call b = .ok b' ↔
      (∀ branch ∈ CaseCall.branches calls, Fits b.base branch) ∧
        b' = ⟨b.base, b.branches ++ CaseCall.branches calls, (CaseCall.lastDefault? calls).or b.default?⟩ := by
  induction calls generalizing b with
  | nil =>
    have hnil : ([] : List CaseCall).foldlM call b = .ok b' ↔ b' = b := by
      rw [List.foldlM_nil]
      exact ⟨fun h => (Except.ok.inj h).symm, fun h => h ▸ rfl⟩
    rw [hnil]
    simp [CaseCall.branches, CaseCall.lastDefault?]
  | cons c calls ih =>
    rw [List.foldlM_cons, bind_eq_ok]
    cases c with
    | when condition result =>
      rw [CaseCall.branches_when, List.forall_mem_cons, CaseCall.lastDefault?_when]
      constructor
      · rintro ⟨extended, hwhen, hcalls⟩
        obtain ⟨hfits, rfl⟩ := when_eq_ok_iff.1 hwhen
        obtain ⟨hrest, rfl⟩ := ih.1 hcalls
        exact ⟨⟨hfits, hrest⟩, by rw [List.append_assoc, List.singleton_append]⟩
      · rintro ⟨⟨hfits, hrest⟩, rfl⟩
        refine ⟨_, when_of_fits hfits, ih.2 ⟨hrest, ?_⟩⟩
        rw [List.append_assoc, List.singleton_append]
    | otherwise result =>
      rw [CaseCall.branches_otherwise, CaseCall.lastDefault?_otherwise]
      -- a later default takes the place of this one
      have hdefault : (CaseCall.lastDefault? calls).or (some result) =
          some ((CaseCall.lastDefault? calls).getD result) := by
        cases CaseCall.lastDefault? calls <;> rfl
      constructor
      · rintro ⟨_, hcall, hcalls⟩
        obtain rfl := Except.ok.inj hcall
        obtain ⟨hrest, rfl⟩ := ih.1 hcalls
        exact ⟨hrest, congrArg _ hdefault⟩
      · rintro ⟨hrest, rfl⟩
        exact ⟨b.otherwise result, rfl, ih.2 ⟨hrest, congrArg _ hdefault.symm⟩⟩

/-- The branches of a case that can be made are branches that a builder takes. -/
theorem fits_of_new? {base : Option Node} {branches : List (Node × Node)} {default n : Node}
    (h : Node.new? (.case base (branches.map (·.1)) (branches.map (·.2)) default) = .ok n) :
    ∀ branch ∈ branches, Fits base branch := by
  intro branch hbranch
  have hcondition : branch.1 ∈ branches.map (·.1) := List.mem_map_of_mem hbranch
  have hresult : branch.2 ∈ branches.map (·.2) ++ [default] := List.mem_append_left _ (List.mem_map_of_mem hbranch)
  cases base with
  | none =>
    obtain ⟨-, hconditions, hresults, -⟩ := succeeds_searchedCase_iff.1 ⟨n, h⟩
    exact ⟨(hconditions _ hcondition).1, hresults _ hresult, (hconditions _ hcondition).2⟩
  | some base =>
    obtain ⟨-, -, hconditions, hresults, -⟩ := succeeds_simpleCase_iff.1 ⟨n, h⟩
    exact ⟨(hconditions _ hcondition).1, hresults _ hresult, (hconditions _ hcondition).2⟩

/-! ### The finished case -/

private theorem nullDefault?_eq_ok_iff {results : List Node} {default : Node} :
    nullDefault? results = .ok default ↔ ∃ type, unify results = .ok type ∧ Node.typedNull type = default := by
  unfold nullDefault?
  rw [bind_eq_ok]
  constructor
  · rintro ⟨type, htype, h⟩
    have hcast : Node.new? (.cast ⟨.null .null, .null, .scalar⟩ type) = .ok default := h
    rw [Node.new?_typedNull] at hcast
    exact ⟨type, mapError_eq_ok.1 htype, Except.ok.inj hcast⟩
  · rintro ⟨type, htype, rfl⟩
    exact ⟨type, mapError_eq_ok.2 htype, Node.new?_typedNull type⟩

private theorem finish_of_isEmpty {b : CaseBuilder} (h : b.branches = []) : b.finish = b.refuse .noBranch := by
  unfold finish
  rw [h]
  rfl

private theorem finish_of_ne_nil {b : CaseBuilder} (h : b.branches ≠ []) :
    b.finish = (b.default?.elim (nullDefault? (b.branches.map (·.2))) .ok) >>= fun default =>
      Node.new? (.case b.base (b.branches.map (·.1)) (b.branches.map (·.2)) default) := by
  obtain ⟨base, branches, default?⟩ := b
  have hnonempty : ¬branches.isEmpty = true := by simpa using h
  unfold finish
  rw [if_neg hnonempty]
  cases base <;> cases default? <;> rfl

/-- A builder finishes with the case of its branches and its default. -/
private theorem finish_eq_ok_iff {b : CaseBuilder} {n : Node} :
    b.finish = .ok n ↔
      b.branches ≠ [] ∧
        ((∃ default, b.default? = some default ∧
            Node.new? (.case b.base (b.branches.map (·.1)) (b.branches.map (·.2)) default) = .ok n) ∨
          b.default? = none ∧ ∃ type, unify (b.branches.map (·.2)) = .ok type ∧
            Node.new? (.case b.base (b.branches.map (·.1)) (b.branches.map (·.2)) (.typedNull type)) = .ok n) := by
  by_cases hempty : b.branches = []
  · rw [finish_of_isEmpty hempty]
    simp [hempty, refuse]
  · rw [finish_of_ne_nil hempty, bind_eq_ok, and_iff_right hempty]
    cases hdefault : b.default? with
    | some default => simp
    | none =>
      simp only [Option.elim_none, nullDefault?_eq_ok_iff]
      constructor
      · rintro ⟨_, ⟨type, htype, rfl⟩, h⟩
        exact .inr ⟨trivial, type, htype, h⟩
      · rintro (⟨_, h, -⟩ | ⟨-, type, htype, h⟩)
        · cases h
        · exact ⟨_, ⟨type, htype, rfl⟩, h⟩

/-- A null as the default of a case changes neither its type nor its shape. -/
private theorem type_shape_of_typedNull {base : Option Node} {conditions results : List Node} {type : DataType}
    {n : Node} (htype : unify results = .ok type)
    (h : Node.new? (.case base conditions results (.typedNull type)) = .ok n) :
    n.type = type ∧ n.shape = .combine ((base.toList ++ conditions ++ results).map (·.shape)) := by
  obtain ⟨-, hn, hshape⟩ := Node.new?_eq_ok_iff.1 h
  constructor
  · have hunify := unify_of_type?_case hn
    rw [unify_append_typedNull htype] at hunify
    exact (Except.ok.inj hunify).symm
  · rw [hshape, Op.shape_case, List.map_append]
    exact Shape.combine_append_scalar _

private theorem build_eq_ok_iff_finish {base : Option Node} {calls : List CaseCall} {n : Node} :
    build base calls = .ok n ↔
      (∀ branch ∈ CaseCall.branches calls, Fits base branch) ∧
        finish ⟨base, CaseCall.branches calls, CaseCall.lastDefault? calls⟩ = .ok n := by
  have hstart : start base = ⟨base, [], none⟩ := by cases base <;> rfl
  unfold build
  simp only [hstart, bind_eq_ok, foldlM_call_eq_ok_iff, List.nil_append, Option.or_none]
  constructor
  · rintro ⟨_, ⟨hfits, rfl⟩, h⟩
    exact ⟨hfits, h⟩
  · rintro ⟨hfits, h⟩
    exact ⟨_, ⟨hfits, rfl⟩, h⟩

/-- A sequence of calls on a builder ends with a case exactly if it adds a branch and the case of all its branches can
be made: with the default of the last call for one, or with a null of the common type of the results if there is no
such call. In the second case this is the type of the case, and its shape follows from its base, its conditions and
its results alone. -/
theorem build_eq_ok_iff (base : Option Node) (calls : List CaseCall) (n : Node) :
    (build base calls = .ok n ↔
      CaseCall.branches calls ≠ [] ∧
        ((∃ default, CaseCall.lastDefault? calls = some default ∧
            Node.new? (.case base (CaseCall.conditions calls) (CaseCall.results calls) default) = .ok n) ∨
          CaseCall.lastDefault? calls = none ∧ ∃ type, unify (CaseCall.results calls) = .ok type ∧
            Node.new? (.case base (CaseCall.conditions calls) (CaseCall.results calls) (.typedNull type)) = .ok n)) ∧
    (CaseCall.lastDefault? calls = none → build base calls = .ok n →
      unify (CaseCall.results calls) = .ok n.type ∧
        n.shape = .combine ((base.toList ++ CaseCall.conditions calls ++ CaseCall.results calls).map (·.shape))) := by
  constructor
  · rw [build_eq_ok_iff_finish, finish_eq_ok_iff]
    refine and_iff_right_of_imp fun h => ?_
    -- a case that can be made has only branches that the builder takes
    obtain ⟨-, ⟨_, -, hmade⟩ | ⟨-, _, -, hmade⟩⟩ := h
    · exact fits_of_new? hmade
    · exact fits_of_new? hmade
  · intro hnone h
    obtain ⟨-, hfinish⟩ := build_eq_ok_iff_finish.1 h
    obtain ⟨-, ⟨_, hsome, -⟩ | ⟨-, type, htype, hmade⟩⟩ := finish_eq_ok_iff.1 hfinish
    · rw [hnone] at hsome
      cases hsome
    · obtain ⟨hn, hshape⟩ := type_shape_of_typedNull htype hmade
      exact ⟨hn ▸ htype, hshape⟩

end CaseBuilder

end SqlPlan
