import SqlPlan.Proofs.Nodes

/-!
# Types of nodes

An operation has a type if its inputs are in their places, relations where it takes relations and values where it
takes values, and fit the rule of the operation. The rules are stated here without the errors that breaking them leads
to, and without the order in which they are looked at.

* `Op.type?_eq_ok_iff`: an operation has the types that the rules give it, and no others.
* `Node.Valid.inputs_isRelation`, `Node.Valid.hasType`: what this means for the nodes that can be made.
* `Node.Valid.exists_schema`: a relation has columns of different names.
-/

namespace SqlPlan

/-! ### What is demanded of inputs -/

/-- An input of the type is accepted: one of the expected types, or null. -/
def InputClass.Takes (expected : InputClass) (t : DataType) : Prop := expected.accepts t = true ∨ t.isNull = true

namespace Kind

variable {kind : Kind} {expected : InputClass} {n base : Node} {ns conditions results : List Node} {u : Unit}

private theorem expectRelation_eq_ok : kind.expectRelation n = .ok u ↔ n.isRelation = true := by
  simp [expectRelation, reject]

private theorem expectValue_eq_ok : kind.expectValue n = .ok u ↔ n.isRelation = false := by
  simp [expectValue, reject]

private theorem expectBoolean_eq_ok :
    kind.expectBoolean n = .ok u ↔ n.isRelation = false ∧ n.type.isBoolean = true := by
  simp [expectBoolean, bind_eq_ok, expectValue_eq_ok, reject]

private theorem expectInput_eq_ok :
    kind.expectInput expected n = .ok u ↔ n.isRelation = false ∧ expected.Takes n.type := by
  simp only [expectInput, bind_eq_ok, exists_const, expectValue_eq_ok, InputClass.Takes, ← Bool.or_eq_true]
  split <;> simp_all [reject]

private theorem expectUnit_eq_ok {accepts : TemporalUnit → Bool} {unit : TemporalUnit} :
    kind.expectUnit accepts unit = .ok u ↔ accepts unit = true := by
  simp [expectUnit, reject]

private theorem expectValues_eq_ok : kind.expectValues ns = .ok u ↔ ∀ n ∈ ns, n.isRelation = false := by
  induction ns with
  | nil => simp [expectValues]
  | cons n ns ih =>
    rw [List.forall_mem_cons, ← ih]
    simp [expectValues, bind_eq_ok, expectValue_eq_ok]

private theorem expectBooleans_eq_ok :
    kind.expectBooleans ns = .ok u ↔ ∀ n ∈ ns, n.isRelation = false ∧ n.type.isBoolean = true := by
  induction ns with
  | nil => simp [expectBooleans]
  | cons n ns ih =>
    rw [List.forall_mem_cons, ← ih]
    simp [expectBooleans, bind_eq_ok, expectBoolean_eq_ok]

private theorem expectInputs_eq_ok :
    kind.expectInputs expected ns = .ok u ↔ ∀ n ∈ ns, n.isRelation = false ∧ expected.Takes n.type := by
  induction ns with
  | nil => simp [expectInputs]
  | cons n ns ih =>
    rw [List.forall_mem_cons, ← ih]
    simp [expectInputs, bind_eq_ok, expectInput_eq_ok]

private theorem expectComparable_eq_ok :
    kind.expectComparable base ns = .ok u ↔ ∀ n ∈ ns, n.isRelation = false ∧ base.type.comparable n.type = true := by
  induction ns with
  | nil => simp [expectComparable]
  | cons n ns ih =>
    rw [List.forall_mem_cons, ← ih]
    simp only [expectComparable, bind_eq_ok, expectValue_eq_ok]
    split <;> simp_all

private theorem expectBranches_eq_ok :
    kind.expectBranches conditions results = .ok u ↔ 0 < conditions.length ∧ conditions.length = results.length := by
  unfold expectBranches
  split <;> simp_all [reject, List.length_pos_iff]

private theorem expectDistinct_eq_ok {names : List String} : kind.expectDistinct names = .ok u ↔ names.Nodup := by
  have hdistinct : repeatedName? [] names = none ↔ names.Nodup := by simp [repeatedName?_eq_none_iff]
  rw [← hdistinct, expectDistinct]
  cases repeatedName? [] names <;> simp [reject]

private theorem columns_eq_ok {values : List (Named Node)} {schema : Schema} :
    kind.columns values = .ok schema ↔ (values.map (·.name)).Nodup ∧
      (∀ m ∈ values.map (·.value), m.isRelation = false) ∧
      values.map (fun v => ⟨v.name, v.value.type, true⟩) = schema := by
  simp only [columns, bind_eq_ok, exists_const, expectDistinct_eq_ok, expectValues_eq_ok, pure_eq_ok]

end Kind

private theorem resultType_eq_ok {kind : Kind} {results : List Node} {t : DataType} :
    resultType kind results = .ok t ↔ (∀ m ∈ results, m.isRelation = false) ∧ unify results = .ok t := by
  simp only [resultType, bind_eq_ok, exists_const, Kind.expectValues_eq_ok, mapError_eq_ok]

/-! ### Typing rules -/

namespace Op

/-- Relations stand in the places of relations, and values in the places of values. -/
def Placed (op : Op Node) : Prop :=
  (∀ r ∈ op.relation?, r.isRelation = true) ∧ ∀ m ∈ op.arguments, m.isRelation = false

/-- The typing rules of operations over inputs in their places. -/
def HasType : Op Node → DataType → Prop
  | .literal value type, t => value.isNull = false ∧ value.conformsTo type = true ∧ type = t
  | .null type, t => type = t
  | .field relation name, t =>
    ∃ schema column, relation.schema? = some schema ∧ schema.find? name = some column ∧ column.type = t
  | .cast arg target, t => arg.type.castable target = true ∧ target = t
  | .binary op left right, t => op.type? left.type right.type = .ok t
  | .unary .not arg, t => arg.type.isBoolean = true ∧ .boolean = t
  | .unary .negate arg, t => InputClass.numericOrInterval.Takes arg.type ∧ arg.type = t
  | .unary .isNull _, t | .unary .notNull _, t => .boolean = t
  | .unary .lowercase arg, t | .unary .uppercase arg, t => InputClass.string.Takes arg.type ∧ .string = t
  | .unary .stringLength arg, t => InputClass.string.Takes arg.type ∧ .int .w32 = t
  | .simpleCase base conditions results default, t =>
    (0 < conditions.length ∧ conditions.length = results.length) ∧
      (∀ m ∈ conditions, base.type.comparable m.type = true) ∧ unify (results ++ [default]) = .ok t
  | .searchedCase conditions results default, t =>
    (0 < conditions.length ∧ conditions.length = results.length) ∧
      (∀ m ∈ conditions, m.type.isBoolean = true) ∧ unify (results ++ [default]) = .ok t
  | .truncate .date arg unit, t => InputClass.date.Takes arg.type ∧ unit.isDateUnit = true ∧ .date = t
  | .truncate .timestamp arg _, t => InputClass.timestamp.Takes arg.type ∧ arg.type = t
  | .truncate .time arg unit, t => InputClass.time.Takes arg.type ∧ unit.isTimeUnit = true ∧ .time = t
  | .dateFromYmd year month day, t => (∀ m ∈ [year, month, day], InputClass.integer.Takes m.type) ∧ .date = t
  | .generate .dateNow, t => .date = t
  | .generate .timestampNow, t => .timestamp none = t
  | .generate .randomUuid, t => .uuid = t
  | .interval arg unit, t => InputClass.integer.Takes arg.type ∧ .interval unit = t
  | .reduce func arg condition, t => (∀ m ∈ condition.toList, m.type.isBoolean = true) ∧ func.type? arg.type = .ok t
  | .pick _ arg condition _, t => (∀ m ∈ condition.toList, m.type.isBoolean = true) ∧ arg.type = t
  | .correlate left right _ condition, t =>
    (∀ m ∈ [left, right], InputClass.numeric.Takes m.type) ∧
      (∀ m ∈ condition.toList, m.type.isBoolean = true) ∧ .float64 = t
  | .table _ schema, t => (schema.map (·.name)).Nodup ∧ .struct schema = t
  | .project _ values, t =>
    values ≠ [] ∧ (values.map (·.name)).Nodup ∧ .struct (values.map fun v => ⟨v.name, v.value.type, true⟩) = t
  | .filter parent predicates, t => (∀ m ∈ predicates, m.type.isBoolean = true) ∧ parent.type = t
  | .aggregate _ groups metrics, t =>
    (groups ≠ [] ∨ metrics ≠ []) ∧ (∀ metric ∈ metrics, metric.value.kind.isReduction = true) ∧
      ((groups ++ metrics).map (·.name)).Nodup ∧
      .struct ((groups ++ metrics).map fun v => ⟨v.name, v.value.type, true⟩) = t
  | .sort parent _, t | .limit parent _ _, t => parent.type = t

/-- An operation has the types that the rules give it, and no others. -/
theorem type?_eq_ok_iff {op : Op Node} {t : DataType} : op.type? = .ok t ↔ op.Placed ∧ op.HasType t := by
  cases op with
  | field relation name =>
    simp only [type?, Placed, HasType, relation?, arguments, bind_eq_ok, exists_const, Kind.expectRelation_eq_ok]
    constructor
    · rintro ⟨hrelation, hcolumn⟩
      split at hcolumn
      · rename_i column hfind
        obtain ⟨schema, hschema, hfind⟩ := Option.bind_eq_some_iff.1 hfind
        exact ⟨by simpa using hrelation, schema, column, hschema, hfind, Except.ok.inj hcolumn⟩
      · cases hcolumn
    · rintro ⟨⟨hrelation, -⟩, schema, column, hschema, hfind, rfl⟩
      exact ⟨hrelation relation rfl, by simp [hschema, hfind]⟩
  | project parent values =>
    simp only [type?, Placed, HasType, relation?, arguments, bind_eq_ok, exists_const, Kind.reject, ite_error_eq_ok,
      Kind.expectRelation_eq_ok, Kind.columns_eq_ok, pure_eq_ok]
    grind
  | aggregate parent groups metrics =>
    simp only [type?, Placed, HasType, relation?, arguments, bind_eq_ok, exists_const, Kind.reject, ite_error_eq_ok,
      Kind.expectRelation_eq_ok]
    -- the first metric that is no reduction is reported
    cases hfind : metrics.find? fun m => !m.value.kind.isReduction with
    | none =>
      have hmetrics : ∀ metric ∈ metrics, metric.value.kind.isReduction = true := by simpa using hfind
      simp only [bind_eq_ok, Kind.columns_eq_ok, pure_eq_ok]
      grind
    | some metric =>
      have hmetric := List.find?_some hfind
      have := List.mem_of_find?_eq_some hfind
      grind
  | unary op arg =>
    cases op <;> simp only [type?, Placed, HasType, relation?, arguments, children, bind_eq_ok, exists_const,
      Kind.expectValue_eq_ok, Kind.expectBoolean_eq_ok, Kind.expectInput_eq_ok, pure_eq_ok] <;> grind
  | truncate clock arg unit =>
    cases clock <;> simp only [type?, Placed, HasType, relation?, arguments, children, bind_eq_ok, exists_const,
      Kind.expectInput_eq_ok, Kind.expectUnit_eq_ok, pure_eq_ok] <;> grind
  | generate source => cases source <;> simp [type?, Placed, HasType, relation?, arguments, children]
  | literal | null | cast | binary | interval | limit =>
    simp only [type?, Placed, HasType, relation?, arguments, children, bind_eq_ok, exists_const, ite_ok_eq_ok,
      ite_error_eq_ok, Kind.expectRelation_eq_ok, Kind.expectValue_eq_ok, Kind.expectInput_eq_ok, pure_eq_ok,
      Except.ok.injEq]
    grind
  | simpleCase | searchedCase | dateFromYmd | reduce | pick | correlate | table | filter | sort =>
    simp only [type?, Placed, HasType, relation?, arguments, children, bind_eq_ok, exists_const,
      Kind.expectRelation_eq_ok, Kind.expectValue_eq_ok, Kind.expectValues_eq_ok, Kind.expectBooleans_eq_ok,
      Kind.expectInputs_eq_ok, Kind.expectComparable_eq_ok, Kind.expectBranches_eq_ok, Kind.expectDistinct_eq_ok,
      resultType_eq_ok, pure_eq_ok, List.forall_mem_cons, List.forall_mem_append, forall_and]
    grind

end Op

namespace Node

variable {n : Node}

/-- A valid node has its type by the typing rules. -/
theorem Valid.hasType (h : n.Valid) : n.op.HasType n.type := (Op.type?_eq_ok_iff.1 h.type?_eq).2

/-- What stands in the place of a relation is one, and what stands in the place of a value is none. -/
theorem Valid.inputs_isRelation (h : n.Valid) :
    (∀ r ∈ n.op.relation?, r.isRelation = true) ∧ ∀ m ∈ n.op.arguments, m.isRelation = false :=
  (Op.type?_eq_ok_iff.1 h.type?_eq).1

/-! ### Columns of relations -/

/-- The schema of a relation is the columns of its type. -/
theorem schema?_of_isRelation {columns : Schema} (hshape : n.isRelation = true) (htype : n.type = .struct columns) :
    n.schema? = some columns := by
  obtain ⟨op, type, shape⟩ := n
  have hshape : shape = .tabular := by simpa [isRelation] using hshape
  have htype : type = .struct columns := htype
  subst hshape htype
  rfl

private theorem schema?_congr {n m : Node} (hshape : n.isRelation = m.isRelation) (htype : n.type = m.type) :
    n.schema? = m.schema? := by
  obtain ⟨op, type, shape⟩ := n
  obtain ⟨op', type', shape'⟩ := m
  have htype : type = type' := htype
  subst htype
  cases type <;> cases shape <;> cases shape' <;> first | rfl | cases hshape

theorem type_of_schema? {columns : Schema} (h : n.schema? = some columns) : n.type = .struct columns := by
  unfold schema? at h
  split at h
  · rename_i htype _
    rw [htype, Option.some.inj h]
  · cases h

theorem isRelation_of_schema? {columns : Schema} (h : n.schema? = some columns) : n.isRelation = true := by
  unfold schema? at h
  split at h
  · rename_i hshape
    simp [isRelation, hshape]
  · cases h

section

variable {parent : Node} {type : DataType} {shape : Shape}

/-- The columns of a projection are its values. -/
theorem Valid.schema?_project {values : List (Named Node)} (h : Valid ⟨.project parent values, type, shape⟩) :
    schema? ⟨.project parent values, type, shape⟩ = some (values.map fun v => ⟨v.name, v.value.type, true⟩) := by
  obtain ⟨-, -, htype⟩ := h.hasType
  exact schema?_of_isRelation h.isRelation_eq htype.symm

/-- The columns of an aggregation are its groups and its metrics. -/
theorem Valid.schema?_aggregate {groups metrics : List (Named Node)}
    (h : Valid ⟨.aggregate parent groups metrics, type, shape⟩) :
    schema? ⟨.aggregate parent groups metrics, type, shape⟩ =
      some ((groups ++ metrics).map fun v => ⟨v.name, v.value.type, true⟩) := by
  obtain ⟨-, -, -, htype⟩ := h.hasType
  exact schema?_of_isRelation h.isRelation_eq htype.symm

/-- An operation that keeps the type of its parent keeps the columns. -/
private theorem Valid.schema?_eq (h : n.Valid) (hrelation : n.kind.isRelation = true)
    (hparent : n.op.relation? = some parent) (htype : parent.type = n.type) : n.schema? = parent.schema? :=
  schema?_congr ((h.isRelation_eq.trans hrelation).trans (h.inputs_isRelation.1 parent hparent).symm) htype.symm

/-- A filter has the schema of its relation. -/
theorem Valid.schema?_filter {predicates : List Node} (h : Valid ⟨.filter parent predicates, type, shape⟩) :
    schema? ⟨.filter parent predicates, type, shape⟩ = parent.schema? :=
  h.schema?_eq rfl rfl h.hasType.2

/-- A sort has the schema of its relation. -/
theorem Valid.schema?_sort {keys : List (SortKey Node)} (h : Valid ⟨.sort parent keys, type, shape⟩) :
    schema? ⟨.sort parent keys, type, shape⟩ = parent.schema? :=
  h.schema?_eq rfl rfl h.hasType

/-- A limit has the schema of its relation. -/
theorem Valid.schema?_limit {count : Option UInt64} {offset : UInt64}
    (h : Valid ⟨.limit parent count offset, type, shape⟩) :
    schema? ⟨.limit parent count offset, type, shape⟩ = parent.schema? :=
  h.schema?_eq rfl rfl h.hasType

end

/-- A relation has columns of different names. -/
theorem Valid.exists_schema (h : n.Valid) (hrelation : n.isRelation = true) :
    ∃ schema, n.schema? = some schema ∧ (schema.map (·.name)).Nodup := by
  induction n using Node.induction with
  | step n ih =>
    have hop : n.op.isRelation = true := n.op.isRelation_kind.symm.trans (h.isRelation_eq.symm.trans hrelation)
    have hparent : ∀ r ∈ n.op.relation?, ∃ schema, r.schema? = some schema ∧ (schema.map (·.name)).Nodup := by
      intro r hr
      exact ih r (Op.mem_children.2 (.inl hr)) (h.relation hr) (h.inputs_isRelation.1 r hr)
    obtain ⟨op, type, shape⟩ := n
    cases op with
    | table name schema =>
      obtain ⟨hdistinct, htype⟩ := h.hasType
      exact ⟨schema, schema?_of_isRelation hrelation htype.symm, hdistinct⟩
    | project parent values =>
      obtain ⟨-, hdistinct, -⟩ := h.hasType
      exact ⟨_, h.schema?_project, by rwa [List.map_map]⟩
    | aggregate parent groups metrics =>
      obtain ⟨-, -, hdistinct, -⟩ := h.hasType
      exact ⟨_, h.schema?_aggregate, by rwa [List.map_map]⟩
    | filter parent predicates =>
      rw [h.schema?_filter]
      exact hparent parent rfl
    | sort parent keys =>
      rw [h.schema?_sort]
      exact hparent parent rfl
    | limit parent count offset =>
      rw [h.schema?_limit]
      exact hparent parent rfl
    | _ => cases hop

/-- A field is one of the columns of its relation. -/
theorem Valid.mem_schema_of_field {relation : Node} {name : String} (h : n.Valid)
    (hop : n.op = .field relation name) :
    ∃ schema, relation.schema? = some schema ∧ ∃ column ∈ schema, column.name = name := by
  have htype := h.hasType
  rw [hop] at htype
  obtain ⟨schema, column, hschema, hfind, -⟩ := htype
  exact ⟨schema, hschema, column, List.mem_of_find?_eq_some hfind, by simpa using List.find?_some hfind⟩

end Node

end SqlPlan
