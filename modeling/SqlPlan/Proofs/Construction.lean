import Mathlib.Logic.Relation
import SqlPlan.Node.Build
import SqlPlan.Node.Case
import SqlPlan.Node.Json
import SqlPlan.Proofs.Typing

/-!
# Nodes from calls and documents

All ways to come by a node lead through `Node.new?`: the short forms for literals and truncations, the builders of
case expressions, and the reading of documents. So every node that can be obtained is valid, and every node in its
tree has the form that compilation relies on.

* `Fields.Yields`: what the fields of a structure satisfy whenever they can be read.
* `Node.ofNestedNode_valid`: what is read from a document is valid, whatever the document.
* `Node.Obtained.wellFormed`: relations and values stand where they belong, in all trees that can be obtained.
-/

namespace SqlPlan

/-! ### What is read from documents -/

namespace Fields

variable {δ ε α β : Type} {P : β → Prop} {Q : α → Prop}

/-- Whatever is read for the fields satisfies `Q`. -/
def Yields (Q : α → Prop) (fields : Fields δ ε α) : Prop := ∀ place record, Returns Q (fields.read place record)

private theorem Yields.trivial (fields : Fields δ ε α) : fields.Yields fun _ => True := fun _ _ => Returns.trivial _

private theorem Yields.pure {a : α} (h : Q a) : (pure a : Fields δ ε α).Yields Q := fun _ _ => Returns.ok h

private theorem Yields.field {name : String} {default? : Option α} {read : Reader δ ε α}
    (hdefault : ∀ a ∈ default?, Q a) (hread : ∀ doc, Returns Q (read doc)) : (field name default? read).Yields Q := by
  have hstanding : ∀ position doc, Returns Q (standingAt position (read doc)) := by
    intro position doc
    cases hdoc : read doc with
    | ok a => exact Returns.ok (hread doc a hdoc)
    | error e => exact Returns.error _
  have habsent : ∀ position, Returns Q (absent position default? : Except (Fault ε) α) := by
    intro position
    cases default? with
    | none => exact Returns.error _
    | some a => exact Returns.ok (hdefault a rfl)
  intro place record
  cases record with
  | positional items =>
    simp only [Fields.field]
    split
    · exact hstanding _ _
    · exact habsent _
  | named members =>
    simp only [Fields.field]
    split
    · exact habsent _
    · exact hstanding _ _
    · split <;> exact Returns.error _

private theorem Yields.required {name : String} {read : Reader δ ε α} (hread : ∀ doc, Returns Q (read doc)) :
    (required name read).Yields Q :=
  .field (by simp) hread

private theorem Yields.optional {name : String} {default : α} {read : Reader δ ε α} (hdefault : Q default)
    (hread : ∀ doc, Returns Q (read doc)) : (optional name default read).Yields Q :=
  .field (by simpa using hdefault) hread

private theorem Yields.map {fields : Fields δ ε α} {f : α → β} (h : fields.Yields Q) (hf : ∀ a, Q a → P (f a)) :
    (f <$> fields).Yields P := by
  intro place record b hb
  have hmap : (f <$> fields).read place record = (fields.read place record).map f := rfl
  rw [hmap] at hb
  cases ha : fields.read place record with
  | error e => simp [ha, Except.map] at hb
  | ok a =>
    obtain rfl : f a = b := by simpa [ha, Except.map] using hb
    exact hf a (h place record a ha)

private theorem Yields.seq {fields : Fields δ ε (α → β)} {arg : Fields δ ε α}
    (hf : fields.Yields fun f => ∀ a, Q a → P (f a)) (harg : arg.Yields Q) : (fields <*> arg).Yields P := by
  intro place record b hb
  have hseq : (fields <*> arg).read place record =
    earliest (fields.read place record) (arg.read (place + fields.count) record) := rfl
  rw [hseq] at hb
  cases hg : fields.read place record <;> cases ha : arg.read (place + fields.count) record <;>
    rw [hg, ha] at hb <;> cases hb
  exact hf _ _ _ hg _ (harg _ _ _ ha)

private theorem Yields.run {fields : Fields δ ε α} (h : fields.Yields Q) (record : Record δ) :
    Returns Q (fields.run record) := by
  intro a ha
  unfold Fields.run at ha
  split at ha
  · cases ha
  · rename_i hread
    cases ha
    exact h _ _ _ hread
  · rename_i hread
    split at ha <;> cases ha
    exact h _ _ _ hread

end Fields

section

variable {δ ε α : Type} {Q : α → Prop}

private theorem Reader.returns_all {read : Reader δ ε α} (h : ∀ doc, Returns Q (read doc)) (docs : List δ) :
    Returns (fun as => ∀ a ∈ as, Q a) (Reader.all read docs) := by
  induction docs with
  | nil => exact Returns.ok (by simp)
  | cons doc docs ih =>
    unfold Reader.all
    split
    · exact Returns.error _
    · rename_i a ha
      split
      · exact Returns.error _
      · rename_i as has
        exact Returns.ok (List.forall_mem_cons.2 ⟨h doc a ha, ih as has⟩)

namespace Json

private theorem returns_asList {read : Reader Json ε α} (h : ∀ doc, Returns Q (read doc)) (doc : Json) :
    Returns (fun as => ∀ a ∈ as, Q a) (asList read doc) := by
  unfold asList
  split
  · exact Reader.returns_all h _
  · exact Returns.error _

private theorem returns_asOption {read : Reader Json ε α} (h : ∀ doc, Returns Q (read doc)) (doc : Json) :
    Returns (fun a? => ∀ a ∈ a?, Q a) (asOption read doc) := by
  unfold asOption
  split
  · exact Returns.ok (by simp)
  · exact (h doc).map fun a ha => by simpa using ha

private theorem returns_asStructure {fields : Fields Json ε α} (h : fields.Yields Q) (doc : Json) :
    Returns Q (asStructure fields doc) :=
  (Returns.trivial _).bind fun record _ => h.run record

end Json

end

namespace Node

/-! ### Nodes from documents -/

/-- The inputs of an operation are read by the reader for inputs. -/
private theorem fields?_yields {ε : Type} {P : Node → Prop} {read : Reader Json ε Node}
    (hread : ∀ doc, Returns P (read doc)) {tag : String} {fields : Fields Json ε (Op Node)}
    (h : Op.fields? read tag = some fields) : fields.Yields fun op => ∀ m ∈ op.children, P m := by
  have input : ∀ name, (Fields.required name read).Yields P := fun name => .required hread
  have inputs : ∀ name, (Fields.required name (Json.asList read)).Yields fun ns => ∀ n ∈ ns, P n :=
    fun name => .required (Json.returns_asList hread)
  have condition : (Fields.optional "where" none (Json.asOption read)).Yields fun n? => ∀ n ∈ n?, P n :=
    .optional (by simp) (Json.returns_asOption hread)
  have keys : ∀ doc, Returns (fun ks => ∀ k ∈ ks, P k.expr)
      (Json.asList (Json.asStructure (sortKeyFields read)) doc) :=
    Json.returns_asList (Json.returns_asStructure (.seq (.map (input _) (by simp)) (.trivial _)))
  have named : ∀ doc, Returns (fun vs => ∀ v ∈ vs, P v.value)
      (Json.asList (Json.asStructure (namedFields read)) doc) :=
    Json.returns_asList (Json.returns_asStructure (.seq (.map (.trivial _) (by simp)) (input _)))
  unfold Op.fields? at h
  -- the cases are in the order of the tags
  split at h <;> cases h
  · exact .seq (.map (.trivial _) (by simp [Op.children])) (.trivial _)
  · exact .map (.trivial _) (by simp [Op.children])
  · exact .seq (.map (input _) (by simp [Op.children])) (.trivial _)
  · exact .seq (.map (input _) (by simp +contextual [Op.children])) (.trivial _)
  · exact .seq (.seq (.map (.trivial _) (by simp +contextual [Op.children])) (input _)) (input _)
  · exact .seq (.map (.trivial _) (by simp [Op.children])) (input _)
  · exact .seq (.seq (.seq (.map (input _) (by simp +contextual [Op.children, or_imp])) (inputs _)) (inputs _))
      (input _)
  · exact .seq (.seq (.map (inputs _) (by simp +contextual [Op.children, or_imp])) (inputs _)) (input _)
  iterate 3 exact .seq (.map (input _) (by simp +contextual [Op.children])) (.trivial _)
  · exact .seq (.seq (.map (input _) (by simp +contextual [Op.children])) (input _)) (input _)
  iterate 3 exact .pure (by simp [Op.children])
  · exact .seq (.map (input _) (by simp +contextual [Op.children])) (.trivial _)
  · exact .seq (.seq (.map (.trivial _) (by simp +contextual [Op.children])) (input _)) condition
  · exact .seq (.seq (.seq (.map (.trivial _) (by simp +contextual [Op.children, or_imp])) (input _)) condition)
      (.optional (by simp) keys)
  · exact .seq (.seq (.seq (.map (input _) (by simp +contextual [Op.children])) (input _)) (.trivial _)) condition
  · exact .seq (.map (.trivial _) (by simp [Op.children])) (.trivial _)
  · exact .seq (.map (input _) (by simp +contextual [Op.children])) (.required named)
  · exact .seq (.map (input _) (by simp +contextual [Op.children])) (inputs _)
  · exact .seq (.seq (.map (input _) (by simp +contextual [Op.children, or_imp, forall_and]))
      (.optional (by simp) named)) (.required named)
  · exact .seq (.map (input _) (by simp +contextual [Op.children])) (.required keys)
  · exact .seq (.seq (.map (input _) (by simp [Op.children])) (.trivial _)) (.trivial _)

private theorem new?_valid {op : Op Node} (hinputs : ∀ m ∈ op.children, m.Valid) : Returns Valid (new? op) := by
  intro n hn
  obtain rfl : n.op = op := (new?_eq_ok_iff.1 hn).1
  exact ⟨hinputs, hn⟩

/-- What is read from a document is valid. -/
theorem ofNestedNode_valid (bound : Nat) (level : Level) (doc : Json) :
    Returns Valid (ofNestedNode bound level doc) := by
  induction bound generalizing level doc with
  | zero => exact Returns.error _
  | succ bound ih =>
    rw [ofNestedNode]
    refine (Returns.trivial _).bind fun tagged _ => ?_
    obtain ⟨tag, record⟩ := tagged
    dsimp only
    split
    · exact Returns.error _
    · rename_i fields hfields
      -- the inputs have a smaller bound, and the node is made anew from what is read
      refine ((fields?_yields (ih .inner) hfields).run record).bind fun op hop => ?_
      intro n hn
      exact new?_valid hop n (mapError_eq_ok.1 hn)

private theorem ofText_valid (text : String) : Returns Valid (ofText text) := by
  unfold ofText
  split
  · exact Returns.error _
  · refine (ofNestedNode_valid _ .root _).bind fun n hn => ?_
    split
    · exact Returns.ok hn
    · exact Returns.error _

/-! ### Nodes from builders -/

private theorem literal?_valid (value : Value) (type : DataType) : Returns Valid (literal? value type) := by
  unfold literal?
  split <;> exact new?_valid (by simp [Op.children])

private theorem truncate?_valid {n : Node} (hn : n.Valid) (unit : TemporalUnit) : Returns Valid (n.truncate? unit) :=
  new?_valid (by simpa [Op.children] using hn)

end Node

namespace CaseBuilder

/-- The nodes that a builder holds are valid. -/
structure Valid (b : CaseBuilder) : Prop where
  base : ∀ n ∈ b.base, n.Valid
  branches : ∀ branch ∈ b.branches, branch.1.Valid ∧ branch.2.Valid
  default : ∀ n ∈ b.default?, n.Valid

private theorem searched_valid : searched.Valid := ⟨by simp [searched], by simp [searched], by simp [searched]⟩

private theorem simple_valid {base : Node} (h : base.Valid) : (simple base).Valid :=
  ⟨by simpa [simple] using h, by simp [simple], by simp [simple]⟩

namespace Valid

variable {b : CaseBuilder}

private theorem when (h : b.Valid) {condition result : Node} (hcondition : condition.Valid) (hresult : result.Valid) :
    Returns Valid (b.when condition result) := by
  have hextended : Valid { b with branches := b.branches ++ [(condition, result)] } :=
    ⟨h.base, List.forall_mem_append.2 ⟨h.branches, List.forall_mem_singleton.2 ⟨hcondition, hresult⟩⟩, h.default⟩
  unfold CaseBuilder.when
  split
  · exact Returns.error _
  dsimp only
  split
  · split
    · exact Returns.ok hextended
    · exact Returns.error _
  · split
    · exact Returns.ok hextended
    · exact Returns.error _

private theorem whenAll (h : b.Valid) {branches : List (Node × Node)}
    (hbranches : ∀ branch ∈ branches, branch.1.Valid ∧ branch.2.Valid) : Returns Valid (b.whenAll branches) := by
  induction branches generalizing b with
  | nil => exact Returns.ok h
  | cons branch branches ih =>
    obtain ⟨hbranch, hbranches⟩ := List.forall_mem_cons.1 hbranches
    rw [CaseBuilder.whenAll]
    exact (h.when hbranch.1 hbranch.2).bind fun extended hextended => ih hextended hbranches

private theorem otherwise (h : b.Valid) {result : Node} (hresult : result.Valid) : (b.otherwise result).Valid :=
  ⟨h.base, h.branches, by simpa [CaseBuilder.otherwise] using hresult⟩

end Valid

private theorem nullDefault?_valid (results : List Node) : Returns Node.Valid (nullDefault? results) := by
  have hnull : Returns Node.Valid (Node.new? (.null .null)) := Node.new?_valid (by simp [Op.children])
  refine (Returns.trivial _).bind fun type _ => ?_
  exact hnull.bind fun null hnull => Node.new?_valid (by simpa [Op.children] using hnull)

/-- What a builder of valid nodes finishes with is valid. -/
theorem Valid.finish {b : CaseBuilder} (h : b.Valid) : Returns Node.Valid b.finish := by
  have hinputs : ∀ default, default.Valid →
      ∀ n ∈ b.branches.map (·.1) ++ b.branches.map (·.2) ++ [default], n.Valid := by
    intro default hdefault
    simp only [List.forall_mem_append, List.forall_mem_map, List.forall_mem_singleton]
    exact ⟨⟨fun branch hb => (h.branches branch hb).1, fun branch hb => (h.branches branch hb).2⟩, hdefault⟩
  have hsearched : ∀ default, default.Valid →
      Returns Node.Valid (Node.new? (.searchedCase (b.branches.map (·.1)) (b.branches.map (·.2)) default)) :=
    fun default hdefault => Node.new?_valid (hinputs default hdefault)
  have hsimple : ∀ base ∈ b.base, ∀ default, default.Valid →
      Returns Node.Valid (Node.new? (.simpleCase base (b.branches.map (·.1)) (b.branches.map (·.2)) default)) :=
    fun base hbase default hdefault =>
      Node.new?_valid (List.forall_mem_cons.2 ⟨h.base base hbase, hinputs default hdefault⟩)
  unfold CaseBuilder.finish
  split
  · exact Returns.error _
  dsimp only
  split
  · rename_i default hsome
    refine (Returns.ok (h.default default hsome)).bind fun default hdefault => ?_
    split
    · exact hsimple _ ‹_› default hdefault
    · exact hsearched default hdefault
  · refine (nullDefault?_valid _).bind fun default hdefault => ?_
    split
    · exact hsimple _ ‹_› default hdefault
    · exact hsearched default hdefault

end CaseBuilder

namespace Node

private theorem cases?_valid {base : Node} {branches : List (Node × Node)} {default? : Option Node}
    (hbase : base.Valid) (hbranches : ∀ branch ∈ branches, branch.1.Valid ∧ branch.2.Valid)
    (hdefault : ∀ n ∈ default?, n.Valid) : Returns Valid (cases? base branches default?) :=
  ((CaseBuilder.simple_valid hbase).whenAll hbranches).bind fun _ hb =>
    CaseBuilder.Valid.finish ⟨hb.base, hb.branches, hdefault⟩

private theorem choose?_valid {condition whenTrue whenFalse : Node} (hcondition : condition.Valid)
    (htrue : whenTrue.Valid) (hfalse : whenFalse.Valid) : Returns Valid (choose? condition whenTrue whenFalse) :=
  (CaseBuilder.searched_valid.when hcondition htrue).bind fun _ hb => (hb.otherwise hfalse).finish

private theorem ifElse?_valid {condition whenTrue whenFalse : Node} (hcondition : condition.Valid)
    (htrue : whenTrue.Valid) (hfalse : whenFalse.Valid) : Returns Valid (ifElse? condition whenTrue whenFalse) := by
  have hcast : Returns Valid (asCondition? condition) := by
    unfold asCondition?
    split
    · exact Returns.ok hcondition
    split
    · exact new?_valid (by simpa [Op.children] using hcondition)
    · exact Returns.error _
  exact hcast.bind fun _ hcast => choose?_valid hcast htrue hfalse

end Node

/-! ### Sequences of calls -/

mutual

/-- The nodes that can be obtained by calls of the library, one on the results of others. -/
inductive Node.Obtained : Node → Prop
  | new {op : Op Node} {n : Node} (hinputs : ∀ m ∈ op.children, m.Obtained) (h : Node.new? op = .ok n) : n.Obtained
  | literal {value : Value} {type : DataType} {n : Node} (h : Node.literal? value type = .ok n) : n.Obtained
  | string {text : String} {n : Node} (h : Node.string? text = .ok n) : n.Obtained
  | boolean {b : Bool} {n : Node} (h : Node.boolean? b = .ok n) : n.Obtained
  | integer {k : Int64} {n : Node} (h : Node.integer? k = .ok n) : n.Obtained
  | float64 {x : Float} {n : Node} (h : Node.float64? x = .ok n) : n.Obtained
  | date {d : Date} {n : Node} (h : Node.date? d = .ok n) : n.Obtained
  | truncate {m n : Node} {unit : TemporalUnit} (hm : m.Obtained) (h : m.truncate? unit = .ok n) : n.Obtained
  | finish {b : CaseBuilder} {n : Node} (hb : b.Obtained) (h : b.finish = .ok n) : n.Obtained
  | simpleCase {base : Node} {branches : List (Node × Node)} {default? : Option Node} {n : Node}
    (hbase : base.Obtained) (hconditions : ∀ branch ∈ branches, branch.1.Obtained)
    (hresults : ∀ branch ∈ branches, branch.2.Obtained) (hdefault : ∀ m ∈ default?, m.Obtained)
    (h : Node.cases? base branches default? = .ok n) : n.Obtained
  | choose {condition whenTrue whenFalse n : Node} (hcondition : condition.Obtained) (htrue : whenTrue.Obtained)
    (hfalse : whenFalse.Obtained) (h : Node.choose? condition whenTrue whenFalse = .ok n) : n.Obtained
  | ifElse {condition whenTrue whenFalse n : Node} (hcondition : condition.Obtained) (htrue : whenTrue.Obtained)
    (hfalse : whenFalse.Obtained) (h : Node.ifElse? condition whenTrue whenFalse = .ok n) : n.Obtained
  | document {bound : Nat} {level : Node.Level} {doc : Json} {n : Node}
    (h : Node.ofNestedNode bound level doc = .ok n) : n.Obtained
  | text {text : String} {n : Node} (h : Node.ofText text = .ok n) : n.Obtained

/-- The builders that can be obtained by calls of the library. -/
inductive CaseBuilder.Obtained : CaseBuilder → Prop
  | searched : CaseBuilder.Obtained .searched
  | simple {base : Node} (hbase : base.Obtained) : CaseBuilder.Obtained (.simple base)
  | when {b extended : CaseBuilder} {condition result : Node} (hb : b.Obtained) (hcondition : condition.Obtained)
    (hresult : result.Obtained) (h : b.when condition result = .ok extended) : extended.Obtained
  | otherwise {b : CaseBuilder} {result : Node} (hb : b.Obtained) (hresult : result.Obtained) :
    (b.otherwise result).Obtained

end

namespace Node

/-- Every call makes valid nodes of valid ones. -/
theorem Obtained.valid {n : Node} (h : n.Obtained) : n.Valid := by
  -- nodes and builders are obtained from each other, so the induction is over both
  refine @Obtained.rec (fun n _ => n.Valid) (fun b _ => b.Valid) ?new ?literal ?string ?boolean ?integer ?float64
    ?date ?truncate ?finish ?simpleCase ?choose ?ifElse ?document ?text ?searched ?simple ?when ?otherwise n h
  case new => exact fun _ h hinputs => new?_valid hinputs _ h
  case literal | string | boolean | integer | float64 | date => exact fun h => literal?_valid _ _ _ h
  case truncate => exact fun _ h hm => truncate?_valid hm _ _ h
  case finish => exact fun _ h hb => hb.finish _ h
  case simpleCase =>
    intro base branches default? n _ _ _ _ h hbase hconditions hresults hdefault
    exact cases?_valid hbase (fun branch hb => ⟨hconditions branch hb, hresults branch hb⟩) hdefault n h
  case choose => exact fun _ _ _ h hcondition htrue hfalse => choose?_valid hcondition htrue hfalse _ h
  case ifElse => exact fun _ _ _ h hcondition htrue hfalse => ifElse?_valid hcondition htrue hfalse _ h
  case document => exact fun h => ofNestedNode_valid _ _ _ _ h
  case text => exact fun h => ofText_valid _ _ h
  case searched => exact CaseBuilder.searched_valid
  case simple => exact fun _ hbase => CaseBuilder.simple_valid hbase
  case when => exact fun _ _ _ h hb hcondition hresult => hb.when hcondition hresult _ h
  case otherwise => exact fun _ _ hb hresult => hb.otherwise hresult

/-! ### The form of trees -/

/-- A node stands in the tree of another one. -/
def Contains (n m : Node) : Prop := Relation.ReflTransGen (fun a b => b ∈ a.children) n m

/-- All nodes in a valid node are valid. -/
theorem Valid.of_contains {n m : Node} (hn : n.Valid) (h : n.Contains m) : m.Valid := by
  induction h with
  | refl => exact hn
  | tail _ hm ih => exact ih.inputs _ hm

/-- What is known of the shape, the type and the inputs of a node. -/
structure WellFormed (n : Node) : Prop where
  tabular_iff : n.shape = .tabular ↔ n.kind.isRelation = true
  schema_iff : (∃ schema, n.schema? = some schema) ↔ n.shape = .tabular
  columns : n.shape = .tabular → ∃ columns, n.type = .struct columns ∧ (columns.map (·.name)).Nodup
  /-- Among the inputs of a value, only the relation of a field is a table. -/
  values : n.kind.isRelation = false → ∀ m ∈ n.children, m.shape = .tabular → ∃ name, n.op = .field m name
  /-- Among the inputs of a relation, the parent is a table, and it is the only one. -/
  parent : n.kind.isRelation = true → n.kind ≠ .unboundTable →
    ∃ parent rest, n.children = parent :: rest ∧ parent.shape = .tabular ∧ ∀ m ∈ rest, m.shape ≠ .tabular
  simpleCase : ∀ base conditions results default, n.op = .simpleCase base conditions results default →
    conditions.length = results.length ∧ 0 < conditions.length
  searchedCase : ∀ conditions results default, n.op = .searchedCase conditions results default →
    conditions.length = results.length ∧ 0 < conditions.length

theorem isRelation_eq_true {n : Node} : n.isRelation = true ↔ n.shape = .tabular := by simp [isRelation]

/-- A relation that is no table has a parent. -/
private theorem exists_relation?_of_isRelation {n : Node} (h : n.kind.isRelation = true)
    (htable : n.kind ≠ .unboundTable) : ∃ parent, n.op.relation? = some parent := by
  obtain ⟨op, type, shape⟩ := n
  rw [kind, Op.isRelation_kind] at h
  cases op with
  | table name schema => exact absurd rfl htable
  | project parent | filter parent | aggregate parent | sort parent | limit parent => exact ⟨parent, rfl⟩
  | _ => cases h

/-- A value has a relation among its inputs only if it is a field. -/
theorem exists_field_of_relation? {n parent : Node} (h : n.kind.isRelation = false)
    (hparent : n.op.relation? = some parent) : ∃ name, n.op = .field parent name := by
  obtain ⟨op, type, shape⟩ := n
  rw [kind, Op.isRelation_kind] at h
  cases op with
  | field relation name =>
    obtain rfl : relation = parent := Option.some.inj hparent
    exact ⟨name, rfl⟩
  | project | filter | aggregate | sort | limit => cases h
  | _ => cases hparent

private theorem wellFormed_of_valid {n : Node} (h : n.Valid) : n.WellFormed where
  tabular_iff := by rw [← isRelation_eq_true, h.isRelation_eq]
  schema_iff := by
    rw [← isRelation_eq_true]
    constructor
    · rintro ⟨schema, hschema⟩
      exact isRelation_of_schema? hschema
    · intro hrelation
      obtain ⟨schema, hschema, -⟩ := h.exists_schema hrelation
      exact ⟨schema, hschema⟩
  columns := by
    rw [← isRelation_eq_true]
    intro hrelation
    obtain ⟨schema, hschema, hnodup⟩ := h.exists_schema hrelation
    exact ⟨schema, type_of_schema? hschema, hnodup⟩
  values := by
    intro hvalue m hm htabular
    rcases Op.mem_children.1 hm with hm | hm
    · exact exists_field_of_relation? hvalue hm
    · have hargument := h.inputs_isRelation.2 m hm
      simp [isRelation_eq_true.2 htabular] at hargument
  parent := by
    intro hrelation htable
    obtain ⟨parent, hparent⟩ := exists_relation?_of_isRelation hrelation htable
    obtain ⟨hrelations, harguments⟩ := h.inputs_isRelation
    refine ⟨parent, n.op.arguments, ?_, isRelation_eq_true.1 (hrelations parent hparent), fun m hm htabular => ?_⟩
    · rw [children, Op.children_eq, hparent]
      rfl
    · have hargument := harguments m hm
      simp [isRelation_eq_true.2 htabular] at hargument
  simpleCase := by
    intro base conditions results default hop
    have htype := h.hasType
    rw [hop] at htype
    obtain ⟨⟨hpos, hlength⟩, -⟩ := htype
    exact ⟨hlength, hpos⟩
  searchedCase := by
    intro conditions results default hop
    have htype := h.hasType
    rw [hop] at htype
    obtain ⟨⟨hpos, hlength⟩, -⟩ := htype
    exact ⟨hlength, hpos⟩

/-- In the tree of every node that can be obtained, by any sequence of calls, all nodes are well-formed. -/
theorem Obtained.wellFormed {n m : Node} (h : n.Obtained) (hm : n.Contains m) : m.WellFormed :=
  wellFormed_of_valid (h.valid.of_contains hm)

/-- The column `x` of `pairs` where it is less than three, and null elsewhere. -/
def lowOnly : Node :=
  let three : Node := ⟨.literal (.int 3) (.int .w8), .int .w8, .scalar⟩
  let low : Node := ⟨.binary .less (pairs.column "x") three, .boolean, .columnar⟩
  let null : Node := ⟨.cast ⟨.null .null, .null, .scalar⟩ (.int .w64), .int .w64, .scalar⟩
  ⟨.searchedCase [low] [pairs.column "x"] null, .int .w64, .columnar⟩

/-- The table is read from a document, and the case comes from a builder. -/
private theorem lowOnly_obtained : lowOnly.Obtained := by
  have hpairs : pairs.Obtained := @Obtained.document 9 .root pairs.toJson pairs rfl
  have hx : (pairs.column "x").Obtained := @Obtained.new (.field pairs "x") _ (List.forall_mem_singleton.2 hpairs) rfl
  have hthree : Obtained ⟨.literal (.int 3) (.int .w8), .int .w8, .scalar⟩ := @Obtained.integer 3 _ rfl
  have hlow : Obtained ⟨.binary .less (pairs.column "x") ⟨.literal (.int 3) (.int .w8), .int .w8, .scalar⟩, .boolean,
      .columnar⟩ :=
    @Obtained.new (.binary .less _ _) _ (by simpa [Op.children] using ⟨hx, hthree⟩) rfl
  exact .finish (.when .searched hlow hx rfl) rfl

/-- The case is obtained by calls, and the table inside of it is well-formed. -/
theorem Obtained.wellFormed_lowOnly : lowOnly.Obtained ∧ lowOnly.Contains pairs ∧ pairs.WellFormed := by
  have hx : pairs.column "x" ∈ lowOnly.children := by simp [lowOnly, children, Op.children]
  have hpairs : pairs ∈ (pairs.column "x").children := by simp [children, column, Op.children]
  have hcontains : lowOnly.Contains pairs := .head hx (.single hpairs)
  exact ⟨lowOnly_obtained, hcontains, lowOnly_obtained.wellFormed hcontains⟩

end Node

end SqlPlan
