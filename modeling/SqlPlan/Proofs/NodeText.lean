import SqlPlan.Node.Json
import SqlPlan.Proofs.Documents
import SqlPlan.Proofs.Nodes

/-!
# Reading back nodes

A node is read back from its own text. Reading makes every node anew from its operation, so this says at once that no
node that was written is refused and that none comes back with another type or shape.

* `Node.exists_fields?_reads`: an operation is read back from its members, given that its inputs are.
* `Node.ofNestedNode_toJson`: a node is read back from its document.
* `Node.ofText_canonical`: a node is read back from its text, and is then written in the same way again.
-/

namespace SqlPlan

namespace Node

/-! ### Documents of lists -/

/-- The document of one key. -/
def keyToJson (key : SortKey Node) : Json :=
  .object [("expr", key.expr.toJson), ("ascending", .bool key.ascending)]

/-- The document of one named value. -/
def namedValueToJson (named : Named Node) : Json :=
  .object [("name", .string named.name), ("value", named.value.toJson)]

@[simp] theorem listToJson_eq_map (nodes : List Node) : listToJson nodes = nodes.map toJson := by
  induction nodes with
  | nil => rfl
  | cons n nodes ih => rw [listToJson, ih, List.map_cons]

@[simp] theorem keysToJson_eq_map (keys : List (SortKey Node)) : keysToJson keys = keys.map keyToJson := by
  induction keys with
  | nil => rfl
  | cons key keys ih => rw [keysToJson, ih, List.map_cons]; rfl

@[simp] theorem namedToJson_eq_map (values : List (Named Node)) :
    namedToJson values = values.map namedValueToJson := by
  induction values with
  | nil => rfl
  | cons value values ih => rw [namedToJson, ih, List.map_cons]; rfl

@[simp] theorem optionToJson_eq_map (n : Option Node) : optionToJson n = n.map toJson := by
  cases n <;> rfl

@[simp] theorem numbersFit_keyToJson (key : SortKey Node) :
    (keyToJson key).NumbersFit ↔ key.expr.toJson.NumbersFit := by
  simp [keyToJson]

@[simp] theorem numbersFit_namedValueToJson (named : Named Node) :
    (namedValueToJson named).NumbersFit ↔ named.value.toJson.NumbersFit := by
  simp [namedValueToJson]

/-! ### Reading operations -/

section

variable {ε : Type} {read : Reader Json ε Node}

private theorem nodes_toJson {nodes : List Node} (h : ∀ n ∈ nodes, read n.toJson = .ok n) :
    Json.asList read (.array (nodes.map toJson)) = .ok nodes :=
  Reader.all_map h

private theorem keys_toJson {keys : List (SortKey Node)} (h : ∀ key ∈ keys, read key.expr.toJson = .ok key.expr) :
    Json.asList (Json.asStructure (sortKeyFields read)) (.array (keys.map keyToJson)) = .ok keys := by
  refine Reader.all_map fun ⟨expr, ascending⟩ hkey => Fields.Reads.run ?_
  exact .seq (.map _ (.field rfl (h _ hkey))) (.field rfl rfl)

private theorem named_toJson {values : List (Named Node)}
    (h : ∀ value ∈ values, read value.value.toJson = .ok value.value) :
    Json.asList (Json.asStructure (namedFields read)) (.array (values.map namedValueToJson)) = .ok values := by
  refine Reader.all_map fun ⟨name, value⟩ hvalue => Fields.Reads.run ?_
  exact .seq (.map _ (.field rfl rfl)) (.field rfl (h _ hvalue))

private theorem asOption_toJson {n : Node} (h : read n.toJson = .ok n) :
    Json.asOption read n.toJson = .ok (some n) := by
  obtain ⟨op, type, shape⟩ := n
  have hread : Json.asOption read (toJson ⟨op, type, shape⟩) = (read (toJson ⟨op, type, shape⟩)).map some := rfl
  rw [hread, h]
  rfl

private theorem condition_toJson (condition : Option Node) (h : ∀ n ∈ condition.toList, read n.toJson = .ok n) :
    ∀ n ∈ condition, Json.asOption read n.toJson = .ok (some n) :=
  fun n hn => asOption_toJson (h n (Option.mem_toList.2 hn))

/-- An operation is read back from its members, given that its inputs are. -/
theorem exists_fields?_reads {op : Op Node} (h : ∀ m ∈ op.children, read m.toJson = .ok m) :
    ∃ fields, Op.fields? read op.tag = some fields ∧ fields.Reads (members op) op := by
  -- members that are always written are found by `rfl`, and those behind a list or an option by `simp`
  cases op with
  | literal value type =>
    exact ⟨_, rfl, .seq (.map _ (.field rfl value.ofJson_toJson)) (.field rfl type.ofJson_toJson)⟩
  | null type => exact ⟨_, rfl, .map _ (.field rfl type.ofJson_toJson)⟩
  | field relation name =>
    have hrelation := h relation (by simp [Op.children])
    exact ⟨_, rfl, .seq (.map _ (.field rfl hrelation)) (.field rfl rfl)⟩
  | cast arg target =>
    have harg := h arg (by simp [Op.children])
    exact ⟨_, rfl, .seq (.map _ (.field rfl harg)) (.field rfl target.ofJson_toJson)⟩
  | binary op left right =>
    have hop : BinaryOp.ofName? op.name = some op := by cases op <;> rfl
    have hleft := h left (by simp [Op.children])
    have hright := h right (by simp [Op.children])
    exact ⟨_, rfl, .seq (.seq (.map _ (.field rfl (Json.asName_string hop))) (.field rfl hleft)) (.field rfl hright)⟩
  | unary op arg =>
    have hop : UnaryOp.ofName? op.name = some op := by cases op <;> rfl
    have harg := h arg (by simp [Op.children])
    exact ⟨_, rfl, .seq (.map _ (.field rfl (Json.asName_string hop))) (.field rfl harg)⟩
  | simpleCase base conditions results default =>
    have hbase := h base (by simp [Op.children])
    have hconditions : ∀ m ∈ conditions, read m.toJson = .ok m := fun m hm => h m (by simp [Op.children, hm])
    have hresults : ∀ m ∈ results, read m.toJson = .ok m := fun m hm => h m (by simp [Op.children, hm])
    have hdefault := h default (by simp [Op.children])
    exact ⟨_, rfl, .seq (.seq (.seq (.map _ (.field rfl hbase))
      (.field (by simp [members]) (nodes_toJson hconditions)))
      (.field (by simp [members]) (nodes_toJson hresults))) (.field rfl hdefault)⟩
  | searchedCase conditions results default =>
    have hconditions : ∀ m ∈ conditions, read m.toJson = .ok m := fun m hm => h m (by simp [Op.children, hm])
    have hresults : ∀ m ∈ results, read m.toJson = .ok m := fun m hm => h m (by simp [Op.children, hm])
    have hdefault := h default (by simp [Op.children])
    exact ⟨_, rfl, .seq (.seq (.map _ (.field (by simp [members]) (nodes_toJson hconditions)))
      (.field (by simp [members]) (nodes_toJson hresults))) (.field rfl hdefault)⟩
  | truncate clock arg unit =>
    have harg := h arg (by simp [Op.children])
    have hunit := TemporalUnit.ofJson_toJson (ε := ε) .relaxed unit
    cases clock <;> exact ⟨_, rfl, .seq (.map _ (.field rfl harg)) (.field rfl hunit)⟩
  | dateFromYmd year month day =>
    have hyear := h year (by simp [Op.children])
    have hmonth := h month (by simp [Op.children])
    have hday := h day (by simp [Op.children])
    exact ⟨_, rfl, .seq (.seq (.map _ (.field rfl hyear)) (.field rfl hmonth)) (.field rfl hday)⟩
  | generate source => cases source <;> exact ⟨_, rfl, .pure _⟩
  | interval arg unit =>
    have harg := h arg (by simp [Op.children])
    exact ⟨_, rfl, .seq (.map _ (.field rfl harg)) (.field rfl (TemporalUnit.ofJson_toJson .relaxed unit))⟩
  | reduce func arg condition =>
    have hfunc : Reduction.ofName? func.name = some func := by cases func <;> rfl
    have harg := h arg (by simp [Op.children])
    have hcondition := condition_toJson condition fun n hn => h n (by simp [Op.children, hn])
    exact ⟨_, rfl, .seq (.seq (.map _ (.field (by simp [members]) (Json.asName_string hfunc)))
      (.field (by simp [members]) harg)) (.ofOption (by simp [members]) hcondition)⟩
  | pick func arg condition order =>
    have hfunc : Pick.ofName? func.name = some func := by cases func <;> rfl
    have harg := h arg (by simp [Op.children])
    have hcondition := condition_toJson condition fun n hn => h n (by simp [Op.children, hn])
    have horder : ∀ key ∈ order, read key.expr.toJson = .ok key.expr :=
      fun key hkey => h key.expr
        (List.mem_cons_of_mem _ (List.mem_append_right _ (List.mem_map_of_mem hkey)))
    exact ⟨_, rfl, .seq (.seq (.seq (.map _ (.field (by simp [members]) (Json.asName_string hfunc)))
      (.field (by simp [members]) harg)) (.ofOption (by simp [members]) hcondition))
      (.ofList (by simp [members]) (keys_toJson horder))⟩
  | correlate left right mode condition =>
    have hmode : CorrelationMode.ofName? mode.name = some mode := by cases mode <;> rfl
    have hleft := h left (by simp [Op.children])
    have hright := h right (by simp [Op.children])
    have hcondition := condition_toJson condition fun n hn => h n (by simp [Op.children, hn])
    exact ⟨_, rfl, .seq (.seq (.seq (.map _ (.field (by simp [members]) hleft)) (.field (by simp [members]) hright))
      (.field (by simp [members]) (Json.asName_string hmode))) (.ofOption (by simp [members]) hcondition)⟩
  | table name schema =>
    exact ⟨_, rfl, .seq (.map _ (.field rfl rfl)) (.field rfl (Schema.ofJson_toJson .relaxed schema))⟩
  | project parent values =>
    have hparent := h parent (by simp [Op.children])
    have hvalues : ∀ value ∈ values, read value.value.toJson = .ok value.value :=
      fun value hvalue => h value.value (List.mem_cons_of_mem _ (List.mem_map_of_mem hvalue))
    exact ⟨_, rfl, .seq (.map _ (.field rfl hparent)) (.field (by simp [members]) (named_toJson hvalues))⟩
  | filter parent predicates =>
    have hparent := h parent (by simp [Op.children])
    have hpredicates : ∀ m ∈ predicates, read m.toJson = .ok m := fun m hm => h m (by simp [Op.children, hm])
    exact ⟨_, rfl, .seq (.map _ (.field rfl hparent)) (.field (by simp [members]) (nodes_toJson hpredicates))⟩
  | aggregate parent groups metrics =>
    have hparent := h parent (by simp [Op.children])
    have hvalues : ∀ value ∈ groups ++ metrics, read value.value.toJson = .ok value.value :=
      fun value hvalue => h value.value (List.mem_cons_of_mem _ (List.mem_map_of_mem hvalue))
    have hgroups := named_toJson fun value hvalue => hvalues value (List.mem_append_left _ hvalue)
    have hmetrics := named_toJson fun value hvalue => hvalues value (List.mem_append_right _ hvalue)
    exact ⟨_, rfl, .seq (.seq (.map _ (.field (by simp [members]) hparent)) (.ofList (by simp [members]) hgroups))
      (.field (by simp [members]) hmetrics)⟩
  | sort parent keys =>
    have hparent := h parent (by simp [Op.children])
    have hkeys : ∀ key ∈ keys, read key.expr.toJson = .ok key.expr :=
      fun key hkey => h key.expr (List.mem_cons_of_mem _ (List.mem_map_of_mem hkey))
    exact ⟨_, rfl, .seq (.map _ (.field rfl hparent)) (.field (by simp [members]) (keys_toJson hkeys))⟩
  | limit parent count offset =>
    have hparent := h parent (by simp [Op.children])
    have hcount : ∀ n ∈ count, Json.asOption Json.asUInt64 (.int n.toNat) = (.ok (some n) : Except (ReadError ε) _) :=
      fun n _ => congrArg (Except.map some) (Json.asUInt64_int n)
    exact ⟨_, rfl, .seq (.seq (.map _ (.field (by simp [members]) hparent)) (.ofOption (by simp [members]) hcount))
      (.field (by simp [members]) (Json.asUInt64_int offset))⟩

end

/-! ### Reading nodes -/

private theorem given_kind_members (op : Op Node) : Fields.given "kind" (members op) = [] := by
  cases op <;> simp [members]

/-- The tag of a node is told from its fields. -/
private theorem asTagged_toJson {ε : Type} (level : Level) (n : Node) :
    asTagged level n.toJson = (.ok (n.op.tag, .named (members n.op)) : Except (ReadError ε) _) := by
  obtain ⟨op, type, shape⟩ := n
  have hother := Fields.given_eq_nil_iff.1 (given_kind_members op)
  have htag : (members op).filter (·.1 == "kind") = [] := by simpa using hother
  have hfields : (members op).filter (·.1 != "kind") = members op := by simpa using hother
  rw [toJson, asTagged]
  simp [htag, hfields, asTag]

private theorem depth_keys_le {keys : List (SortKey Node)} {bound : Nat}
    (h : keys.map keyToJson ≠ [] → (Json.array (keys.map keyToJson)).depth ≤ bound) :
    ∀ key ∈ keys, key.expr.toJson.depth ≤ bound := by
  intro key hkey
  have hle := Json.depth_map_le h key hkey
  simp only [keyToJson, Json.depth, Json.depthMembers] at hle
  omega

private theorem depth_named_le {values : List (Named Node)} {bound : Nat}
    (h : values.map namedValueToJson ≠ [] → (Json.array (values.map namedValueToJson)).depth ≤ bound) :
    ∀ named ∈ values, named.value.toJson.depth ≤ bound := by
  intro named hnamed
  have hle := Json.depth_map_le h named hnamed
  simp only [namedValueToJson, Json.depth, Json.depthMembers] at hle
  omega

private theorem depth_children_le {op : Op Node} {bound : Nat} (h : ∀ member ∈ members op, member.2.depth ≤ bound) :
    ∀ m ∈ op.children, m.toJson.depth ≤ bound := by
  cases op <;> simp only [members, List.forall_mem_cons, List.forall_mem_append, Json.forall_mem_ifPresent,
    Json.forall_mem_unlessEmpty, listToJson_eq_map, keysToJson_eq_map, namedToJson_eq_map] at h
  case simpleCase base conditions results default =>
    obtain ⟨hbase, hconditions, hresults, hdefault, -⟩ := h
    have hconditions := Json.depth_map_le fun _ => hconditions
    have hresults := Json.depth_map_le fun _ => hresults
    simpa [Op.children, or_imp, forall_and] using ⟨hbase, hconditions, hresults, hdefault⟩
  case searchedCase conditions results default =>
    obtain ⟨hconditions, hresults, hdefault, -⟩ := h
    have hconditions := Json.depth_map_le fun _ => hconditions
    have hresults := Json.depth_map_le fun _ => hresults
    simpa [Op.children, or_imp, forall_and] using ⟨hconditions, hresults, hdefault⟩
  case pick func arg condition order =>
    obtain ⟨-, harg, hcondition, horder⟩ := h
    have hkeys := depth_keys_le horder
    simp_all [Op.children, or_imp]
  case project parent values =>
    obtain ⟨hparent, hvalues, -⟩ := h
    simpa [Op.children] using ⟨hparent, depth_named_le fun _ => hvalues⟩
  case filter parent predicates =>
    obtain ⟨hparent, hpredicates, -⟩ := h
    simpa [Op.children] using ⟨hparent, Json.depth_map_le fun _ => hpredicates⟩
  case aggregate parent groups metrics =>
    obtain ⟨hparent, hgroups, hmetrics, -⟩ := h
    simpa [Op.children, or_imp, forall_and] using
      ⟨hparent, depth_named_le hgroups, depth_named_le fun _ => hmetrics⟩
  case sort parent keys =>
    obtain ⟨hparent, hkeys, -⟩ := h
    simpa [Op.children] using ⟨hparent, depth_keys_le fun _ => hkeys⟩
  all_goals simp_all [Op.children]

/-- The document of an input is part of the document of the node. -/
private theorem depth_lt_of_mem_children {n m : Node} (h : m ∈ n.children) : m.toJson.depth < n.toJson.depth := by
  obtain ⟨op, type, shape⟩ := n
  have hmembers := Json.depthMembers_le_iff.1 (Nat.le_refl (Json.depthMembers (members op)))
  have hle := depth_children_le hmembers m h
  simp only [toJson, Json.depth, Json.depthMembers]
  omega

private theorem numbersFit_members {op : Op Node} (h : ∀ m ∈ op.children, m.toJson.NumbersFit) :
    ∀ member ∈ members op, member.2.NumbersFit := by
  cases op <;> simp only [members, List.forall_mem_cons, List.forall_mem_append, Json.forall_mem_ifPresent,
    Json.forall_mem_unlessEmpty]
  case literal value type => simp [value.numbersFit_toJson, type.numbersFit_toJson]
  case null type => simp [type.numbersFit_toJson]
  case cast arg target => simpa [target.numbersFit_toJson, Op.children] using h
  case truncate clock arg unit => simpa [TemporalUnit.toJson, Op.children] using h
  case interval arg unit => simpa [TemporalUnit.toJson, Op.children] using h
  case table name schema => simp [Schema.numbersFit_toJson]
  case limit parent count offset =>
    have hword : ∀ n : UInt64, Json.NumbersFit (.int n.toNat) := fun n => Json.numbersFit_natCast n.toNat_lt
    refine ⟨h parent (by simp [Op.children]), fun doc hdoc => ?_, hword offset, by simp⟩
    obtain ⟨n, -, rfl⟩ := Option.map_eq_some_iff.1 hdoc
    exact hword n
  all_goals simp_all [Op.children, or_imp, forall_and]

private theorem numbersFit_toJson (n : Node) : n.toJson.NumbersFit := by
  induction n using Node.induction with
  | step n ih =>
    obtain ⟨op, type, shape⟩ := n
    rw [toJson]
    simpa using numbersFit_members ih

/-- A node is read back from its document. -/
theorem ofNestedNode_toJson {n : Node} (hn : n.Valid) {bound : Nat} (hbound : n.toJson.depth < bound)
    (level : Level) : ofNestedNode bound level n.toJson = .ok n := by
  induction n using Node.induction generalizing bound level with
  | step n ih =>
    obtain ⟨bound, rfl⟩ : ∃ k, bound = k + 1 := ⟨bound - 1, by omega⟩
    have hinputs : ∀ m ∈ n.op.children, ofNestedNode bound .inner m.toJson = .ok m := by
      intro m hm
      have := depth_lt_of_mem_children hm
      exact ih m hm (hn.inputs m hm) (by omega) .inner
    obtain ⟨fields, hfields, hreads⟩ := exists_fields?_reads hinputs
    have hread : ofNestedNode (bound + 1) level n.toJson = (new? n.op).mapError .invalid := by
      simp only [ofNestedNode, asTagged_toJson, bind, Except.bind, hfields, hreads.run]
    rw [hread, hn.made]
    rfl

/-- A valid node is read back from its document. -/
theorem ofJson_toJson {n : Node} (hn : n.Valid) : ofJson n.toJson = .ok n :=
  ofNestedNode_toJson hn (Nat.lt_succ_self _) .root

/-- A node that is nested at most 127 deep, and whose finite floats are read back from their texts, is read back from
its own text. What is read has the same text and the same digest. -/
theorem ofText_canonical {n : Node} (hn : n.Valid) (hdepth : n.toJson.depth ≤ Json.maxDepth)
    (hfloats : ∀ x, x.isNaN = false → x.isInf = false → .float x ∈ n.toJson.numbers → Json.ReadsBack (.float x)) :
    ofText n.canonical = .ok n ∧
      (ofText n.canonical).map (fun m => (m.canonical, m.fingerprint)) = .ok (n.canonical, n.fingerprint) := by
  have hread := Json.read?_compact (Json.readsBack_of_numbersFit n.numbersFit_toJson hfloats) hdepth
  have htext : ofText n.canonical = .ok n := by
    simp only [ofText, canonical, hread, ofJson_toJson hn, bind, Except.bind]
    rfl
  rw [htext]
  exact ⟨rfl, rfl⟩

/-- The rows of `pairs` in which `x` is less than a float. -/
def lowPairs : Node :=
  let bound : Node := ⟨.literal (.float 1.5) .float64, .float64, .scalar⟩
  ⟨.filter pairs [⟨.binary .less (pairs.column "x") bound, .boolean, .columnar⟩], pairs.type, .tabular⟩

private theorem lowPairs_valid : lowPairs.Valid := by
  have hbound : Valid ⟨.literal (.float 1.5) .float64, .float64, .scalar⟩ := ⟨by simp [children, Op.children], rfl⟩
  have hless : Valid ⟨.binary .less (pairs.column "x") ⟨.literal (.float 1.5) .float64, .float64, .scalar⟩, .boolean,
      .columnar⟩ := ⟨by simp [children, Op.children, column_valid, hbound], rfl⟩
  exact ⟨by simp [children, lowPairs, Op.children, pairs_valid, hless], rfl⟩

/-- The low pairs are read back from their canonical text, with the same text and the same fingerprint. -/
theorem ofText_canonical_lowPairs :
    lowPairs.Valid ∧ lowPairs.toJson.depth = 8 ∧ lowPairs.toJson.numbers = [.float 1.5] ∧
      ofText lowPairs.canonical = .ok lowPairs ∧
      (ofText lowPairs.canonical).map (fun m => (m.canonical, m.fingerprint)) =
        .ok (lowPairs.canonical, lowPairs.fingerprint) := by
  have hdepth : lowPairs.toJson.depth = 8 := rfl
  have hnumbers : lowPairs.toJson.numbers = [.float 1.5] := rfl
  refine ⟨lowPairs_valid, hdepth, hnumbers, ofText_canonical lowPairs_valid ?_ fun x _ _ hx => ?_⟩
  · rw [hdepth]
    decide
  · rw [hnumbers, List.mem_singleton] at hx
    rw [hx]
    rfl

end Node

end SqlPlan
