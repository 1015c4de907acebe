import SqlPlan.Proofs.Documents
import SqlPlan.Proofs.Trees
import SqlPlan.Sql.Json

/-!
# Reading back SQL statements

Every expression and every statement is read back from its document, whether or not a compiler makes it. A clause that
a statement does not have is left out of its document, and a clause that is left out is read as one that is not there;
the operand and the default of a case are written as null instead, which is read in the same way.

* `exists_exprAlternative`, `select_toJson`: one expression or statement is read back, given that its parts are.
* `ofNested_toJson`: expressions and statements are read back from their documents.
* `numbersReadBack_toJson`: the numbers in these documents are read back from their texts.
* `mem_keys_callToJson`, `Select.mem_keys_toJson`: the clauses that are left out.
-/

namespace SqlPlan

namespace Json

/-- The names of the members of an object. -/
def keys : Json → List String
  | .object members => members.map (·.1)
  | _ => []

private theorem mem_keys_ifPresent {key name : String} {doc : Option Json} :
    name ∈ (ifPresent key doc).map (·.1) ↔ name = key ∧ doc ≠ none := by
  cases doc <;> simp [ifPresent]

private theorem mem_keys_unlessEmpty {key name : String} {docs : List Json} :
    name ∈ (unlessEmpty key docs).map (·.1) ↔ name = key ∧ docs ≠ [] := by
  cases docs <;> simp [unlessEmpty]

/-- All numbers in a document are read back from their texts. -/
def NumbersReadBack (doc : Json) : Prop := ∀ number ∈ doc.numbers, number.ReadsBack

@[simp] theorem numbersReadBack_bool (b : Bool) : NumbersReadBack (.bool b) := by simp [NumbersReadBack, numbers]

@[simp] theorem numbersReadBack_string (text : String) : NumbersReadBack (.string text) := by
  simp [NumbersReadBack, numbers]

@[simp] theorem numbersReadBack_int64 (n : Int64) : NumbersReadBack (.int n.toInt) := by
  have hlow := n.le_toInt
  have hhigh := n.toInt_lt
  simpa [NumbersReadBack, numbers] using readsBack_int (by omega) (by omega)

@[simp] theorem numbersReadBack_uint64 (n : UInt64) : NumbersReadBack (.int n.toNat) := by
  have hhigh := n.toNat_lt
  simpa [NumbersReadBack, numbers] using readsBack_int (by omega) (by omega)

@[simp] theorem numbersReadBack_array {items : List Json} :
    NumbersReadBack (.array items) ↔ ∀ item ∈ items, item.NumbersReadBack :=
  forall_mem_numbers_array

@[simp] theorem numbersReadBack_object {members : List (String × Json)} :
    NumbersReadBack (.object members) ↔ ∀ member ∈ members, member.2.NumbersReadBack :=
  forall_mem_numbers_object

private theorem numbersReadBack_orNull {doc : Option Json} (h : ∀ d ∈ doc, d.NumbersReadBack) :
    (orNull doc).NumbersReadBack := by
  cases doc with
  | none => simp [orNull, NumbersReadBack, numbers]
  | some d => exact h d rfl

end Json

namespace Sql

/-! ### Documents of lists and clauses -/

/-- The document of one branch. -/
def branchToJson (branch : Branch Expr) : Json :=
  .object [("when", branch.condition.toJson), ("then", branch.result.toJson)]

/-- The document of one key. -/
def keyToJson (key : SortKey Expr) : Json :=
  .object [("expr", key.expr.toJson), ("ascending", .bool key.ascending)]

/-- The document of one item. -/
def itemToJson (item : Item Expr) : Json :=
  .object (("expr", item.expr.toJson) :: Json.ifPresent "alias" (item.label.map .string))

/-- The members of the document of a call. -/
def callMembers (function : Call Expr) : List (String × Json) :=
  ("name", .string function.name) :: ("args", .array (function.args.map Expr.toJson)) ::
    (Json.unlessEmpty "order_by" (function.order.map keyToJson) ++
      Json.unlessEmpty "within_group" (function.within.map keyToJson) ++
      Json.ifPresent "filter" (function.filter.map Expr.toJson))

/-- The members of the document of a statement. -/
def selectMembers (s : Select) : List (String × Json) :=
  ("projection", .array (s.projection.map itemToJson)) :: ("from", s.source.toJson) ::
    (Json.ifPresent "selection" (s.selection.map Expr.toJson) ++
      Json.unlessEmpty "group_by" (s.groups.map Expr.toJson) ++ Json.unlessEmpty "order_by" (s.order.map keyToJson) ++
      Json.ifPresent "limit" (s.limit.map fun n => .int n.toNat) ++
      Json.ifPresent "offset" (s.offset.map fun n => .int n.toNat))

@[simp] theorem exprsToJson_eq_map (es : List Expr) : exprsToJson es = es.map Expr.toJson := by
  induction es with
  | nil => rfl
  | cons e es ih => rw [exprsToJson, ih, List.map_cons]

@[simp] theorem branchesToJson_eq_map (branches : List (Branch Expr)) :
    branchesToJson branches = branches.map branchToJson := by
  induction branches with
  | nil => rfl
  | cons branch branches ih => rw [branchesToJson, ih, List.map_cons]; rfl

@[simp] theorem keysToJson_eq_map (keys : List (SortKey Expr)) : keysToJson keys = keys.map keyToJson := by
  induction keys with
  | nil => rfl
  | cons key keys ih => rw [keysToJson, ih, List.map_cons]; rfl

@[simp] theorem itemsToJson_eq_map (items : List (Item Expr)) : itemsToJson items = items.map itemToJson := by
  induction items with
  | nil => rfl
  | cons item items ih => rw [itemsToJson, ih, List.map_cons]; rfl

@[simp] theorem optionToJson_eq_map (e : Option Expr) : optionToJson e = e.map Expr.toJson := by
  cases e <;> rfl

@[simp] theorem numberToJson_eq_map (n : Option UInt64) : numberToJson n = n.map fun n => .int n.toNat := by
  cases n <;> rfl

private theorem callToJson_eq (function : Call Expr) : callToJson function = .object (callMembers function) := by
  cases function
  simp [callToJson, callMembers]

private theorem Select.toJson_eq (s : Select) : s.toJson = .object (selectMembers s) := by
  cases s
  simp [toJson, selectMembers]

section

variable {P : Json → Prop}

private theorem forall_mem_callMembers {function : Call Expr} :
    (∀ member ∈ callMembers function, P member.2) ↔
      P (.string function.name) ∧ P (.array (function.args.map Expr.toJson)) ∧
        ((function.order.map keyToJson ≠ [] → P (.array (function.order.map keyToJson))) ∧
          (function.within.map keyToJson ≠ [] → P (.array (function.within.map keyToJson)))) ∧
        ∀ k ∈ function.filter, P k.toJson := by
  simp only [callMembers, List.forall_mem_cons, List.forall_mem_append, Json.forall_mem_ifPresent,
    Json.forall_mem_unlessEmpty, Option.forall_mem_map]

private theorem forall_mem_selectMembers {s : Select} :
    (∀ member ∈ selectMembers s, P member.2) ↔
      P (.array (s.projection.map itemToJson)) ∧ P s.source.toJson ∧
        ((((∀ k ∈ s.selection, P k.toJson) ∧
          (s.groups.map Expr.toJson ≠ [] → P (.array (s.groups.map Expr.toJson)))) ∧
          (s.order.map keyToJson ≠ [] → P (.array (s.order.map keyToJson)))) ∧
          ∀ n ∈ s.limit, P (.int n.toNat)) ∧ ∀ n ∈ s.offset, P (.int n.toNat) := by
  simp only [selectMembers, List.forall_mem_cons, List.forall_mem_append, Json.forall_mem_ifPresent,
    Json.forall_mem_unlessEmpty, Option.forall_mem_map]

end

/-! ### Reading what is inside -/

section

variable {ε : Type} {read : Reader Json ε Expr} {query : Reader Json ε Select}

private theorem exprs_toJson {es : List Expr} (h : ∀ e ∈ es, read e.toJson = .ok e) :
    Json.asList read (.array (es.map Expr.toJson)) = .ok es :=
  Reader.all_map h

/-- The keys of an order are read back if their expressions are. -/
theorem keys_toJson {keys : List (SortKey Expr)} (h : ∀ key ∈ keys, read key.expr.toJson = .ok key.expr) :
    asKeys read (.array (keys.map keyToJson)) = .ok keys := by
  refine Reader.all_map fun ⟨expr, ascending⟩ hkey => Fields.Reads.run ?_
  exact .seq (.map _ (.field rfl (h _ hkey))) (.field rfl rfl)

private theorem branches_toJson {branches : List (Branch Expr)}
    (h : ∀ b ∈ branches, read b.condition.toJson = .ok b.condition ∧ read b.result.toJson = .ok b.result) :
    Json.asList (Json.asStructure (branchFields read)) (.array (branches.map branchToJson)) = .ok branches := by
  refine Reader.all_map fun ⟨condition, result⟩ hbranch => Fields.Reads.run ?_
  obtain ⟨hcondition, hresult⟩ := h _ hbranch
  exact .seq (.map _ (.field rfl hcondition)) (.field rfl hresult)

private theorem items_toJson {items : List (Item Expr)} (h : ∀ item ∈ items, read item.expr.toJson = .ok item.expr) :
    Json.asList (Json.asStructure (itemFields read)) (.array (items.map itemToJson)) = .ok items := by
  refine Reader.all_map fun ⟨expr, label⟩ hitem => Fields.Reads.run ?_
  have hlabel : ∀ name ∈ label,
      Json.asOption Json.asString (.string name) = (.ok (some name) : Except (ReadError ε) _) := fun _ _ => rfl
  exact .seq (.map _ (.field (by simp) (h _ hitem))) (.ofOption (by simp) hlabel)

/-- The document of an expression is never null, so it does not stand for nothing. -/
private theorem asOption_toJson {e : Expr} (h : read e.toJson = .ok e) :
    Json.asOption read e.toJson = .ok (some e) := by
  have hread : Json.asOption read e.toJson = (read e.toJson).map some := by cases e <;> rfl
  rw [hread, h]
  rfl

private theorem orNull_toJson {e : Option Expr} (h : ∀ k ∈ e, read k.toJson = .ok k) :
    Json.asOption read (Json.orNull (e.map Expr.toJson)) = .ok e := by
  cases e with
  | none => rfl
  | some e => exact asOption_toJson (h e rfl)

private theorem number_toJson (n : Option UInt64) :
    ∀ m ∈ n, Json.asOption Json.asUInt64 (.int m.toNat) = (.ok (some m) : Except (ReadError ε) _) :=
  fun m _ => congrArg (Except.map some) (Json.asUInt64_int m)

/-- A call is read back, given that its operands are. -/
private theorem call_toJson {function : Call Expr} (h : ∀ k ∈ function.operands, read k.toJson = .ok k) :
    Json.asStructure (callFields read) (callToJson function) = .ok function := by
  rw [callToJson_eq]
  obtain ⟨hargs, horder, hwithin, hfilter⟩ := Call.forall_mem_operands.1 h
  have hname : Json.asString (.string function.name) = (.ok function.name : Except (ReadError ε) String) := rfl
  refine Fields.Reads.run ?_
  exact .seq (.seq (.seq (.seq (.map _ (.field (by simp [callMembers]) hname))
    (.field (by simp [callMembers]) (exprs_toJson hargs))) (.ofList (by simp [callMembers]) (keys_toJson horder)))
    (.ofList (by simp [callMembers]) (keys_toJson hwithin)))
    (.ofOption (by simp [callMembers]) fun k hk => asOption_toJson (hfilter k hk))

private theorem source_toJson {source : Source} (h : ∀ q label, source = .subquery q label → query q.toJson = .ok q) :
    asSource query source.toJson = .ok source := by
  cases source with
  | table name => rfl
  | subquery q label =>
    refine Fields.Reads.run (a := Source.subquery q label) ?_
    exact .seq (.map _ (.field rfl (h q label rfl))) (.field rfl rfl)

/-- A statement is read back, given that the expressions in it and the statement that it reads from are. -/
theorem select_toJson {s : Select} (hexprs : ∀ e ∈ s.exprs, read e.toJson = .ok e)
    (hsource : ∀ q label, s.source = .subquery q label → query q.toJson = .ok q) :
    Json.asStructure (selectFields read query) s.toJson = .ok s := by
  rw [Select.toJson_eq]
  obtain ⟨hprojection, hselection, hgroups, horder⟩ := Select.forall_mem_exprs.1 hexprs
  obtain ⟨projection, source, selection, groups, order, limit, offset⟩ := s
  refine Fields.Reads.run ?_
  exact .seq (.seq (.seq (.seq (.seq (.seq (.map _ (.field (by simp [selectMembers]) (items_toJson hprojection)))
    (.field (by simp [selectMembers]) (source_toJson hsource)))
    (.ofOption (by simp [selectMembers]) fun k hk => asOption_toJson (hselection k hk)))
    (.ofList (by simp [selectMembers]) (exprs_toJson hgroups)))
    (.ofList (by simp [selectMembers]) (keys_toJson horder)))
    (.ofOption (by simp [selectMembers]) (number_toJson limit)))
    (.ofOption (by simp [selectMembers]) (number_toJson offset))

/-- An expression is read back by the name of its alternative, given that its operands, or the statement that it
holds, are. -/
theorem exists_exprAlternative {e : Expr} (hoperands : ∀ k ∈ e.operands, read k.toJson = .ok k)
    (hsingle : ∀ q, e = .subquery q → query q.toJson = .ok q) :
    ∃ name contents, Json.asChoice e.toJson = (.ok (name, contents) : Except (ReadError ε) _) ∧
      exprAlternative read query name contents = .ok e := by
  cases e with
  | star | column | literal | keyword => exact ⟨_, _, rfl, rfl⟩
  | cast expr target =>
    have hexpr := hoperands expr (by simp [Expr.operands])
    refine ⟨_, _, rfl, Fields.Reads.run (a := Expr.cast expr target) ?_⟩
    exact .seq (.map _ (.field rfl hexpr)) (.field rfl rfl)
  | binary left op right =>
    have hleft := hoperands left (by simp [Expr.operands])
    have hright := hoperands right (by simp [Expr.operands])
    refine ⟨_, _, rfl, Fields.Reads.run (a := Expr.binary left op right) ?_⟩
    exact .seq (.seq (.map _ (.field rfl hleft)) (.field rfl rfl)) (.field rfl hright)
  | not expr =>
    have hexpr := hoperands expr (by simp [Expr.operands])
    exact ⟨_, _, rfl, congrArg (Except.map Expr.not) hexpr⟩
  | negate expr =>
    have hexpr := hoperands expr (by simp [Expr.operands])
    exact ⟨_, _, rfl, congrArg (Except.map Expr.negate) hexpr⟩
  | isNull expr negated =>
    have hexpr := hoperands expr (by simp [Expr.operands])
    refine ⟨_, _, rfl, Fields.Reads.run (a := Expr.isNull expr negated) ?_⟩
    exact .seq (.map _ (.field rfl hexpr)) (.field rfl rfl)
  | call function => exact ⟨_, _, rfl, congrArg (Except.map Expr.call) (call_toJson hoperands)⟩
  | case operand branches default =>
    obtain ⟨hoperand, hbranches, hdefault⟩ := Expr.forall_mem_operands_case.1 hoperands
    refine ⟨_, _, rfl, Fields.Reads.run (a := Expr.case operand branches default) ?_⟩
    exact .seq (.seq (.map _ (.field (by simp) (orNull_toJson hoperand)))
      (.field (by simp) (branches_toJson hbranches))) (.field (by simp) (orNull_toJson hdefault))
  | interval value unit =>
    have hvalue := hoperands value (by simp [Expr.operands])
    refine ⟨_, _, rfl, Fields.Reads.run (a := Expr.interval value unit) ?_⟩
    exact .seq (.map _ (.field rfl hvalue)) (.field rfl rfl)
  | subscript expr index =>
    have hexpr := hoperands expr (by simp [Expr.operands])
    refine ⟨_, _, rfl, Fields.Reads.run (a := Expr.subscript expr index) ?_⟩
    exact .seq (.map _ (.field rfl hexpr)) (.field rfl (Json.asInt64_int index))
  | subquery q => exact ⟨_, _, rfl, congrArg (Except.map Expr.subquery) (hsingle q rfl)⟩

end

/-! ### Nesting -/

section

variable {bound : Nat}

private theorem depth_keys_le {keys : List (SortKey Expr)}
    (h : keys.map keyToJson ≠ [] → (Json.array (keys.map keyToJson)).depth ≤ bound) :
    ∀ key ∈ keys, key.expr.toJson.depth ≤ bound := by
  intro key hkey
  have hle := Json.depth_map_le h key hkey
  simp only [keyToJson, Json.depth, Json.depthMembers] at hle
  omega

private theorem depth_branches_le {branches : List (Branch Expr)}
    (h : (Json.array (branches.map branchToJson)).depth ≤ bound) :
    ∀ b ∈ branches, b.condition.toJson.depth ≤ bound ∧ b.result.toJson.depth ≤ bound := by
  intro b hb
  have hle := Json.depth_map_le (fun _ => h) b hb
  simp only [branchToJson, Json.depth, Json.depthMembers] at hle
  omega

private theorem depth_items_le {items : List (Item Expr)} (h : (Json.array (items.map itemToJson)).depth ≤ bound) :
    ∀ item ∈ items, item.expr.toJson.depth ≤ bound := by
  intro item hitem
  have hle := Json.depth_map_le (fun _ => h) item hitem
  simp only [itemToJson, Json.depth, Json.depthMembers] at hle
  omega

private theorem depth_orNull_le {e : Option Expr} (h : (Json.orNull (e.map Expr.toJson)).depth ≤ bound) :
    ∀ k ∈ e, k.toJson.depth ≤ bound := by
  rintro k rfl
  exact h

private theorem depth_call_le {function : Call Expr} (h : (callToJson function).depth ≤ bound + 1) :
    ∀ k ∈ function.operands, k.toJson.depth ≤ bound := by
  rw [callToJson_eq, Json.depth, Nat.add_le_add_iff_right, Json.depthMembers_le_iff] at h
  obtain ⟨-, hargs, ⟨horder, hwithin⟩, hfilter⟩ := (forall_mem_callMembers (P := (·.depth ≤ bound))).1 h
  exact Call.forall_mem_operands.2
    ⟨Json.depth_map_le fun _ => hargs, depth_keys_le horder, depth_keys_le hwithin, hfilter⟩

private theorem depth_operands_le {e : Expr} (h : e.toJson.depth ≤ bound + 1) :
    ∀ k ∈ e.operands, k.toJson.depth ≤ bound := by
  cases e with
  | star | column | literal | keyword | subquery => simp [Expr.operands]
  | cast | not | negate | isNull | interval | subscript | binary =>
    simp only [Expr.toJson, Json.depth, Json.depthMembers] at h
    simp only [Expr.operands, List.forall_mem_cons, List.not_mem_nil, IsEmpty.forall_iff, implies_true, and_true]
    omega
  | call function =>
    simp only [Expr.toJson, Json.depth, Json.depthMembers] at h
    exact depth_call_le (by omega)
  | case operand branches default =>
    simp only [Expr.toJson, Json.depth, Json.depthMembers, branchesToJson_eq_map, optionToJson_eq_map] at h
    rw [Expr.forall_mem_operands_case]
    refine ⟨depth_orNull_le (by omega), depth_branches_le ?_, depth_orNull_le (by omega)⟩
    rw [Json.depth]
    omega

private theorem depth_select_le {s : Select} (h : s.toJson.depth ≤ bound + 1) :
    (∀ e ∈ s.exprs, e.toJson.depth ≤ bound) ∧ s.source.toJson.depth ≤ bound := by
  rw [Select.toJson_eq, Json.depth, Nat.add_le_add_iff_right, Json.depthMembers_le_iff] at h
  obtain ⟨hprojection, hsource, ⟨⟨⟨hselection, hgroups⟩, horder⟩, -⟩, -⟩ :=
    (forall_mem_selectMembers (P := (·.depth ≤ bound))).1 h
  exact ⟨Select.forall_mem_exprs.2
    ⟨depth_items_le hprojection, hselection, Json.depth_map_le hgroups, depth_keys_le horder⟩, hsource⟩

end

/-- The documents of the operands are parts of the document of an expression. -/
private theorem depth_lt_of_mem_operands {e k : Expr} (h : k ∈ e.operands) : k.toJson.depth < e.toJson.depth := by
  have hpos : 0 < e.toJson.depth := by
    -- only the document of a star is not an object, and a star has no operands
    cases e with
    | star => simp [Expr.operands] at h
    | _ => exact Nat.succ_pos _
  obtain ⟨bound, hbound⟩ := Nat.exists_eq_add_one.2 hpos
  have hle := depth_operands_le (Nat.le_of_eq hbound) k h
  omega

/-- The documents of the expressions in a statement and of its source are parts of its document. -/
private theorem depth_lt_of_select (s : Select) :
    (∀ e ∈ s.exprs, e.toJson.depth < s.toJson.depth) ∧ s.source.toJson.depth < s.toJson.depth := by
  have hpos : 0 < s.toJson.depth := by
    rw [Select.toJson_eq]
    exact Nat.succ_pos _
  obtain ⟨bound, hbound⟩ := Nat.exists_eq_add_one.2 hpos
  obtain ⟨hexprs, hsource⟩ := depth_select_le (Nat.le_of_eq hbound)
  rw [hbound]
  exact ⟨fun e he => Nat.lt_succ_of_le (hexprs e he), Nat.lt_succ_of_le hsource⟩

/-! ### Reading back -/

section

variable {ε : Type}

/-- Expressions and statements are read back from their documents. -/
theorem ofNested_toJson :
    (∀ (e : Expr) (bound : Nat), e.toJson.depth < bound →
      exprOfNested bound e.toJson = (.ok e : Except (ReadError ε) Expr)) ∧
    ∀ (s : Select) (bound : Nat), s.toJson.depth < bound →
      selectOfNested bound s.toJson = (.ok s : Except (ReadError ε) Select) := by
  -- a reader for one level less is enough for the parts, since their documents are not nested as deeply
  refine tree_induction (fun e hoperands hsingle bound hbound => ?_) fun s hexprs hsource bound hbound => ?_
  · obtain ⟨bound, rfl⟩ : ∃ k, bound = k + 1 := ⟨bound - 1, by omega⟩
    have hread : ∀ k ∈ e.operands, exprOfNested bound k.toJson = (.ok k : Except (ReadError ε) Expr) := by
      intro k hk
      have hlt := depth_lt_of_mem_operands hk
      exact hoperands k hk bound (by omega)
    have hquery : ∀ q, e = .subquery q → selectOfNested bound q.toJson = (.ok q : Except (ReadError ε) Select) := by
      rintro q rfl
      simp only [Expr.toJson, Json.depth, Json.depthMembers] at hbound
      exact hsingle q rfl bound (by omega)
    obtain ⟨name, contents, hchoice, halternative⟩ := exists_exprAlternative hread hquery
    simp only [exprOfNested, hchoice, bind, Except.bind, halternative]
  · obtain ⟨bound, rfl⟩ : ∃ k, bound = k + 1 := ⟨bound - 1, by omega⟩
    obtain ⟨hexprsDepth, hsourceDepth⟩ := depth_lt_of_select s
    refine select_toJson (fun e he => ?_) fun q label hq => ?_
    · have hlt := hexprsDepth e he
      exact hexprs e he bound (by omega)
    · rw [hq] at hsourceDepth
      simp only [Source.toJson, Json.depth, Json.depthMembers] at hsourceDepth
      exact hsource q label hq bound (by omega)

private theorem Expr.ofJson_toJson (e : Expr) : Expr.ofJson e.toJson = (.ok e : Except (ReadError ε) Expr) :=
  ofNested_toJson.1 e _ (Nat.lt_succ_self _)

private theorem Select.ofJson_toJson (s : Select) : Select.ofJson s.toJson = (.ok s : Except (ReadError ε) Select) :=
  ofNested_toJson.2 s _ (Nat.lt_succ_self _)

private theorem Fragment.ofJson_toJson (f : Fragment) :
    Fragment.ofJson f.toJson = (.ok f : Except (ReadError ε) Fragment) := by
  cases f with
  | expr e => exact congrArg (Except.map Fragment.expr) e.ofJson_toJson
  | query q => exact congrArg (Except.map Fragment.query) q.ofJson_toJson

end

/-! ### Texts -/

@[simp] theorem numbersReadBack_keyToJson {key : SortKey Expr} :
    (keyToJson key).NumbersReadBack ↔ key.expr.toJson.NumbersReadBack := by
  simp [keyToJson]

@[simp] theorem numbersReadBack_branchToJson {branch : Branch Expr} :
    (branchToJson branch).NumbersReadBack ↔
      branch.condition.toJson.NumbersReadBack ∧ branch.result.toJson.NumbersReadBack := by
  simp [branchToJson]

@[simp] theorem numbersReadBack_itemToJson {item : Item Expr} :
    (itemToJson item).NumbersReadBack ↔ item.expr.toJson.NumbersReadBack := by
  cases h : item.label <;> simp [itemToJson, Json.ifPresent, h]

private theorem numbersReadBack_callToJson {function : Call Expr}
    (h : ∀ k ∈ function.operands, k.toJson.NumbersReadBack) : (callToJson function).NumbersReadBack := by
  obtain ⟨hargs, horder, hwithin, hfilter⟩ := Call.forall_mem_operands.1 h
  rw [callToJson_eq, Json.numbersReadBack_object, forall_mem_callMembers]
  refine ⟨by simp, ?_, ⟨fun _ => ?_, fun _ => ?_⟩, hfilter⟩
  · simpa using hargs
  · simpa using horder
  · simpa using hwithin

/-- The numbers in a statement are integers of 64 bits, which are read back from their texts. -/
theorem numbersReadBack_toJson :
    (∀ e : Expr, e.toJson.NumbersReadBack) ∧ ∀ s : Select, s.toJson.NumbersReadBack := by
  refine tree_induction (fun e hoperands hsingle => ?_) fun s hexprs hsource => ?_
  · cases e with
    | star | column | literal | keyword => simp [Expr.toJson]
    | cast | not | negate | isNull | interval | subscript | binary =>
      simpa [Expr.toJson, Expr.operands] using hoperands
    | call function => simpa [Expr.toJson] using numbersReadBack_callToJson hoperands
    | case operand branches default =>
      obtain ⟨hoperand, hbranches, hdefault⟩ := Expr.forall_mem_operands_case.1 hoperands
      have hoperand := Json.numbersReadBack_orNull (Option.forall_mem_map.2 hoperand)
      have hdefault := Json.numbersReadBack_orNull (Option.forall_mem_map.2 hdefault)
      simpa [Expr.toJson] using ⟨hoperand, hbranches, hdefault⟩
    | subquery q => simpa [Expr.toJson] using hsingle q rfl
  · obtain ⟨hprojection, hselection, hgroups, horder⟩ := Select.forall_mem_exprs.1 hexprs
    rw [Select.toJson_eq, Json.numbersReadBack_object, forall_mem_selectMembers]
    refine ⟨by simpa using hprojection, ?_, ⟨⟨⟨hselection, fun _ => ?_⟩, fun _ => ?_⟩, by simp⟩, by simp⟩
    · cases hs : s.source with
      | table name => simp [Source.toJson]
      | subquery q label => simpa [Source.toJson] using hsource q label hs
    · simpa using hgroups
    · simpa using horder

/-- The numbers in the document of a fragment are read back. -/
theorem Fragment.numbersReadBack_toJson (f : Fragment) : f.toJson.NumbersReadBack := by
  cases f with
  | expr e => simpa [toJson] using Sql.numbersReadBack_toJson.1 e
  | query q => simpa [toJson] using Sql.numbersReadBack_toJson.2 q

private theorem Fragment.ofText?_compact {f : Fragment} (h : f.toJson.depth ≤ Json.maxDepth) :
    Json.ofText? f.toJson.compact = some f.toJson := by
  rw [Json.ofText?, Json.read?_compact f.numbersReadBack_toJson h]
  rfl

/-! ### Clauses that are left out -/

/-- The clauses of a call that are left out of its document are the empty ones. -/
theorem mem_keys_callToJson (function : Call Expr) :
    ("order_by" ∈ (callToJson function).keys ↔ function.order ≠ []) ∧
      ("within_group" ∈ (callToJson function).keys ↔ function.within ≠ []) ∧
      ("filter" ∈ (callToJson function).keys ↔ function.filter ≠ none) := by
  simp only [callToJson_eq, Json.keys, callMembers, List.map_cons, List.map_append, List.mem_cons, List.mem_append,
    Json.mem_keys_ifPresent, Json.mem_keys_unlessEmpty]
  simp

private theorem mem_keys_itemToJson (item : Item Expr) : "alias" ∈ (itemToJson item).keys ↔ item.label ≠ none := by
  simp only [itemToJson, Json.keys, List.map_cons, List.mem_cons, Json.mem_keys_ifPresent]
  simp

/-- The clauses of a statement that are left out of its document are the empty ones. -/
theorem Select.mem_keys_toJson (s : Select) :
    ("selection" ∈ s.toJson.keys ↔ s.selection ≠ none) ∧ ("group_by" ∈ s.toJson.keys ↔ s.groups ≠ []) ∧
      ("order_by" ∈ s.toJson.keys ↔ s.order ≠ []) ∧ ("limit" ∈ s.toJson.keys ↔ s.limit ≠ none) ∧
      ("offset" ∈ s.toJson.keys ↔ s.offset ≠ none) := by
  simp only [Select.toJson_eq, Json.keys, selectMembers, List.map_cons, List.map_append, List.mem_cons,
    List.mem_append, Json.mem_keys_ifPresent, Json.mem_keys_unlessEmpty]
  simp

/-- Every fragment is read back from its document, and from the text of its document unless that is nested too deeply
to be read as text. Calls, items and statements leave exactly those clauses out that they do not have. -/
theorem Fragment.ofJson_toJson_omitting {ε : Type} :
    (∀ f : Fragment, Fragment.ofJson f.toJson = (.ok f : Except (ReadError ε) Fragment)) ∧
    (∀ f : Fragment, f.toJson.depth ≤ Json.maxDepth →
      (Json.ofText? f.toJson.compact).map Fragment.ofJson = some (.ok f : Except (ReadError ε) Fragment)) ∧
    (∀ function : Call Expr,
      ("order_by" ∈ (callToJson function).keys ↔ function.order ≠ []) ∧
      ("within_group" ∈ (callToJson function).keys ↔ function.within ≠ []) ∧
      ("filter" ∈ (callToJson function).keys ↔ function.filter ≠ none)) ∧
    (∀ items : List (Item Expr),
      List.Forall₂ (fun item doc => "alias" ∈ doc.keys ↔ item.label ≠ none) items (itemsToJson items)) ∧
    ∀ s : Select,
      ("selection" ∈ s.toJson.keys ↔ s.selection ≠ none) ∧ ("group_by" ∈ s.toJson.keys ↔ s.groups ≠ []) ∧
      ("order_by" ∈ s.toJson.keys ↔ s.order ≠ []) ∧ ("limit" ∈ s.toJson.keys ↔ s.limit ≠ none) ∧
      ("offset" ∈ s.toJson.keys ↔ s.offset ≠ none) := by
  refine ⟨Fragment.ofJson_toJson, fun f hdepth => ?_, mem_keys_callToJson, fun items => ?_, Select.mem_keys_toJson⟩
  · rw [ofText?_compact hdepth, Option.map_some, f.ofJson_toJson]
  · rw [itemsToJson_eq_map, List.forall₂_map_right_iff, List.forall₂_same]
    exact fun item _ => mem_keys_itemToJson item

/-- A case without operand and default in a call that is filtered, over a statement that has an offset and no
limit. -/
theorem Fragment.ofJson_toJson_omitting_nested :
    ∃ f : Fragment,
      f = .query ⟨[⟨.call ⟨"SUM", [.case none [⟨.column "a", .subscript (.column "b") (-1)⟩] none], [], [],
        some (.isNull (.column "a") true)⟩, none⟩],
        .subquery ⟨[⟨.star, some "b"⟩], .table "t", none, [], [⟨.column "a", false⟩], none,
          some 18446744073709551615⟩ "q", none, [.column "a"], [], some 0, none⟩ ∧
      f.toJson.depth ≤ Json.maxDepth ∧
      (Json.ofText? f.toJson.compact).map Fragment.ofJson = some (.ok f : Except (ReadError Empty) Fragment) :=
  ⟨_, rfl, by decide, Fragment.ofJson_toJson_omitting.2.1 _ (by decide)⟩

end Sql

end SqlPlan
