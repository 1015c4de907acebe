import SqlPlan.Proofs.Alike
import SqlPlan.Proofs.Correspondence

/-!
# Contents of texts in queries

The text of a string or of a JSON document goes into the SQL of a query as a quoted token. `Node.blanked` takes the
contents of these texts away, and compiles to the same SQL up to quoted tokens: what a text says has no influence on
how the SQL around it is read.

* `lower_alike`, `lowerRelation_alike`: a query and the one without contents are compiled side by side.
* `quoted_compile`: the SQL closes all quotes and brackets, and is the same for all contents up to quoted tokens.
-/

namespace SqlPlan

open Sql

namespace Value

mutual

/-- A value with no contents in its texts. -/
def blanked : Value → Value
  | .string _ => .string ""
  | .json _ => .json ""
  | .array items => .array (blankedAll items)
  | v => v

def blankedAll : List Value → List Value
  | [] => []
  | v :: vs => blanked v :: blankedAll vs

end

end Value

namespace Node

mutual

/-- A query with no contents in the texts of its literals. -/
def blanked : Node → Node
  | ⟨op, type, shape⟩ => ⟨blankedOp op, type, shape⟩

def blankedOp : Op Node → Op Node
  | .literal value type => .literal value.blanked type
  | .null type => .null type
  | .field relation name => .field (blanked relation) name
  | .cast arg target => .cast (blanked arg) target
  | .binary op left right => .binary op (blanked left) (blanked right)
  | .unary op arg => .unary op (blanked arg)
  | .simpleCase base conditions results default =>
    .simpleCase (blanked base) (blankedAll conditions) (blankedAll results) (blanked default)
  | .searchedCase conditions results default =>
    .searchedCase (blankedAll conditions) (blankedAll results) (blanked default)
  | .truncate clock arg unit => .truncate clock (blanked arg) unit
  | .dateFromYmd year month day => .dateFromYmd (blanked year) (blanked month) (blanked day)
  | .generate source => .generate source
  | .interval arg unit => .interval (blanked arg) unit
  | .reduce func arg condition => .reduce func (blanked arg) (blankedOption condition)
  | .pick func arg condition order => .pick func (blanked arg) (blankedOption condition) (blankedKeys order)
  | .correlate left right mode condition => .correlate (blanked left) (blanked right) mode (blankedOption condition)
  | .table name schema => .table name schema
  | .project parent values => .project (blanked parent) (blankedNamed values)
  | .filter parent predicates => .filter (blanked parent) (blankedAll predicates)
  | .aggregate parent groups metrics => .aggregate (blanked parent) (blankedNamed groups) (blankedNamed metrics)
  | .sort parent keys => .sort (blanked parent) (blankedKeys keys)
  | .limit parent count offset => .limit (blanked parent) count offset

def blankedAll : List Node → List Node
  | [] => []
  | n :: ns => blanked n :: blankedAll ns

def blankedOption : Option Node → Option Node
  | none => none
  | some n => some (blanked n)

def blankedKeys : List (SortKey Node) → List (SortKey Node)
  | [] => []
  | ⟨expr, ascending⟩ :: keys => ⟨blanked expr, ascending⟩ :: blankedKeys keys

def blankedNamed : List (Named Node) → List (Named Node)
  | [] => []
  | ⟨name, value⟩ :: values => ⟨name, blanked value⟩ :: blankedNamed values

end

@[simp] theorem type_blanked (n : Node) : n.blanked.type = n.type := by
  cases n
  rfl

@[simp] theorem shape_blanked (n : Node) : n.blanked.shape = n.shape := by
  cases n
  rfl

private theorem isRelation_blanked (n : Node) : n.blanked.isRelation = n.isRelation := by
  rw [isRelation, isRelation, shape_blanked]

@[simp] theorem kind_blankedOp (op : Op Node) : (blankedOp op).kind = op.kind := by cases op <;> rfl

private theorem blankedAll_eq_map (ns : List Node) : blankedAll ns = ns.map blanked := by
  induction ns with
  | nil => rfl
  | cons n ns ih => rw [blankedAll, ih, List.map_cons]

private theorem blankedKeys_eq_map (keys : List (SortKey Node)) :
    blankedKeys keys = keys.map fun key => ⟨key.expr.blanked, key.ascending⟩ := by
  induction keys with
  | nil => rfl
  | cons key keys ih => rw [blankedKeys, ih, List.map_cons]

private theorem blankedNamed_eq_map (values : List (Named Node)) :
    blankedNamed values = values.map fun v => ⟨v.name, v.value.blanked⟩ := by
  induction values with
  | nil => rfl
  | cons v values ih => rw [blankedNamed, ih, List.map_cons]

/-- Contents of texts do not make a reduction. -/
private theorem hasReduction_blanked (n : Node) : n.blanked.hasReduction = n.hasReduction := by
  induction n using Node.induction with
  | step n ih =>
    obtain ⟨op, type, shape⟩ := n
    have hinput : ∀ m ∈ op.children, m.blanked.hasReduction = m.hasReduction := ih
    have hlist : ∀ ns : List Node, (∀ m ∈ ns, m ∈ op.children) →
        anyHasReduction (blankedAll ns) = anyHasReduction ns := by
      intro ns hns
      induction ns with
      | nil => rfl
      | cons n ns ihns =>
        obtain ⟨hn, hns⟩ := List.forall_mem_cons.1 hns
        rw [blankedAll, anyHasReduction, anyHasReduction, hinput n hn, ihns hns]
    rw [blanked, hasReduction, hasReduction]
    cases op with
    | cast arg | unary _ arg | truncate _ arg | interval arg => exact hinput arg (by simp [Op.children])
    | binary op left right =>
      rw [blankedOp, opHasReduction, opHasReduction, hinput left (by simp [Op.children]),
        hinput right (by simp [Op.children])]
    | simpleCase base conditions results default =>
      rw [blankedOp, opHasReduction, opHasReduction, hinput base (by simp [Op.children]),
        hinput default (by simp [Op.children]), hlist conditions (by simp +contextual [Op.children]),
        hlist results (by simp +contextual [Op.children])]
    | searchedCase conditions results default =>
      rw [blankedOp, opHasReduction, opHasReduction, hinput default (by simp [Op.children]),
        hlist conditions (by simp +contextual [Op.children]), hlist results (by simp +contextual [Op.children])]
    | dateFromYmd year month day =>
      rw [blankedOp, opHasReduction, opHasReduction, hinput year (by simp [Op.children]),
        hinput month (by simp [Op.children]), hinput day (by simp [Op.children])]
    | _ => rfl

private theorem any_hasReduction_blankedNamed (values : List (Named Node)) :
    (blankedNamed values).any (·.value.hasReduction) = values.any (·.value.hasReduction) := by
  simp [blankedNamed_eq_map, hasReduction_blanked, Function.comp_def]

private theorem any_hasReduction_blankedAll (ns : List Node) :
    (blankedAll ns).any (·.hasReduction) = ns.any (·.hasReduction) := by
  simp [blankedAll_eq_map, hasReduction_blanked, Function.comp_def]

end Node

namespace Compiler

variable (c : Compiler)

/-! ### Literals -/

/-- Names of types are the same on both sides, and have all their quotes closed. -/
private theorem typeName_alike (type : DataType) :
    Agree (fun name name' => name = name' ∧ Closed name.toList) (c.typeName type) (c.typeName type) :=
  .of_returns ((c.typeName_contained type).mono fun _ hname => ⟨rfl, hname.closed⟩)

private theorem castTo_alike {e e' : Expr} (h : e.Alike e') (type : DataType) :
    Agree Expr.Alike (c.handlers.castTo e type) (c.handlers.castTo e' type) := by
  refine (c.typeName_alike type).bind fun name name' _ _ hname => ?_
  obtain ⟨rfl, hname⟩ := hname
  exact .ok (h.cast hname)

variable {c}

private theorem refl_alike {x : Except CompileError Expr} (h : Returns (Expr.Written fun _ => True) x) :
    Agree Expr.Alike x x :=
  .of_returns (h.mono fun e he => .refl (settled_text.1 e he).closed)

private theorem literal_string_alike (a b : String) (type : DataType) :
    Agree Expr.Alike (c.literal (.string a) type) (c.literal (.string b) type) := by
  rw [c.literal_eq_commonLiteral (by simp) (by simp), c.literal_eq_commonLiteral (by simp) (by simp)]
  unfold commonLiteral Handlers.commonLiteral
  split
  · exact c.castTo_alike (.literal a b) _
  · exact .ok (.literal a b)

private theorem literal_json_alike (a b : String) (type : DataType) :
    Agree Expr.Alike (c.literal (.json a) type) (c.literal (.json b) type) := by
  have hcast : Agree Expr.Alike (c.commonLiteral (.json a) type) (c.commonLiteral (.json b) type) :=
    c.castTo_alike (.literal a b) type
  have hown : ∀ text, c.literal (.json text) type =
      if c.family = .risingwave then .ok (.literal (SqlPlan.quoteString text))
      else c.commonLiteral (.json text) type := by
    intro text
    unfold literal Handlers.literal
    dsimp only
    unfold ownLiteral?
    cases c.family <;> rfl
  rw [hown, hown]
  split
  · exact .ok (.literal a b)
  · exact hcast

mutual

private theorem literal_alike (hc : c.WordedUnits) : ∀ (value : Value) (type : DataType),
    Agree Expr.Alike (c.literal value type) (c.literal value.blanked type)
  | .string text, type => literal_string_alike text "" type
  | .json text, type => literal_json_alike text "" type
  | .array items, type => by
    have hempty : (Value.blankedAll items).isEmpty = items.isEmpty := by cases items <;> rfl
    rw [Value.blanked, c.literal_eq_commonLiteral (by simp) (by simp), c.literal_eq_commonLiteral (by simp) (by simp)]
    unfold commonLiteral Handlers.commonLiteral
    split
    · rw [hempty]
      split
      · exact c.castTo_alike (.refl (by decide)) _
      · refine (elementTexts_alike hc items _).bind fun texts texts' _ _ htexts => ?_
        exact .ok ⟨((Alike.joined htexts).behind "ARRAY[" (by decide)).ahead "]" (by decide), rfl⟩
    · exact .error _
  | .null, type | .boolean _, type | .int _, type | .uint _, type | .float _, type | .decimal _, type
  | .binary _, type | .date _, type | .time _, type | .timestamp _, type =>
    refl_alike (c.literal_written hc _ type)

private theorem elementTexts_alike (hc : c.WordedUnits) : ∀ (values : List Value) (type : DataType),
    Agree (List.Forall₂ Alike) (c.handlers.elementTexts values type)
      (c.handlers.elementTexts (Value.blankedAll values) type)
  | [], _ => .ok .nil
  | v :: vs, type => by
    rw [Value.blankedAll, elementTexts_cons, elementTexts_cons]
    refine (literal_alike hc v type).bind fun e e' _ _ he => ?_
    refine (elementTexts_alike hc vs type).bind fun texts texts' _ _ htexts => ?_
    exact .ok (.cons he.text htexts)

end

/-! ### Calls -/

section

variable {e e' f f' : Expr} {condition condition' : Option Expr} {order order' : List (SortKey Expr)}

private theorem aggregate_alike (d : Dialect) (name : String) {args args' : List Expr}
    (hargs : List.Forall₂ Expr.Alike args args') (hcondition : Option.Rel Expr.Alike condition condition') :
    CallAlike (d.aggregate name args condition) (d.aggregate name args' condition') := by
  cases hcondition with
  | none => exact ⟨rfl, hargs, .nil, .nil, .none⟩
  | some hcondition =>
    simp only [Dialect.aggregate]
    split
    · exact ⟨rfl, hargs, .nil, .nil, .some hcondition⟩
    · refine ⟨rfl, ?_, .nil, .nil, .none⟩
      rw [List.forall₂_map_left_iff, List.forall₂_map_right_iff]
      exact hargs.imp fun arg arg' harg => .case .none (.cons ⟨hcondition, harg⟩ .nil) .none

private theorem closed_aggregate {name : String} (h : name ∈ aggregateNames) : Closed name.toList := by
  have hclosed : ∀ name ∈ aggregateNames, Closed name.toList := by decide
  exact hclosed name h

private theorem reduction_alike (func : Reduction) (h : e.Alike e') (type : DataType)
    (hcondition : Option.Rel Expr.Alike condition condition') :
    Agree Expr.Alike (c.reduction func e type condition) (c.reduction func e' type condition') := by
  have hcall : ∀ {e e' : Expr}, e.Alike e' →
      (Expr.call (c.dialect.aggregate func.sqlName [e] condition)).Alike
        (.call (c.dialect.aggregate func.sqlName [e'] condition')) := by
    intro e e' h
    refine .call (aggregate_alike c.dialect func.sqlName (.cons h .nil) hcondition) (closed_aggregate ?_)
    rw [name_aggregate]
    exact List.contains_iff_mem.1 (contains_sqlName func)
  have hplain : Agree Expr.Alike (c.plainReduction func e type condition)
      (c.plainReduction func e' type condition') := by
    unfold plainReduction
    dsimp only
    split
    · refine (c.typeName_alike (.int .w32)).bind fun name name' _ _ hname => ?_
      obtain ⟨rfl, hname⟩ := hname
      exact .ok (hcall (h.cast hname))
    · exact .ok (hcall h)
  have hmode : (c.modeOfGroup e condition).Alike (c.modeOfGroup e' condition') := by
    have haggregate := aggregate_alike c.dialect "MODE" (.cons h .nil) hcondition
    refine .call ⟨haggregate.name, .nil, haggregate.order, ?_, haggregate.filter⟩ ?_
    · rw [List.forall₂_map_left_iff, List.forall₂_map_right_iff]
      exact haggregate.args.imp fun _ _ harg => ⟨harg, rfl⟩
    · exact closed_aggregate (by simp [name_aggregate, aggregateNames])
  unfold reduction reductionAs
  split
  · exact .ok hmode
  · exact .ok hmode
  · exact hplain

private theorem pick_alike (func : Pick) (h : e.Alike e') (hcondition : Option.Rel Expr.Alike condition condition')
    (horder : List.Forall₂ KeyAlike order order') :
    (c.pick func e condition order).Alike (c.pick func e' condition' order') := by
  have hcall : ∀ name ∈ aggregateNames, ∀ {order order' : List (SortKey Expr)}, List.Forall₂ KeyAlike order order' →
      (Expr.call { c.dialect.aggregate name [e] condition with order }).Alike
        (.call { c.dialect.aggregate name [e'] condition' with order := order' }) := by
    intro name hname order order' horder
    have haggregate := aggregate_alike c.dialect name (.cons h .nil) hcondition
    refine .call ⟨haggregate.name, haggregate.args, horder, haggregate.within, haggregate.filter⟩ ?_
    exact closed_aggregate (by rwa [name_aggregate])
  have hreversed : List.Forall₂ KeyAlike (order.map (·.reversed)) (order'.map (·.reversed)) := by
    rw [List.forall₂_map_left_iff, List.forall₂_map_right_iff]
    exact horder.imp fun _ _ hkey => ⟨hkey.expr, congrArg Bool.not hkey.ascending⟩
  unfold pick pickAs
  cases c.family <;> cases func
  case postgres.first => exact (hcall _ (by simp [aggregateNames]) horder).subscript
  case postgres.last => exact (hcall _ (by simp [aggregateNames]) hreversed).subscript
  all_goals exact hcall _ (by simp [aggregateNames]) horder

private theorem correlation_alike (h : e.Alike e') (hf : f.Alike f')
    (hcondition : Option.Rel Expr.Alike condition condition') :
    (c.correlation e f condition).Alike (c.correlation e' f' condition') :=
  .call (aggregate_alike c.dialect "CORR" (.cons h (.cons hf .nil)) hcondition)
    (closed_aggregate (by simp [name_aggregate, aggregateNames]))

private theorem truncation_alike (h : e.Alike e') (kind : Kind) (unit : TemporalUnit) :
    Agree Expr.Alike (c.truncation kind e unit) (c.truncation kind e' unit) := by
  unfold truncation
  split
  · exact .ok (.apply (.cons (.literal _ _) (.cons h .nil)) (by decide))
  · exact .error _

private theorem intervalOf_alike (hc : c.WordedUnits) (h : e.Alike e') (shape : Shape) (unit : TemporalUnit) :
    Agree Expr.Alike (c.intervalOf e shape unit) (c.intervalOf e' shape unit) := by
  unfold intervalOf
  split
  · exact .error _
  · rename_i keyword hkeyword
    have hplain : ∀ ch ∈ keyword.toList, isPlain ch = true :=
      fun ch hch => isPlain_of_isWordChar (hc unit keyword hkeyword ch hch)
    have hunit : Closed keyword.toList := by simpa using (Settled.plain_append hplain .nil).closed
    split
    · exact .ok (h.interval hunit)
    · have hone : Expr.Alike (.literal "1") (.literal "1") := .refl (by decide)
      exact .ok (h.binary .multiply (hone.interval hunit))
    · exact .error _

private theorem unary_alike (op : UnaryOp) (h : e.Alike e') :
    (c.handlers.unary op e).Alike (c.handlers.unary op e') := by
  have hargs : List.Forall₂ Expr.Alike [e] [e'] := .cons h .nil
  cases op with
  | not => exact h.not
  | negate => exact h.negate
  | isNull => exact h.isNull false
  | notNull => exact h.isNull true
  | lowercase | uppercase => exact .apply hargs (by decide)
  | stringLength =>
    obtain ⟨name, hname, hlength⟩ := c.exists_stringLength
    have hclosed : ∀ name ∈ ["LENGTH", "CHAR_LENGTH"], Closed name.toList := by decide
    rw [hlength, hlength]
    exact .apply hargs (hclosed name hname)

private theorem inScope_alike {scope scope' : Option Select} (h : e.Alike e')
    (hscope : Option.Rel Select.Alike scope scope') : (e.inScope scope).Alike (e'.inScope scope') := by
  cases hscope with
  | none => exact h
  | some hs =>
    have hitems : List.Forall₂ ItemAlike [⟨e, none⟩] [⟨e', none⟩] := .cons ⟨h, rfl⟩ .nil
    exact (hs.project hitems).subquery

end

/-! ### Values -/

private theorem counterpart_blanked : Node.Counterpart Node.blanked where
  type := Node.type_blanked
  shape := Node.shape_blanked
  op n h := by
    have hoption : ∀ o : Option Node, Node.blankedOption o = o.map Node.blanked := by
      intro o
      cases o <;> rfl
    obtain ⟨op, type, shape⟩ := n
    change Node.blankedOp op = op.map Node.blanked
    cases op with
    | literal => exact absurd rfl h
    | _ =>
      simp only [Node.blankedOp, Op.map, Node.blankedAll_eq_map, Node.blankedKeys_eq_map, Node.blankedNamed_eq_map,
        hoption]

private theorem corresponds_alike (hc : c.WordedUnits) : Corresponds c c False Expr.Alike where
  supported _ := .refl (fun _ => True.intro) _
  castTo h type := c.castTo_alike h type
  binary h op hf := h.binary op hf
  unary h op := unary_alike op h
  case hoperand hbranches hdefault := .case hoperand (hbranches.imp fun _ _ hb => ⟨hb.1, hb.2⟩) (.some hdefault)
  truncation h kind unit := truncation_alike h kind unit
  dateFromYmd h hf hk := .apply (.cons h (.cons hf (.cons hk .nil))) (by decide)
  intervalOf h shape unit := intervalOf_alike hc h shape unit

private theorem reduces_alike : Reduces c c False Expr.Alike (Option.Rel Select.Alike) where
  ordered func order order' h := by
    rw [Handlers.ensureOrdered, Handlers.ensureOrdered, h]
    exact .refl (fun _ => True.intro) _
  correlated _ := .refl (fun _ => True.intro) _
  reduction func _ _ _ _ h type hw := reduction_alike func h type hw
  pick func _ _ _ _ _ _ h hw horder := pick_alike func h hw (horder.imp fun _ _ hkey => ⟨hkey.1, hkey.2⟩)
  correlation h hf hw := correlation_alike h hf hw
  inScope h hscope := inScope_alike h hscope
  none := .none

/-- A value and the one without contents are compiled to the same expression up to quoted tokens. -/
theorem lower_alike (hc : c.WordedUnits) {scope scope' : Option Select} (h : Option.Rel Select.Alike scope scope')
    (n : Node) : Agree Expr.Alike (c.lower scope n) (c.lower scope' n.blanked) := by
  refine lower_tracks_throughout (corresponds_alike hc) counterpart_blanked reduces_alike
    (fun n hleaf scope scope' => ?_) h n
  obtain ⟨op, type, shape⟩ := n
  rw [Node.blanked, lower_eq, lower_eq, Node.kind_blankedOp]
  refine (Tracks.refl (R := fun _ _ => True) (fun _ => trivial) _).bind fun _ _ _ _ _ => ?_
  cases op with
  | literal value type => exact literal_alike hc value type
  | null type => exact refl_alike (c.nullLiteral_written type)
  | field relation name => exact .ok (.refl (closed_quoteIdent name))
  | generate source => exact refl_alike (c.generated_written source)
  | searchedCase => simp [Op.arguments, Op.children] at hleaf
  | table | project | filter | aggregate | sort | limit => exact .error _
  | _ => cases hleaf

section

variable {scope scope' : Option Select}

private theorem lowerKeys_alike (hc : c.WordedUnits) (h : Option.Rel Select.Alike scope scope')
    (keys : List (SortKey Node)) :
    Agree (List.Forall₂ KeyAlike) (c.lowerKeys scope keys) (c.lowerKeys scope' (Node.blankedKeys keys)) := by
  rw [Node.blankedKeys_eq_map]
  exact lowerKeys_tracks (fun _ _ _ he => ⟨he, rfl⟩) fun m _ => lower_alike hc h m

private theorem lowerNamed_alike (hc : c.WordedUnits) (h : Option.Rel Select.Alike scope scope')
    (values : List (Named Node)) :
    Agree (List.Forall₂ ItemAlike) (c.lowerNamed scope values) (c.lowerNamed scope' (Node.blankedNamed values)) := by
  rw [Node.blankedNamed_eq_map]
  exact lowerNamed_tracks (fun _ _ _ he => ⟨he, rfl⟩) fun m _ => lower_alike hc h m

private theorem lowerAll_alike (hc : c.WordedUnits) (h : Option.Rel Select.Alike scope scope') (ns : List Node) :
    Agree (List.Forall₂ Expr.Alike) (c.lowerAll scope ns) (c.lowerAll scope' (Node.blankedAll ns)) := by
  rw [Node.blankedAll_eq_map]
  exact lowerAll_tracks fun m _ => lower_alike hc h m

end

/-! ### Relations -/

private theorem scopeFor_alike {s s' : Select} (h : s.Alike s') {rowByRow rowByRow' : Bool}
    (hrows : rowByRow = rowByRow') : Option.Rel Select.Alike (scopeFor rowByRow s) (scopeFor rowByRow' s') := by
  subst hrows
  cases rowByRow with
  | false => exact .none
  | true => exact .some h.scalarSource

section

variable {s s' : Select}

private theorem mixesReductions_blankedNamed (values : List (Named Node)) :
    mixesReductions (Node.blankedNamed values) = mixesReductions values := by
  simp [mixesReductions, Node.blankedNamed_eq_map, Node.hasReduction_blanked, Function.comp_def]

private theorem takesProjection_alike (h : s.Alike s') (values : List (Named Node)) :
    s.takesProjection values = s'.takesProjection (Node.blankedNamed values) := by
  rw [Select.takesProjection, Select.takesProjection, mixesReductions_blankedNamed,
    Node.any_hasReduction_blankedNamed, h.isStar_eq, h.isGrouped_eq, h.isLimited_eq, h.isOrdered_eq]

private theorem takesSelection_alike (h : s.Alike s') : s.takesSelection = s'.takesSelection := by
  rw [Select.takesSelection, Select.takesSelection, h.isStar_eq, h.isGrouped_eq, h.isLimited_eq]

private theorem takesGroups_alike (h : s.Alike s') : s.takesGroups = s'.takesGroups := by
  rw [Select.takesGroups, Select.takesGroups, h.isStar_eq, h.isGrouped_eq, h.isLimited_eq, h.isOrdered_eq]

/-- Whether an order is taken depends on the faces of its keys. -/
private theorem takesOrder_alike (h : s.Alike s') {order order' : List (SortKey Expr)}
    (horder : List.Forall₂ KeyAlike order order') : s.takesOrder order = s'.takesOrder order' := by
  have hfaces : ∀ (s : Select) (order : List (SortKey Expr)), s.takesOrder order =
      (!s.isLimited && (s.isStar || order.all fun key => key.expr.face.isColumn)) := by
    intro s order
    unfold Select.takesOrder
    congr 3
    funext key
    cases key.expr <;> rfl
  have hall : (order.all fun key => key.expr.face.isColumn) = order'.all fun key => key.expr.face.isColumn := by
    induction horder with
    | nil => rfl
    | cons hkey _ ih => rw [List.all_cons, List.all_cons, hkey.expr.face, ih]
  rw [hfaces, hfaces, h.isLimited_eq, h.isStar_eq, hall]

end

/-- A relation and the one without contents are compiled to the same statement up to quoted tokens. -/
theorem lowerRelation_alike (hc : c.WordedUnits) (n : Node) :
    Agree Select.Alike (c.lowerRelation n) (c.lowerRelation n.blanked) := by
  induction n using Node.induction with
  | step n ih =>
    obtain ⟨op, type, shape⟩ := n
    have hsupported : ∀ kind,
        Agree (fun _ _ => True) (c.dialect.ensureSupported kind) (c.dialect.ensureSupported kind) :=
      fun kind => .refl (fun _ => trivial) _
    rw [Node.blanked]
    -- whether a statement is wrapped does not depend on quoted contents
    cases op with
    | table name schema =>
      rw [Node.blankedOp, lowerRelation]
      exact (hsupported _).bind fun _ _ _ _ _ => .ok (.ofTable name)
    | project parent values =>
      rw [Node.blankedOp, lowerRelation, lowerRelation]
      refine (hsupported _).bind fun _ _ _ _ _ => ?_
      refine (ih parent (by simp [Node.children, Op.children])).bind fun s s' _ _ hs => ?_
      have hscope := scopeFor_alike hs (mixesReductions_blankedNamed values).symm
      refine (lowerNamed_alike hc hscope values).bind fun items items' _ _ hitems => ?_
      exact .ok ((hs.wrapUnless (takesProjection_alike hs values)).project hitems)
    | filter parent predicates =>
      rw [Node.blankedOp, lowerRelation, lowerRelation]
      refine (hsupported _).bind fun _ _ _ _ _ => ?_
      refine (ih parent (by simp [Node.children, Op.children])).bind fun s s' _ _ hs => ?_
      have hscope := scopeFor_alike hs (Node.any_hasReduction_blankedAll predicates).symm
      refine (lowerAll_alike hc hscope predicates).bind fun es es' _ _ hes => ?_
      cases hes with
      | nil => exact .ok hs
      | cons head tail => exact .ok ((hs.wrapUnless (takesSelection_alike hs)).addSelection (.cons head tail))
    | aggregate parent groups metrics =>
      rw [Node.blankedOp, lowerRelation, lowerRelation]
      refine (hsupported _).bind fun _ _ _ _ _ => ?_
      refine (ih parent (by simp [Node.children, Op.children])).bind fun s s' _ _ hs => ?_
      refine (lowerNamed_alike hc .none groups).bind fun groups groups' _ _ hgroups => ?_
      refine (lowerNamed_alike hc .none metrics).bind fun metrics metrics' _ _ hmetrics => ?_
      have hexprs : List.Forall₂ Expr.Alike (groups.map (·.expr)) (groups'.map (·.expr)) := by
        rw [List.forall₂_map_left_iff, List.forall₂_map_right_iff]
        exact hgroups.imp fun _ _ hitem => hitem.expr
      have hitems := List.rel_append hgroups hmetrics
      exact .ok (((hs.wrapUnless (takesGroups_alike hs)).regroup hexprs).project hitems)
    | sort parent keys =>
      rw [Node.blankedOp, lowerRelation, lowerRelation]
      refine (hsupported _).bind fun _ _ _ _ _ => ?_
      refine (ih parent (by simp [Node.children, Op.children])).bind fun s s' _ _ hs => ?_
      refine (lowerKeys_alike hc .none keys).bind fun order order' _ _ horder => ?_
      exact .ok ((hs.wrapUnless (takesOrder_alike hs horder)).orderBy horder)
    | limit parent count offset =>
      rw [Node.blankedOp, lowerRelation, lowerRelation]
      refine (hsupported _).bind fun _ _ _ _ _ => ?_
      refine (ih parent (by simp [Node.children, Op.children])).bind fun s s' _ _ hs => ?_
      exact .ok ((hs.wrapUnless (congrArg Bool.not hs.isLimited_eq)).window count _)
    | _ => exact (hsupported _).bind fun _ _ _ _ _ => .error _

/-- A query and the one without contents are compiled to the same SQL up to quoted tokens. -/
theorem compile_alike (hc : c.WordedUnits) (n : Node) :
    Agree (fun f f' : Fragment => Alike f.text f'.text) (c.compile n) (c.compile n.blanked) := by
  unfold compile
  rw [Node.isRelation_blanked]
  split
  · exact (lowerRelation_alike hc n).map fun _ _ hs => hs.text
  · exact (lower_alike hc .none n).map fun _ _ he => he.text

/-- Compiled SQL closes all quotes and brackets that it opens. Queries that differ in the contents of texts only are
compiled to SQL that differs in quoted tokens only. -/
theorem quoted_compile (hc : c ∈ builtins) {n : Node} {f : Fragment} (hf : c.compile n = .ok f) :
    Closed f.text.toList ∧ Balanced (bare f.text.toList) ∧
      ∀ m : Node, m.blanked = n.blanked →
        ∃ g, c.compile m = .ok g ∧ bare g.text.toList = bare f.text.toList := by
  have hunits := c.wordedUnits_of_mem_builtins hc
  have hsettled := Fragment.settled_text (compile_written hunits (c.negates_true n) f hf)
  refine ⟨hsettled.closed, hsettled.balanced, fun m hm => ?_⟩
  have hn := compile_alike hunits n
  have hm' := compile_alike hunits m
  rw [hf] at hn
  rw [hm] at hm'
  generalize c.compile n.blanked = blank at hn hm'
  cases hn with
  | ok hk =>
    obtain ⟨g, hg, hgk⟩ := hm'.exists_of_eq_ok rfl
    exact ⟨g, hg, hgk.bare_eq.trans hk.bare_eq.symm⟩

/-- A text in capital letters. -/
def capitals (text : String) : Node :=
  ⟨.unary .uppercase ⟨.literal (.string text) .string, .string, .scalar⟩, .string, .scalar⟩

/-- A text with a quote and a bracket in it does not end its token. -/
theorem quoted_compile_capitals :
    ∃ f g, base.compile (capitals "')--") = .ok f ∧ f.text = "UPPER(''')--')" ∧
      bare f.text.toList = "UPPER(')".toList ∧
      base.compile (capitals "it's (") = .ok g ∧ bare g.text.toList = bare f.text.toList := by
  have hbase : base ∈ builtins := by simp [builtins]
  obtain ⟨-, -, hsame⟩ := quoted_compile hbase (n := capitals "')--") rfl
  obtain ⟨g, hg, hbare⟩ := hsame (capitals "it's (") rfl
  exact ⟨_, g, rfl, by decide, by decide, hg, hbare⟩

end Compiler

end SqlPlan
