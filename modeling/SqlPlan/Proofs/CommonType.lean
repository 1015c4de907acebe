import SqlPlan.Proofs.Extents

/-!
# Common types of lists

A type is given by its form and by its parts, and the parts of a common type are the common types of the parts. So the
order in which types are joined matters exactly if it matters at some place inside of them.

* `Common.primitiveAt`: the primitive types at the places of a common type.
* `Common.eq_of_perm`: types that are settled at all places have one common type.
* `unify_perm_iff`: when the common type of values does not depend on their order.
-/

namespace SqlPlan

/-! ### The parts of a type -/

namespace DataType

/-- A step into a type. -/
inductive Step where
  | item
  | key
  | value
  | column (index : Nat)

def part? : Step → DataType → Option DataType
  | .item, .array item => some item
  | .key, .map key _ => some key
  | .value, .map _ value => some value
  | .column index, .struct columns => columns[index]?.map (·.type)
  | _, _ => none

/-- The primitive type that a type is, unless it is the type of null. -/
def primitive? : DataType → Option Primitive
  | .null => none
  | .primitive p => some p
  | _ => none

/-- The primitive type at a place in a type. -/
def primitiveAt? : List Step → DataType → Option Primitive
  | [], t => t.primitive?
  | step :: place, t => (t.part? step).bind (primitiveAt? place)

/-- Whether the column of an index may be null. -/
def nullableAt (index : Nat) : DataType → Bool
  | .struct columns => columns[index]?.any (·.nullable)
  | _ => false

variable {a b c t u : DataType} {step : Step}

/-- Induction over the parts of a type. -/
theorem induction_part {P : DataType → Prop} (h : ∀ t, (∀ step u, t.part? step = some u → P u) → P t) (t : DataType) :
    P t := by
  induction t using DataType.induction with
  | primitive p => exact h _ fun step u hu => by cases step <;> cases hu
  | array item ih =>
    refine h _ fun step u hu => ?_
    cases step with
    | item => cases hu; exact ih
    | key | value | column => cases hu
  | map key value ihkey ihvalue =>
    refine h _ fun step u hu => ?_
    cases step with
    | key => cases hu; exact ihkey
    | value => cases hu; exact ihvalue
    | item | column => cases hu
  | struct columns ih =>
    refine h _ fun step u hu => ?_
    cases step with
    | column index =>
      obtain ⟨column, hcolumn, rfl⟩ := Option.map_eq_some_iff.1 hu
      exact ih column (List.mem_of_getElem? hcolumn)
    | item | key | value => cases hu

@[simp] theorem part?_null (step : Step) : part? step .null = none := by cases step <;> rfl

@[simp] theorem primitiveAt?_null (place : List Step) : primitiveAt? place .null = none := by
  cases place <;> simp [primitiveAt?, primitive?]

private theorem ColumnsPromote.getElem? {cs ds es : List (Column DataType)} (h : ColumnsPromote cs ds es) (i : Nat) :
    (cs[i]? = none ∧ ds[i]? = none ∧ es[i]? = none) ∨
      ∃ name t t' u nullable nullable', cs[i]? = some ⟨name, t, nullable⟩ ∧ ds[i]? = some ⟨name, t', nullable'⟩ ∧
        es[i]? = some ⟨name, u, nullable || nullable'⟩ ∧ promote t t' = .ok u := by
  induction h generalizing i with
  | nil => exact .inl ⟨rfl, rfl, rfl⟩
  | cons head _ ih =>
    cases i with
    | zero => exact .inr ⟨_, _, _, _, _, _, rfl, rfl, rfl, head⟩
    | succ i => simpa using ih i

/-- The parts of a common type are the common types of the parts. -/
theorem promote_part (h : promote a b = .ok c) (step : Step) :
    promote ((a.part? step).getD .null) ((b.part? step).getD .null) = .ok ((c.part? step).getD .null) := by
  cases promote_eq_ok_iff.1 h with
  | nullLeft => simp
  | nullRight => simp
  | primitive => cases step <;> rfl
  | array item =>
    cases step with
    | item => exact item
    | key | value | column => rfl
  | map key value =>
    cases step with
    | key => exact key
    | value => exact value
    | item | column => rfl
  | struct columns =>
    cases step with
    | column i =>
      rcases columns.getElem? i with ⟨hc, hd, he⟩ | ⟨_, _, _, _, _, _, hc, hd, he, hpromote⟩
      · simp [part?, hc, hd, he]
      · simpa [part?, hc, hd, he] using hpromote
    | item | key | value => rfl

private theorem primitive?_getD (p : Primitive) : (primitive? (.primitive p)).getD .null = p := by cases p <;> rfl

/-- The primitive types of two types come to the one of their common type. A type that is not primitive counts as
null. -/
theorem promote_primitive (h : promote a b = .ok c) :
    (a.primitive?.getD .null).join? (b.primitive?.getD .null) = some (c.primitive?.getD .null) := by
  cases promote_eq_ok_iff.1 h with
  | nullLeft => simp [primitive?]
  | nullRight => simp [primitive?]
  | primitive hjoin => simpa only [primitive?_getD] using hjoin
  | array | map | struct => rfl

private theorem promote_nullableAt (h : promote a b = .ok c) (i : Nat) :
    c.nullableAt i = (a.nullableAt i || b.nullableAt i) := by
  cases promote_eq_ok_iff.1 h with
  | nullLeft => simp [nullableAt]
  | nullRight => simp [nullableAt]
  | primitive | array | map => rfl
  | struct columns =>
    rcases columns.getElem? i with ⟨hc, hd, he⟩ | ⟨_, _, _, _, _, _, hc, hd, he, -⟩
    · simp [nullableAt, hc, hd, he]
    · simp [nullableAt, hc, hd, he]

/-! ### The common type of a list of types -/

variable {types types' : List DataType}

/-- How a list of types comes to a common type: from the left, beginning with the type of null. -/
inductive Common : List DataType → DataType → Prop
  | nil : Common [] .null
  | concat {types : List DataType} {a b c : DataType} (init : Common types a) (last : promote a b = .ok c) :
    Common (types ++ [b]) c

private theorem Common.append (h : Common types a) (hfold : types'.foldlM promote a = .ok t) :
    Common (types ++ types') t := by
  induction types' generalizing types a with
  | nil =>
    obtain rfl := Except.ok.inj hfold
    simpa using h
  | cons b types' ih =>
    rw [List.foldlM_cons] at hfold
    obtain ⟨c, hc, hfold⟩ := bind_eq_ok.1 hfold
    simpa using ih (h.concat hc) hfold

private theorem common_iff : Common types t ↔ types.foldlM promote .null = .ok t := by
  constructor
  · intro h
    induction h with
    | nil => rfl
    | @concat types a b c _ last ih =>
      rw [List.foldlM_append, ih]
      change [b].foldlM promote a = .ok c
      rw [List.foldlM_cons, last]
      rfl
  · exact fun h => Common.nil.append h

private theorem Common.part (h : Common types t) (step : Step) :
    Common (types.filterMap (part? step)) ((t.part? step).getD .null) := by
  induction h with
  | nil => simpa using Common.nil
  | @concat types a b c _ last ih =>
    have hpart := promote_part last step
    cases hb : b.part? step with
    | none =>
      simp only [hb, Option.getD_none, promote_null_right, Except.ok.injEq] at hpart
      simpa [hb, ← hpart] using ih
    | some u => simpa [hb] using ih.concat hpart

private theorem Common.primitive (h : Common types t) :
    Primitive.common? (types.filterMap primitive?) = some (t.primitive?.getD .null) := by
  induction h with
  | nil => rfl
  | @concat types a b c _ last ih =>
    have hjoin := promote_primitive last
    rw [List.filterMap_append, Primitive.common?, List.foldlM_append, ← Primitive.common?, ih]
    cases hb : b.primitive? <;> simpa [hb] using hjoin

/-- The primitive type at a place is the common type of those at the place. -/
theorem Common.primitiveAt (h : Common types t) (place : List Step) :
    Primitive.common? (types.filterMap (primitiveAt? place)) = some ((t.primitiveAt? place).getD .null) := by
  induction place generalizing types t with
  | nil => exact h.primitive
  | cons step place ih =>
    have hpart := ih (h.part step)
    rw [List.filterMap_filterMap] at hpart
    refine hpart.trans ?_
    cases ht : t.part? step <;> simp [primitiveAt?, ht]

private theorem Common.nullableAt (h : Common types t) (i : Nat) : t.nullableAt i = types.any (nullableAt i) := by
  induction h with
  | nil => rfl
  | concat _ last ih => simp [promote_nullableAt last, ih]

/-- Types that are built in the same way from parts. -/
inductive SameForm : DataType → DataType → Prop
  | primitive {p q : Primitive} (hp : p ≠ .null) (hq : q ≠ .null) : SameForm (.primitive p) (.primitive q)
  | array (a b : DataType) : SameForm (.array a) (.array b)
  | map (k v k' v' : DataType) : SameForm (.map k v) (.map k' v')
  | struct {cs ds : List (Column DataType)} (names : cs.map (·.name) = ds.map (·.name)) :
    SameForm (.struct cs) (.struct ds)

private theorem SameForm.symm (h : SameForm a b) : SameForm b a := by
  cases h with
  | primitive hp hq => exact .primitive hq hp
  | array => exact .array ..
  | map => exact .map ..
  | struct names => exact .struct names.symm

private theorem SameForm.trans (h : SameForm a b) (h' : SameForm b c) : SameForm a c := by
  cases h with
  | primitive hp _ => cases h' with | primitive _ hr => exact .primitive hp hr
  | array => cases h'; exact .array ..
  | map => cases h'; exact .map ..
  | struct names => cases h' with | struct names' => exact .struct (names.trans names')

private theorem SameForm.refl (h : a ≠ .null) : SameForm a a := by
  cases a with
  | primitive p => exact .primitive (by simpa using h) (by simpa using h)
  | array => exact .array ..
  | map => exact .map ..
  | struct => exact .struct rfl

private theorem ColumnsPromote.names {cs ds es : List (Column DataType)} (h : ColumnsPromote cs ds es) :
    cs.map (·.name) = es.map (·.name) := by
  induction h with
  | nil => rfl
  | cons _ _ ih => simp [ih]

private theorem sameForm_promote (h : promote a b = .ok c) (ha : a ≠ .null) : SameForm a c := by
  cases promote_eq_ok_iff.1 h with
  | nullLeft => exact absurd rfl ha
  | nullRight => exact .refl ha
  | @primitive p q r hjoin =>
    have hp : p ≠ .null := by simpa using ha
    exact .primitive hp fun hr => hp ((Primitive.eq_null_iff_of_join? hjoin).1 hr).1
  | array => exact .array ..
  | map => exact .map ..
  | struct columns => exact .struct columns.names

/-- A common type is built as those of the list are that say something. -/
private theorem Common.sameForm (h : Common types t) : ∀ a ∈ types, a ≠ .null → SameForm a t := by
  induction h with
  | nil => simp
  | @concat types a b c init last ih =>
    intro d hd hdnull
    rcases List.mem_append.1 hd with hd | hd
    · have hda := ih d hd hdnull
      refine hda.trans (sameForm_promote last ?_)
      rintro rfl
      cases hda with
      | primitive _ hq => exact hq rfl
    · obtain rfl := List.mem_singleton.1 hd
      exact sameForm_promote (promote_comm last) hdnull

private theorem Common.eq_null (h : Common types t) (hnull : ∀ a ∈ types, a = .null) : t = .null := by
  induction h with
  | nil => rfl
  | concat _ last ih =>
    simp only [List.mem_append, List.mem_singleton] at hnull
    rw [ih fun a ha => hnull a (.inl ha), hnull _ (.inr rfl)] at last
    exact (Except.ok.inj last).symm

private theorem SameForm.isSome_part (h : SameForm a b) (step : Step) :
    (a.part? step).isSome = (b.part? step).isSome := by
  cases h with
  | primitive | array | map => cases step <;> rfl
  | struct names =>
    cases step with
    | column i =>
      have hsome := congrArg (·[i]?.isSome) names
      simpa [part?] using hsome
    | item | key | value => rfl

/-- Types of the same form with the same parts are equal. -/
private theorem SameForm.eq_of_parts (h : SameForm a b)
    (hprimitive : a.primitive?.getD .null = b.primitive?.getD .null) (hpart : ∀ step, a.part? step = b.part? step)
    (hnullable : ∀ i, a.nullableAt i = b.nullableAt i) : a = b := by
  cases h with
  | @primitive p q _ _ =>
    rw [primitive?_getD, primitive?_getD] at hprimitive
    rw [hprimitive]
  | array => rw [Option.some.inj (hpart .item)]
  | map => rw [Option.some.inj (hpart .key), Option.some.inj (hpart .value)]
  | @struct cs ds names =>
    congr 1
    refine List.ext_getElem? fun i => ?_
    have hname := congrArg (·[i]?) names
    have htype := hpart (.column i)
    have hnull := hnullable i
    simp only [part?, DataType.nullableAt, List.getElem?_map] at hname htype hnull
    generalize cs[i]? = column at hname htype hnull ⊢
    generalize ds[i]? = column' at hname htype hnull ⊢
    rcases column with _ | ⟨name, type, nullable⟩ <;> rcases column' with _ | ⟨name', type', nullable'⟩ <;> simp_all

private theorem primitiveAt?_ne_null (place : List Step) (t : DataType) : t.primitiveAt? place ≠ some .null := by
  induction place generalizing t with
  | nil =>
    rw [primitiveAt?]
    unfold primitive?
    split <;> simp_all
  | cons step place ih =>
    rw [primitiveAt?]
    cases t.part? step with
    | none => simp
    | some u => exact ih u

/-- Types that are settled at all places have one common type in all orders. -/
theorem Common.eq_of_perm (ht : Common types t) (hu : Common types' u) (hperm : types.Perm types')
    (hsettled : ∀ place, Primitive.Settled (types.filterMap (primitiveAt? place))) : t = u := by
  induction t using induction_part generalizing types types' u with
  | h t ih =>
    by_cases hnull : ∀ a ∈ types, a = .null
    · rw [ht.eq_null hnull, hu.eq_null fun a ha => hnull a (hperm.mem_iff.2 ha)]
    push Not at hnull
    obtain ⟨a, ha, hnull⟩ := hnull
    have hform := (ht.sameForm a ha hnull).symm.trans (hu.sameForm a (hperm.mem_iff.1 ha) hnull)
    refine hform.eq_of_parts ?_ (fun step => ?_) fun i => ?_
    · refine (hsettled []).eq_of_perm ?_ (hperm.filterMap _) (ht.primitiveAt []) (hu.primitiveAt [])
      intro hmem
      obtain ⟨b, -, hb⟩ := List.mem_filterMap.1 hmem
      exact primitiveAt?_ne_null [] b hb
    · have hsome := hform.isSome_part step
      have htpart := ht.part step
      have hupart := hu.part step
      cases htstep : t.part? step with
      | none => simp_all
      | some x =>
        rw [htstep] at hsome htpart
        obtain ⟨y, hy⟩ := Option.isSome_iff_exists.1 hsome.symm
        rw [hy] at hupart ⊢
        rw [ih step x htstep htpart hupart (hperm.filterMap _) fun place => ?_]
        · rfl
        · have hplace := hsettled (step :: place)
          rwa [List.filterMap_filterMap]
    · rw [ht.nullableAt, hu.nullableAt, hperm.any_eq]

section

variable {place : List Step}

/-- Whether the type has an integer at the place. -/
def hasIntegerAt (place : List Step) (t : DataType) : Bool := (t.primitiveAt? place).any (·.isInteger)

private theorem filterMap_hasIntegerAt :
    (types.filter (hasIntegerAt place)).filterMap (primitiveAt? place) =
      (types.filterMap (primitiveAt? place)).filter (·.isInteger) := by
  rw [List.filterMap_filter, List.filter_filterMap]
  congr 1
  funext t
  cases h : t.primitiveAt? place <;> simp [hasIntegerAt, h, Option.filter]

private theorem filterMap_not_hasIntegerAt :
    (types.filter fun t => !hasIntegerAt place t).filterMap (primitiveAt? place) =
      (types.filterMap (primitiveAt? place)).filter fun p => !p.isInteger := by
  rw [List.filterMap_filter, List.filter_filterMap]
  congr 1
  funext t
  cases h : t.primitiveAt? place <;> simp [hasIntegerAt, h, Option.filter]

/-- Two orders tell whether the types are settled at a place: those with integers there first, and last. -/
private theorem settled_of_common
    (hfirst : Common (types.filter (hasIntegerAt place) ++ types.filter fun t => !hasIntegerAt place t) t)
    (hlast : Common ((types.filter fun t => !hasIntegerAt place t) ++ types.filter (hasIntegerAt place)) t) :
    Primitive.Settled (types.filterMap (primitiveAt? place)) := by
  have hfirst := hfirst.primitiveAt place
  have hlast := hlast.primitiveAt place
  rw [List.filterMap_append, filterMap_hasIntegerAt, filterMap_not_hasIntegerAt] at hfirst hlast
  exact hfirst.trans hlast.symm

end

/-- Promotion is associative on three types that are settled at all places. -/
theorem promote_assoc {d e : DataType} (hab : promote a b = .ok d) (hdc : promote d c = .ok e)
    (hsettled : ∀ place, Primitive.Settled ([a, b, c].filterMap (primitiveAt? place))) :
    ∃ f, promote b c = .ok f ∧ promote a f = .ok e := by
  obtain ⟨hac, f, hbc⟩ := (succeeds_promote_promote hab c).1 ⟨e, hdc⟩
  obtain ⟨e', hfa⟩ := (succeeds_promote_promote hbc a).2
    ⟨succeeds_promote_symm.1 ⟨d, hab⟩, succeeds_promote_symm.1 hac⟩
  have habc : Common [a, b, c] e := .concat (.concat (.concat .nil (promote_null_left a)) hab) hdc
  have hbca : Common [b, c, a] e' := .concat (.concat (.concat .nil (promote_null_left b)) hbc) hfa
  obtain rfl : e = e' := habc.eq_of_perm hbca (List.perm_append_singleton a [b, c]).symm hsettled
  exact ⟨f, hbc, promote_comm hfa⟩

end DataType

/-- Nodes that can be unified have a common type. -/
theorem common_of_unify {nodes : List Node} {t : DataType} (h : unify nodes = .ok t) :
    DataType.Common (nodes.map (·.type)) t := DataType.common_iff.2 (unify_eq_foldlM nodes ▸ h)

private theorem filterMap_type (nodes : List Node) (place : List DataType.Step) :
    (nodes.map (·.type)).filterMap (DataType.primitiveAt? place) = nodes.filterMap (·.type.primitiveAt? place) :=
  List.filterMap_map

private theorem succeeds_unify_perm {nodes nodes' : List Node} (h : nodes.Perm nodes')
    (hsucceeds : Succeeds (unify nodes)) : Succeeds (unify nodes') := by
  rw [succeeds_unify_iff] at hsucceeds ⊢
  simpa only [h.mem_iff] using hsucceeds

/-- The common type of values is the same in all orders exactly if, at every place in their types, the integers come
to the same with the other types whether they are joined first or last. So far promotion is associative as well. -/
theorem unify_perm_iff {nodes : List Node} {t : DataType} (h : unify nodes = .ok t) :
    ((∀ nodes', nodes.Perm nodes' → unify nodes' = .ok t) ↔
      ∀ place, Primitive.Settled (nodes.filterMap (·.type.primitiveAt? place))) ∧
    ∀ a b c d e : DataType, a.promote b = .ok d → d.promote c = .ok e →
      (∀ place, Primitive.Settled ([a, b, c].filterMap (·.primitiveAt? place))) →
      ∃ f, b.promote c = .ok f ∧ a.promote f = .ok e := by
  refine ⟨⟨fun hperm place => ?_, fun hsettled nodes' hperm => ?_⟩, ?_⟩
  · rw [← filterMap_type]
    have horder (f : DataType → Bool) :
        DataType.Common ((nodes.map (·.type)).filter f ++ (nodes.map (·.type)).filter fun u => !f u) t := by
      have h := common_of_unify (hperm _ (List.filter_append_perm (fun n => f n.type) nodes).symm)
      rw [List.map_append] at h
      rw [List.filter_map, List.filter_map]
      exact h
    exact DataType.settled_of_common (horder _) (by simpa using horder fun u => !u.hasIntegerAt place)
  · obtain ⟨u, hu⟩ := succeeds_unify_perm hperm ⟨t, h⟩
    rw [hu, (common_of_unify h).eq_of_perm (common_of_unify hu) (hperm.map _) fun place => ?_]
    rw [filterMap_type]
    exact hsettled place
  · exact fun a b c d e hab hdc hsettled => DataType.promote_assoc hab hdc hsettled

/-- A null of a type. -/
def Node.nullOf (type : DataType) : Node := ⟨.null type, type, .scalar⟩

/-- Arrays of integers of 8 bits, with and without a sign, and of floats have one common type in all orders, although
the integers come to 16 bits when they are joined first. -/
theorem unify_perm_iff_arrays :
    unify [.nullOf (.array (.int .w8)), .nullOf (.array (.uint .w8)), .nullOf (.array .float32)] =
      .ok (.array .float32) ∧
    ∀ nodes',
      List.Perm [.nullOf (.array (.int .w8)), .nullOf (.array (.uint .w8)), .nullOf (.array .float32)] nodes' →
      unify nodes' = .ok (.array .float32) := by
  refine ⟨rfl, (unify_perm_iff rfl).1.2 fun place => ?_⟩
  match place with
  | [] | [.item] => decide
  | .item :: .item :: _ | .item :: .key :: _ | .item :: .value :: _ | .item :: .column _ :: _ => rfl
  | .key :: _ | .value :: _ | .column _ :: _ => rfl

/-- Integers of 16 bits, with and without a sign, and a float come to a float of 64 bits or of 32 bits: the integers
need 32 bits when they are joined first. -/
theorem unify_perm_ne :
    unify [.nullOf (.int .w16), .nullOf (.uint .w16), .nullOf .float32] = .ok .float64 ∧
    unify [.nullOf (.int .w16), .nullOf .float32, .nullOf (.uint .w16)] = .ok .float32 ∧
    DataType.promote (.int .w16) (.uint .w16) = .ok (.int .w32) ∧
    DataType.promote (.int .w32) .float32 = .ok .float64 ∧
    DataType.promote (.uint .w16) .float32 = .ok .float32 ∧
    DataType.promote (.int .w16) .float32 = .ok .float32 := ⟨rfl, rfl, rfl, rfl, rfl, rfl⟩

end SqlPlan
