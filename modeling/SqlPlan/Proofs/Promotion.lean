import SqlPlan.Proofs.Documents
import SqlPlan.Proofs.Typing

/-!
# Common types

Two types have a common type by one rule for each way to build them. Types without a common type stay so: the common
type of two types is comparable with exactly what both of them are comparable with. Hence a list of values has a
common type if any two of them have one, in whatever order they come.

* `promote_eq_ok_iff`: the rules.
* `succeeds_promote_promote`: what the common type of two types is comparable with.
* `comparable_promote_unify`: which lists of values have a common type, and which cases have a type.
-/

namespace SqlPlan

/-! ### Primitive types -/

namespace Primitive

variable {p q r s : Primitive}

@[simp] theorem join?_self (p : Primitive) : p.join? p = some p := if_pos rfl

@[simp] theorem join?_null_left (q : Primitive) : join? .null q = some q := by
  unfold join?
  split
  · rename_i h
    rw [h]
  · rfl

private theorem widen?_comm (p q : Primitive) : p.widen? q = q.widen? p := by
  cases p with
  | int a | uint a =>
    cases q with
    | int b | uint b => cases a <;> cases b <;> rfl
    | _ => rfl
  | decimal p s =>
    cases q with
    | decimal q t =>
      have hscale : max s t = max t s := UInt8.toNat_inj.1 (by rw [UInt8.toNat_max, UInt8.toNat_max, Nat.max_comm])
      exact congrArg some (congrArg₂ decimalFor (Nat.max_comm _ _) hscale)
    | _ => rfl
  | _ => cases q <;> rfl

/-- The common type of two primitive types does not depend on their order. -/
theorem join?_comm (p q : Primitive) : p.join? q = q.join? p := by
  unfold join?
  by_cases h : p = q
  · rw [h]
  · rw [if_neg h, if_neg (Ne.symm h), widen?_comm]

@[simp] theorem join?_null_right (p : Primitive) : p.join? .null = some p := by
  rw [join?_comm, join?_null_left]

/-- Any two types of numbers have a common one. -/
private theorem join?_of_isNumeric (hp : p.isNumeric = true) (hq : q.isNumeric = true) :
    ∃ r, p.join? q = some r ∧ r.isNumeric = true := by
  by_cases h : p = q
  · exact ⟨p, h ▸ join?_self p, hp⟩
  rw [join?, if_neg h]
  cases p with
  | int a | uint a =>
    cases q with
    | int b | uint b => cases a <;> cases b <;> exact ⟨_, rfl, rfl⟩
    | float32 | float64 | decimal => cases a <;> exact ⟨_, rfl, rfl⟩
    | _ => cases hq
  | float32 =>
    cases q with
    | int b | uint b => cases b <;> exact ⟨_, rfl, rfl⟩
    | float32 => exact absurd rfl h
    | float64 | decimal => exact ⟨_, rfl, rfl⟩
    | _ => cases hq
  | float64 =>
    cases q with
    | float64 => exact absurd rfl h
    | int | uint | float32 | decimal => exact ⟨_, rfl, rfl⟩
    | _ => cases hq
  | decimal =>
    cases q with
    | int b | uint b => cases b <;> exact ⟨_, rfl, rfl⟩
    | float32 | float64 | decimal => exact ⟨_, rfl, rfl⟩
    | _ => cases hq
  | _ => cases hp

/-- How two primitive types come to a common one. -/
inductive Joins : Primitive → Primitive → Primitive → Prop
  | self (p : Primitive) : Joins p p p
  | nullLeft (q : Primitive) : Joins .null q q
  | nullRight (p : Primitive) : Joins p .null p
  | dateLeft (zone : Option String) : Joins .date (.timestamp zone) (.timestamp zone)
  | dateRight (zone : Option String) : Joins (.timestamp zone) .date (.timestamp zone)
  | number {p q r : Primitive} (hp : p.isNumeric = true) (hq : q.isNumeric = true) (hr : r.isNumeric = true) :
    Joins p q r

/-- Every common type is due to one of the rules. -/
theorem joins_of_join? (h : p.join? q = some r) : Joins p q r := by
  by_cases hself : p = q
  · subst hself
    obtain rfl : p = r := by simpa using h
    exact .self p
  have hnumber : p.isNumeric = true → q.isNumeric = true → Joins p q r := by
    intro hp hq
    obtain ⟨t, ht, hnumeric⟩ := join?_of_isNumeric hp hq
    obtain rfl : t = r := by simpa [ht] using h
    exact .number hp hq hnumeric
  rw [join?, if_neg hself] at h
  cases p with
  | null => cases h; exact .nullLeft q
  | int | uint | float32 | float64 | decimal =>
    cases q with
    | int | uint | float32 | float64 | decimal => exact hnumber rfl rfl
    | null => cases h; exact .nullRight _
    | _ => cases h
  | date =>
    cases q with
    | timestamp zone => cases h; exact .dateLeft zone
    | null => cases h; exact .nullRight _
    | _ => cases h
  | timestamp zone =>
    cases q with
    | date => cases h; exact .dateRight zone
    | null => cases h; exact .nullRight _
    | _ => cases h
  | _ =>
    cases q with
    | null => cases h; exact .nullRight _
    | _ => cases h

private theorem isSome_of_joins (h : Joins p q r) : (p.join? q).isSome = true := by
  cases h with
  | self | nullLeft | nullRight => simp
  | dateLeft | dateRight => rfl
  | number hp hq =>
    obtain ⟨t, ht, -⟩ := join?_of_isNumeric hp hq
    rw [ht]
    rfl

private theorem isSome_join?_iff : (p.join? q).isSome = true ↔ ∃ r, Joins p q r := by
  constructor
  · intro h
    obtain ⟨r, hr⟩ := Option.isSome_iff_exists.1 h
    exact ⟨r, joins_of_join? hr⟩
  · rintro ⟨r, hr⟩
    exact isSome_of_joins hr

/-- Numbers have a common type with numbers, and with the type of null. -/
private theorem isSome_join?_number (hp : p.isNumeric = true) :
    (p.join? q).isSome = true ↔ q.isNumeric = true ∨ q = .null := by
  rw [isSome_join?_iff]
  constructor
  · rintro ⟨r, hr⟩
    cases hr with
    | self => exact .inl hp
    | nullRight => exact .inr rfl
    | number _ hq _ => exact .inl hq
    | nullLeft | dateLeft | dateRight => cases hp
  · rintro (hq | rfl)
    · exact ⟨p, .number hp hq hp⟩
    · exact ⟨p, .nullRight p⟩

private theorem isSome_join?_date {zone : Option String} (h : ((timestamp zone).join? q).isSome = true) :
    (date.join? q).isSome = true := by
  obtain ⟨r, hr⟩ := isSome_join?_iff.1 h
  cases hr with
  | self | dateRight | nullRight => rfl
  | number hp => cases hp

/-- The common type of two primitive types is comparable with what both of them are comparable with. -/
private theorem isSome_join?_join? (h : p.join? q = some r) (s : Primitive) :
    (r.join? s).isSome = true ↔ (p.join? s).isSome = true ∧ (q.join? s).isSome = true := by
  cases joins_of_join? h with
  | self | nullLeft | nullRight => simp
  | dateLeft => exact ⟨fun hs => ⟨isSome_join?_date hs, hs⟩, And.right⟩
  | dateRight => exact ⟨fun hs => ⟨hs, isSome_join?_date hs⟩, And.left⟩
  | number hp hq hr => rw [isSome_join?_number hp, isSome_join?_number hq, isSome_join?_number hr, and_self]

/-- Only the type of null is the common type of itself and itself. -/
theorem eq_null_iff_of_join? (h : p.join? q = some r) : r = .null ↔ p = .null ∧ q = .null := by
  cases joins_of_join? h with
  | self | nullLeft | nullRight => simp
  | dateLeft | dateRight => simp
  | number hp hq hr =>
    constructor
    · rintro rfl
      cases hr
    · rintro ⟨rfl, -⟩
      cases hp

end Primitive

/-! ### The rules for types -/

namespace DataType

variable {a b c d : DataType}

/-- How the columns of two structs come to common columns: in pairs of the same name. -/
inductive ColumnsPromote : List (Column DataType) → List (Column DataType) → List (Column DataType) → Prop
  | nil : ColumnsPromote [] [] []
  | cons {name : String} {t t' u : DataType} {nullable nullable' : Bool} {cs ds es : List (Column DataType)}
    (head : promote t t' = .ok u) (tail : ColumnsPromote cs ds es) :
    ColumnsPromote (⟨name, t, nullable⟩ :: cs) (⟨name, t', nullable'⟩ :: ds) (⟨name, u, nullable || nullable'⟩ :: es)

/-- How two types come to a common one. -/
inductive Promotes : DataType → DataType → DataType → Prop
  | nullLeft (b : DataType) : Promotes .null b b
  | nullRight (a : DataType) : Promotes a .null a
  | primitive {p q r : Primitive} (h : p.join? q = some r) : Promotes (.primitive p) (.primitive q) (.primitive r)
  | array {a b c : DataType} (item : promote a b = .ok c) : Promotes (.array a) (.array b) (.array c)
  | map {k v k' v' l w : DataType} (key : promote k k' = .ok l) (value : promote v v' = .ok w) :
    Promotes (.map k v) (.map k' v') (.map l w)
  | struct {cs ds es : List (Column DataType)} (columns : ColumnsPromote cs ds es) :
    Promotes (.struct cs) (.struct ds) (.struct es)

@[simp] theorem promote_null_left (b : DataType) : promote .null b = .ok b := by
  cases b with
  | primitive q => rw [promote, Primitive.join?_null_left]
  | array | struct | map => rfl

@[simp] theorem promote_null_right (a : DataType) : promote a .null = .ok a := by
  cases a with
  | primitive p => rw [promote, Primitive.join?_null_right]
  | array | struct | map => rfl

/-- A null can be cast to every type. -/
theorem castable_null (b : DataType) : castable .null b = true := by
  cases b with
  | primitive p => simp [castable, Primitive.castable]
  | array | struct | map => rfl

private theorem promoteColumns_eq_ok_iff {whole : Mismatch} {cs ds es : List (Column DataType)}
    (h : cs.length = ds.length) : promoteColumns whole cs ds = .ok es ↔ ColumnsPromote cs ds es := by
  induction cs generalizing ds es with
  | nil =>
    obtain rfl := List.length_eq_zero_iff.1 h.symm
    constructor
    · intro hes
      obtain rfl := Except.ok.inj hes
      exact .nil
    · rintro ⟨⟩
      rfl
  | cons column cs ih =>
    obtain ⟨column', ds, rfl⟩ := List.exists_cons_of_length_eq_add_one h.symm
    obtain ⟨name, t, nullable⟩ := column
    obtain ⟨name', t', nullable'⟩ := column'
    have htail (es) : promoteColumns whole cs ds = .ok es ↔ ColumnsPromote cs ds es := ih (Nat.succ.inj h)
    rw [promoteColumns]
    constructor
    · intro hes
      split at hes
      · rename_i hname
        obtain ⟨u, hu, hes⟩ := bind_eq_ok.1 hes
        obtain ⟨us, hus, hes⟩ := bind_eq_ok.1 hes
        obtain rfl := Except.ok.inj hes
        obtain rfl := hname
        exact .cons hu ((htail us).1 hus)
      · cases hes
    · intro hes
      cases hes with
      | cons head tail => rw [if_pos rfl, head, (htail _).2 tail]; rfl

private theorem ColumnsPromote.length_eq {cs ds es : List (Column DataType)} (h : ColumnsPromote cs ds es) :
    cs.length = ds.length := by
  induction h with
  | nil => rfl
  | cons _ _ ih => rw [List.length_cons, List.length_cons, ih]

/-- A common type comes about by the rules, and only by these. -/
theorem promote_eq_ok_iff : promote a b = .ok c ↔ Promotes a b c := by
  -- one case for each branch, and one for each rule in the other direction
  constructor
  · intro h
    unfold promote at h
    split at h
    · split at h
      · rename_i hjoin
        obtain rfl := Except.ok.inj h
        exact .primitive hjoin
      · cases h
    · obtain rfl := Except.ok.inj h
      exact .nullLeft _
    · obtain rfl := Except.ok.inj h
      exact .nullRight _
    · obtain ⟨t, ht, rfl⟩ := map_eq_ok.1 h
      exact .array ht
    · obtain ⟨key, hkey, h⟩ := bind_eq_ok.1 h
      obtain ⟨value, hvalue, h⟩ := bind_eq_ok.1 h
      obtain rfl := Except.ok.inj h
      exact .map hkey hvalue
    · split at h
      · rename_i hlength
        obtain ⟨es, hes, rfl⟩ := map_eq_ok.1 h
        exact .struct ((promoteColumns_eq_ok_iff hlength).1 hes)
      · cases h
    · cases h
  · intro h
    cases h with
    | nullLeft => exact promote_null_left b
    | nullRight => exact promote_null_right a
    | primitive h => rw [promote, h]
    | array item => rw [promote, item]; rfl
    | map key value => rw [promote, key, value]; rfl
    | struct columns =>
      rw [promote, if_pos columns.length_eq, (promoteColumns_eq_ok_iff columns.length_eq).2 columns]
      rfl

private theorem ColumnsPromote.symm {cs ds es : List (Column DataType)} (h : ColumnsPromote cs ds es)
    (hcolumns : ∀ column ∈ cs, ∀ b c, promote column.type b = .ok c → promote b column.type = .ok c) :
    ColumnsPromote ds cs es := by
  induction h with
  | nil => exact .nil
  | cons head _ ih =>
    obtain ⟨hcolumn, hcolumns⟩ := List.forall_mem_cons.1 hcolumns
    rw [Bool.or_comm]
    exact .cons (hcolumn _ _ head) (ih hcolumns)

/-- The order of two types does not matter for their common type. -/
theorem promote_comm (h : promote a b = .ok c) : promote b a = .ok c := by
  induction a using DataType.induction generalizing b c with
  | primitive p =>
    cases promote_eq_ok_iff.1 h with
    | nullLeft => exact promote_null_right b
    | nullRight => exact promote_null_left _
    | primitive hjoin => exact promote_eq_ok_iff.2 (.primitive (by rw [Primitive.join?_comm, hjoin]))
  | array item ih =>
    cases promote_eq_ok_iff.1 h with
    | nullRight => exact promote_null_left _
    | array item => exact promote_eq_ok_iff.2 (.array (ih item))
  | map key value ihkey ihvalue =>
    cases promote_eq_ok_iff.1 h with
    | nullRight => exact promote_null_left _
    | map key value => exact promote_eq_ok_iff.2 (.map (ihkey key) (ihvalue value))
  | struct columns ih =>
    cases promote_eq_ok_iff.1 h with
    | nullRight => exact promote_null_left _
    | struct columns => exact promote_eq_ok_iff.2 (.struct (columns.symm fun column hcolumn _ _ => ih column hcolumn))

/-! ### Comparable types -/

/-- Types can be compared just if they have a common type. -/
theorem comparable_iff : a.comparable b = true ↔ Succeeds (promote a b) := by
  unfold comparable
  cases promote a b <;> simp

private theorem succeeds_promote_iff : Succeeds (promote a b) ↔ ∃ c, Promotes a b c :=
  exists_congr fun _ => promote_eq_ok_iff

private theorem succeeds_promote_primitive {p q : Primitive} :
    Succeeds (promote (.primitive p) (.primitive q)) ↔ (p.join? q).isSome = true := by
  rw [promote]
  cases p.join? q <;> simp

/-- Among the primitive types, only that of null is comparable with built types. -/
private theorem succeeds_promote_built {p : Primitive} (hb : ∀ q, b ≠ .primitive q) :
    Succeeds (promote (.primitive p) b) ↔ p = .null := by
  rw [succeeds_promote_iff]
  constructor
  · rintro ⟨c, h⟩
    cases h with
    | nullLeft => rfl
    | nullRight | primitive => exact absurd rfl (hb _)
  · rintro rfl
    exact ⟨b, .nullLeft b⟩

private theorem succeeds_promote_array :
    Succeeds (promote (.array a) b) ↔ b = .null ∨ ∃ item, b = .array item ∧ Succeeds (promote a item) := by
  rw [succeeds_promote_iff]
  constructor
  · rintro ⟨c, h⟩
    cases h with
    | nullRight => exact .inl rfl
    | array item => exact .inr ⟨_, rfl, _, item⟩
  · rintro (rfl | ⟨item, rfl, c, h⟩)
    · exact ⟨_, .nullRight _⟩
    · exact ⟨_, .array h⟩

private theorem succeeds_promote_map {k v : DataType} :
    Succeeds (promote (.map k v) b) ↔
      b = .null ∨ ∃ k' v', b = .map k' v' ∧ Succeeds (promote k k') ∧ Succeeds (promote v v') := by
  rw [succeeds_promote_iff]
  constructor
  · rintro ⟨c, h⟩
    cases h with
    | nullRight => exact .inl rfl
    | map key value => exact .inr ⟨_, _, rfl, ⟨_, key⟩, ⟨_, value⟩⟩
  · rintro (rfl | ⟨k', v', rfl, ⟨_, key⟩, ⟨_, value⟩⟩)
    · exact ⟨_, .nullRight _⟩
    · exact ⟨_, .map key value⟩

/-- Columns of the same name with a common type. -/
abbrev ColumnComparable (column column' : Column DataType) : Prop :=
  column.name = column'.name ∧ Succeeds (promote column.type column'.type)

private theorem exists_columnsPromote_iff {cs ds : List (Column DataType)} :
    (∃ es, ColumnsPromote cs ds es) ↔ List.Forall₂ ColumnComparable cs ds := by
  constructor
  · rintro ⟨es, h⟩
    induction h with
    | nil => exact .nil
    | cons head _ ih => exact .cons ⟨rfl, _, head⟩ ih
  · intro h
    induction h with
    | nil => exact ⟨[], .nil⟩
    | @cons column column' _ _ head _ ih =>
      obtain ⟨name, t, nullable⟩ := column
      obtain ⟨name', t', nullable'⟩ := column'
      obtain ⟨rfl : name = name', u, hu⟩ := head
      obtain ⟨es, hes⟩ := ih
      exact ⟨_, .cons hu hes⟩

private theorem succeeds_promote_struct {cs : List (Column DataType)} :
    Succeeds (promote (.struct cs) b) ↔ b = .null ∨ ∃ ds, b = .struct ds ∧ List.Forall₂ ColumnComparable cs ds := by
  simp only [succeeds_promote_iff, ← exists_columnsPromote_iff]
  constructor
  · rintro ⟨c, h⟩
    cases h with
    | nullRight => exact .inl rfl
    | struct columns => exact .inr ⟨_, rfl, _, columns⟩
  · rintro (rfl | ⟨ds, rfl, es, columns⟩)
    · exact ⟨_, .nullRight _⟩
    · exact ⟨_, .struct columns⟩

private theorem ColumnsPromote.forall₂_iff {cs ds es : List (Column DataType)} (h : ColumnsPromote cs ds es)
    (hcolumns : ∀ column ∈ cs, ∀ b c, promote column.type b = .ok c → ∀ d,
      Succeeds (promote c d) ↔ Succeeds (promote column.type d) ∧ Succeeds (promote b d))
    (fs : List (Column DataType)) :
    List.Forall₂ ColumnComparable es fs ↔
      List.Forall₂ ColumnComparable cs fs ∧ List.Forall₂ ColumnComparable ds fs := by
  induction h generalizing fs with
  | nil => simp
  | cons head _ ih =>
    obtain ⟨hcolumn, hcolumns⟩ := List.forall_mem_cons.1 hcolumns
    cases fs with
    | nil => simp
    | cons f fs =>
      simp only [List.forall₂_cons, ColumnComparable, hcolumn _ _ head, ih hcolumns]
      tauto

/-- The common type of two types is comparable with exactly what both of them are comparable with. -/
theorem succeeds_promote_promote (h : promote a b = .ok c) (d : DataType) :
    Succeeds (promote c d) ↔ Succeeds (promote a d) ∧ Succeeds (promote b d) := by
  induction a using DataType.induction generalizing b c d with
  | primitive p =>
    cases promote_eq_ok_iff.1 h with
    | nullLeft | nullRight => simp
    | primitive hjoin =>
      cases d with
      | primitive s => simpa only [succeeds_promote_primitive] using Primitive.isSome_join?_join? hjoin s
      | array | struct | map => simp [succeeds_promote_built, Primitive.eq_null_iff_of_join? hjoin]
  | array item ih =>
    cases promote_eq_ok_iff.1 h with
    | nullRight => simp
    | array item =>
      simp only [succeeds_promote_array]
      cases d <;> simp [ih item]
  | map key value ihkey ihvalue =>
    cases promote_eq_ok_iff.1 h with
    | nullRight => simp
    | map key value =>
      simp only [succeeds_promote_map]
      cases d <;> simp [ihkey key, ihvalue value, and_and_and_comm]
  | struct columns ih =>
    cases promote_eq_ok_iff.1 h with
    | nullRight => simp
    | struct columns =>
      simp only [succeeds_promote_struct]
      cases d <;> simp [columns.forall₂_iff fun column hcolumn _ _ => ih column hcolumn]

/-- A list of types has a common type together with `a` if any two of them have one. -/
private theorem succeeds_foldlM_promote {types : List DataType} :
    Succeeds (types.foldlM promote a) ↔
      (∀ t ∈ types, Succeeds (promote a t)) ∧ types.Pairwise fun t u => Succeeds (promote t u) := by
  induction types generalizing a with
  | nil => simp [pure, Except.pure]
  | cons t types ih =>
    rw [List.foldlM_cons, List.forall_mem_cons, List.pairwise_cons]
    have hstep : ∀ c, promote a t = .ok c → (Succeeds (types.foldlM promote c) ↔
        (∀ u ∈ types, Succeeds (promote a u) ∧ Succeeds (promote t u)) ∧
          types.Pairwise fun t u => Succeeds (promote t u)) := by
      intro c hc
      rw [ih, forall₂_congr fun u _ => succeeds_promote_promote hc u]
    rw [succeeds_bind hstep]
    simp only [imp_and, forall_and]
    tauto

/-- Whether two types have a common type does not depend on their order. -/
theorem succeeds_promote_symm : Succeeds (promote a b) ↔ Succeeds (promote b a) :=
  exists_congr fun _ => ⟨promote_comm, promote_comm⟩

private theorem ColumnsPromote.self {cs : List (Column DataType)}
    (hcolumns : ∀ column ∈ cs, promote column.type column.type = .ok column.type) : ColumnsPromote cs cs cs := by
  induction cs with
  | nil => exact .nil
  | cons column cs ih =>
    obtain ⟨name, t, nullable⟩ := column
    obtain ⟨hcolumn, hcolumns⟩ := List.forall_mem_cons.1 hcolumns
    have hcons := @ColumnsPromote.cons name t t t nullable nullable cs cs cs hcolumn (ih hcolumns)
    rwa [Bool.or_self] at hcons

/-- Every type is the common type of itself and itself. -/
theorem promote_self (a : DataType) : promote a a = .ok a := by
  rw [promote_eq_ok_iff]
  induction a using DataType.induction with
  | primitive p => exact .primitive (Primitive.join?_self p)
  | array item ih => exact .array (promote_eq_ok_iff.2 ih)
  | map key value ihkey ihvalue => exact .map (promote_eq_ok_iff.2 ihkey) (promote_eq_ok_iff.2 ihvalue)
  | struct columns ih => exact .struct (.self fun column hcolumn => promote_eq_ok_iff.2 (ih column hcolumn))

private theorem succeeds_promote_self (a : DataType) : Succeeds (promote a a) := ⟨a, promote_self a⟩

end DataType

/-! ### Lists of values -/

/-- The type of several nodes is found by going through their types from the left. -/
theorem unify_eq_foldlM (nodes : List Node) : unify nodes = (nodes.map (·.type)).foldlM DataType.promote .null := by
  rw [List.foldlM_map]
  rfl

/-- Values have a common type if any two of them have one. -/
theorem succeeds_unify_iff {nodes : List Node} :
    Succeeds (unify nodes) ↔ ∀ m ∈ nodes, ∀ n ∈ nodes, m.type.comparable n.type = true := by
  rw [unify_eq_foldlM, DataType.succeeds_foldlM_promote, List.pairwise_map]
  simp only [DataType.promote_null_left, succeeds_ok, implies_true, true_and, DataType.comparable_iff]
  constructor
  · intro h
    exact h.forall_of_forall_of_flip (fun n _ => DataType.succeeds_promote_self n.type)
      (h.imp DataType.succeeds_promote_symm.1)
  · exact List.pairwise_of_forall_mem_list

/-! ### Cases -/

section

variable {conditions results : List Node} {base default : Node}

private theorem succeeds_new?_iff {op : Op Node} : Succeeds (Node.new? op) ↔ op.Placed ∧ ∃ t, op.HasType t := by
  rw [← exists_and_left, Node.new?, succeeds_bind_pure]
  exact exists_congr fun _ => Op.type?_eq_ok_iff

/-- When a case with conditions can be built. -/
theorem succeeds_searchedCase_iff :
    Succeeds (Node.new? (.searchedCase conditions results default)) ↔
      (0 < conditions.length ∧ conditions.length = results.length) ∧
        (∀ n ∈ conditions, n.isRelation = false ∧ n.type.isBoolean = true) ∧
        (∀ n ∈ results ++ [default], n.isRelation = false) ∧
        ∀ m ∈ results ++ [default], ∀ n ∈ results ++ [default], m.type.comparable n.type = true := by
  rw [succeeds_new?_iff, ← succeeds_unify_iff]
  simp only [Op.Placed, Op.relation?, Op.arguments, Op.children, Op.HasType, List.append_assoc,
    List.forall_mem_append, forall_and, exists_and_left, Succeeds]
  grind

/-- When a case with an operand can be built. -/
theorem succeeds_simpleCase_iff :
    Succeeds (Node.new? (.simpleCase base conditions results default)) ↔
      (0 < conditions.length ∧ conditions.length = results.length) ∧ base.isRelation = false ∧
        (∀ n ∈ conditions, n.isRelation = false ∧ base.type.comparable n.type = true) ∧
        (∀ n ∈ results ++ [default], n.isRelation = false) ∧
        ∀ m ∈ results ++ [default], ∀ n ∈ results ++ [default], m.type.comparable n.type = true := by
  rw [succeeds_new?_iff, ← succeeds_unify_iff]
  simp only [Op.Placed, Op.relation?, Op.arguments, Op.children, Op.HasType, List.append_assoc,
    List.forall_mem_cons, List.forall_mem_append, forall_and, exists_and_left, Succeeds]
  grind

end

section

variable {branches branches' : List (Node × Node)} (h : branches.Perm branches') (default : Node)

include h

private theorem succeeds_searchedCase_perm :
    Succeeds (Node.new? (.searchedCase (branches.map (·.1)) (branches.map (·.2)) default)) ↔
      Succeeds (Node.new? (.searchedCase (branches'.map (·.1)) (branches'.map (·.2)) default)) := by
  have hconditions := h.map (·.1)
  have hresults := (h.map (·.2)).append_right [default]
  simp only [succeeds_searchedCase_iff, hconditions.length_eq, (h.map (·.2)).length_eq,
    hconditions.mem_iff, hresults.mem_iff]

private theorem succeeds_simpleCase_perm (base : Node) :
    Succeeds (Node.new? (.simpleCase base (branches.map (·.1)) (branches.map (·.2)) default)) ↔
      Succeeds (Node.new? (.simpleCase base (branches'.map (·.1)) (branches'.map (·.2)) default)) := by
  have hconditions := h.map (·.1)
  have hresults := (h.map (·.2)).append_right [default]
  simp only [succeeds_simpleCase_iff, hconditions.length_eq, (h.map (·.2)).length_eq,
    hconditions.mem_iff, hresults.mem_iff]

end

/-- The common type of two types is comparable with exactly what both of them are comparable with. So a list of values
has a common type exactly if any two of them are comparable, and the order of its branches does not decide whether a
case has a type. -/
theorem comparable_promote_unify :
    (∀ a b c : DataType, a.promote b = .ok c →
      ∀ d, c.comparable d = true ↔ a.comparable d = true ∧ b.comparable d = true) ∧
    (∀ nodes : List Node, Succeeds (unify nodes) ↔
      ∀ m ∈ nodes, ∀ n ∈ nodes, m.type.comparable n.type = true) ∧
    ∀ branches branches' : List (Node × Node), branches.Perm branches' → ∀ default : Node,
      (Succeeds (Node.new? (.searchedCase (branches.map (·.1)) (branches.map (·.2)) default)) ↔
        Succeeds (Node.new? (.searchedCase (branches'.map (·.1)) (branches'.map (·.2)) default))) ∧
      ∀ base : Node,
        (Succeeds (Node.new? (.simpleCase base (branches.map (·.1)) (branches.map (·.2)) default)) ↔
          Succeeds (Node.new? (.simpleCase base (branches'.map (·.1)) (branches'.map (·.2)) default))) := by
  refine ⟨fun a b c h d => ?_, fun nodes => succeeds_unify_iff, fun branches branches' h default => ?_⟩
  · simp only [DataType.comparable_iff, DataType.succeeds_promote_promote h]
  · exact ⟨succeeds_searchedCase_perm h default, fun base => succeeds_simpleCase_perm h default base⟩

/-- Two structs with a date and a timestamp come to a struct with a timestamp, which is comparable with a struct that
says nothing about the time. -/
theorem comparable_promote_unify_dates :
    DataType.promote (.struct [⟨"x", .int .w8, true⟩, ⟨"at", .date, false⟩])
        (.struct [⟨"x", .uint .w8, false⟩, ⟨"at", .timestamp none, false⟩]) =
      .ok (.struct [⟨"x", .int .w16, true⟩, ⟨"at", .timestamp none, false⟩]) ∧
    DataType.comparable (.struct [⟨"x", .int .w16, true⟩, ⟨"at", .timestamp none, false⟩])
      (.struct [⟨"x", .float32, true⟩, ⟨"at", .null, true⟩]) = true := by
  have h : DataType.promote (.struct [⟨"x", .int .w8, true⟩, ⟨"at", .date, false⟩])
        (.struct [⟨"x", .uint .w8, false⟩, ⟨"at", .timestamp none, false⟩]) =
      .ok (.struct [⟨"x", .int .w16, true⟩, ⟨"at", .timestamp none, false⟩]) := rfl
  exact ⟨h, (comparable_promote_unify.1 _ _ _ h _).2 ⟨rfl, rfl⟩⟩

end SqlPlan
