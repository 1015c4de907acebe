import SqlPlan.Compiler.Relation
import SqlPlan.Proofs.NodeText
import SqlPlan.Proofs.SignedZeros

/-!
# Equality of nodes

Equality of nodes compares floats as numbers, so it does not see the signs of zeros, which the text of a node and its
SQL show. Equal nodes have the same document up to these signs.

* `Node.unsigned_toJson`: the documents of equal nodes.
* `Node.canonical_eq_iff_of_beq`: when equal nodes have the same text, and with it the same digest and the same SQL.
-/

namespace SqlPlan

/-! ### Values -/

namespace Value

variable {v w : Value}

/-- Equal values are the same up to the signs of zeros. -/
private theorem beq_cases (h : v.beq w = true) :
    v = w ∨ (∃ x y, v = .float x ∧ w = .float y ∧ isZero x = true ∧ isZero y = true) ∨
      ∃ vs ws, v = .array vs ∧ w = .array ws ∧ beqAll vs ws = true := by
  unfold beq at h
  split at h
  case h_1 => exact .inl rfl
  case h_5 x y =>
    rcases eq_or_isZero_of_floatEq h with rfl | hzero
    · exact .inl rfl
    · exact .inr (.inl ⟨x, y, rfl, rfl, hzero⟩)
  case h_13 vs ws => exact .inr (.inr ⟨vs, ws, rfl, rfl, h⟩)
  case h_14 => cases h
  all_goals exact .inl (by rw [eq_of_beq h])

private theorem beqAll_iff {vs ws : List Value} :
    beqAll vs ws = true ↔ List.Forall₂ (fun v w => v.beq w = true) vs ws := by
  induction vs generalizing ws with
  | nil => cases ws <;> simp [beqAll]
  | cons v vs ih => cases ws <;> simp [beqAll, ih]

/-- The documents of equal values differ in the signs of zeros only. -/
theorem unsigned_toJson (h : v.beq w = true) : v.toJson.unsigned = w.toJson.unsigned := by
  induction v using Value.induction generalizing w with
  | step v ih =>
    rcases beq_cases h with rfl | ⟨x, y, rfl, rfl, hx, hy⟩ | ⟨vs, ws, rfl, rfl, hitems⟩
    · rfl
    · have hfloat : ∀ z, isZero z = true → (toJson (.float z)).unsigned = tagged "Float" (.float 0) := by
        intro z hz
        have hfinite := finite_of_isZero hz
        rw [toJson, floatToJson, hfinite.1, hfinite.2]
        simp only [Bool.false_eq_true, if_false, tagged, Json.unsigned, Json.unsignedMembers, hz, if_true]
      rw [hfloat x hx, hfloat y hy]
    · have hitems := Json.unsignedItems_map (beqAll_iff.1 hitems) fun v hv w => ih vs rfl v hv
      simp only [toJson, tagged, Json.unsigned, Json.unsignedMembers, itemsToJson_eq_map, hitems]

end Value

/-! ### Nodes -/

namespace Node

private theorem beqAll_iff {ns ms : List Node} :
    beqAll ns ms = true ↔ List.Forall₂ (fun n m => n.beq m = true) ns ms := by
  induction ns generalizing ms with
  | nil => cases ms <;> simp [beqAll]
  | cons n ns ih => cases ms <;> simp [beqAll, ih]

private theorem beqKeys_iff {keys keys' : List (SortKey Node)} :
    beqKeys keys keys' = true ↔
      List.Forall₂ (fun key key' => key.expr.beq key'.expr = true ∧ key.ascending = key'.ascending) keys keys' := by
  induction keys generalizing keys' with
  | nil => cases keys' <;> simp [beqKeys]
  | cons key keys ih =>
    cases keys' with
    | nil => simp [beqKeys]
    | cons key' keys' =>
      obtain ⟨expr, ascending⟩ := key
      obtain ⟨expr', ascending'⟩ := key'
      simp [beqKeys, ih]

private theorem beqNamed_iff {values values' : List (Named Node)} :
    beqNamed values values' = true ↔
      List.Forall₂ (fun named named' => named.name = named'.name ∧ named.value.beq named'.value = true) values
        values' := by
  induction values generalizing values' with
  | nil => cases values' <;> simp [beqNamed]
  | cons named values ih =>
    cases values' with
    | nil => simp [beqNamed]
    | cons named' values' =>
      obtain ⟨name, value⟩ := named
      obtain ⟨name', value'⟩ := named'
      simp [beqNamed, ih]

/-- A node has the document of every node that it equals, up to the signs of zeros. -/
def ShowsEquals (n : Node) : Prop := ∀ m, n.beq m = true → n.toJson.unsigned = m.toJson.unsigned

section

variable {ns ms : List Node} {keys keys' : List (SortKey Node)} {values values' : List (Named Node)}

private theorem unsigned_listToJson (hns : ∀ n ∈ ns, n.ShowsEquals) (h : beqAll ns ms = true) :
    Json.unsignedItems (listToJson ns) = Json.unsignedItems (listToJson ms) := by
  rw [listToJson_eq_map, listToJson_eq_map]
  exact Json.unsignedItems_map (beqAll_iff.1 h) hns

private theorem unsigned_keysToJson (hkeys : ∀ key ∈ keys, key.expr.ShowsEquals) (h : beqKeys keys keys' = true) :
    Json.unsignedItems (keysToJson keys) = Json.unsignedItems (keysToJson keys') := by
  rw [keysToJson_eq_map, keysToJson_eq_map]
  refine Json.unsignedItems_map (beqKeys_iff.1 h) fun key hkey key' ⟨hexpr, hascending⟩ => ?_
  simp only [keyToJson, Json.unsigned, Json.unsignedMembers, hkeys key hkey _ hexpr, hascending]

private theorem unsigned_namedToJson (hvalues : ∀ named ∈ values, named.value.ShowsEquals)
    (h : beqNamed values values' = true) :
    Json.unsignedItems (namedToJson values) = Json.unsignedItems (namedToJson values') := by
  rw [namedToJson_eq_map, namedToJson_eq_map]
  refine Json.unsignedItems_map (beqNamed_iff.1 h) fun named hnamed named' ⟨hname, hvalue⟩ => ?_
  simp only [namedValueToJson, Json.unsigned, Json.unsignedMembers, hvalues named hnamed _ hvalue, hname]

private theorem unsigned_optionToJson {key : String} {condition condition' : Option Node}
    (hcondition : ∀ n ∈ condition, n.ShowsEquals) (h : beqOption condition condition' = true) :
    Json.unsignedMembers (Json.ifPresent key (optionToJson condition)) =
      Json.unsignedMembers (Json.ifPresent key (optionToJson condition')) := by
  cases condition <;> cases condition' <;> simp only [beqOption] at h
  · rfl
  · simp at h
  · simp at h
  · rename_i n m
    simp only [optionToJson, Json.ifPresent, Json.unsignedMembers, hcondition n rfl m h]

end

/-- Equal operations have the same members up to the signs of zeros. -/
private theorem unsigned_members {op op' : Op Node} (hinputs : ∀ n ∈ op.children, n.ShowsEquals)
    (h : beqOp op op' = true) :
    op.tag = op'.tag ∧ Json.unsignedMembers (members op) = Json.unsignedMembers (members op') := by
  rw [beqOp.eq_def] at h
  -- only operations of one kind are equal, which leaves one case for each kind
  cases op <;> dsimp only at h <;> split at h <;>
    simp only [Bool.and_eq_true, beq_iff_eq, Bool.false_eq_true] at h <;>
    simp only [Op.children, List.forall_mem_cons, List.forall_mem_append, List.forall_mem_map] at hinputs
  next value type _ value' _ =>
    obtain ⟨hvalue, rfl⟩ := h
    exact ⟨rfl, by simp only [members, Json.unsignedMembers, Value.unsigned_toJson hvalue]⟩
  next type _ type' => exact ⟨rfl, by rw [h]⟩
  next relation name _ relation' _ =>
    obtain ⟨hrelation, rfl⟩ := h
    exact ⟨rfl, by simp only [members, Json.unsignedMembers, hinputs.1 relation' hrelation]⟩
  next arg target _ arg' _ =>
    obtain ⟨harg, rfl⟩ := h
    exact ⟨rfl, by simp only [members, Json.unsignedMembers, hinputs.1 arg' harg]⟩
  next func left right _ _ left' right' =>
    obtain ⟨⟨rfl, hleft⟩, hright⟩ := h
    exact ⟨rfl, by simp only [members, Json.unsignedMembers, hinputs.1 left' hleft, hinputs.2.1 right' hright]⟩
  next func arg _ _ arg' =>
    obtain ⟨rfl, harg⟩ := h
    exact ⟨rfl, by simp only [members, Json.unsignedMembers, hinputs.1 arg' harg]⟩
  next base conditions results default _ base' conditions' results' default' =>
    obtain ⟨⟨⟨hbase, hconditions⟩, hresults⟩, hdefault⟩ := h
    obtain ⟨hbases, ⟨hconditionss, hresultss⟩, hdefaults, -⟩ := hinputs
    exact ⟨rfl, by simp only [members, Json.unsignedMembers, Json.unsigned, hbases base' hbase,
      unsigned_listToJson hconditionss hconditions, unsigned_listToJson hresultss hresults,
      hdefaults default' hdefault]⟩
  next conditions results default _ conditions' results' default' =>
    obtain ⟨⟨hconditions, hresults⟩, hdefault⟩ := h
    obtain ⟨⟨hconditionss, hresultss⟩, hdefaults, -⟩ := hinputs
    exact ⟨rfl, by simp only [members, Json.unsignedMembers, Json.unsigned,
      unsigned_listToJson hconditionss hconditions, unsigned_listToJson hresultss hresults,
      hdefaults default' hdefault]⟩
  next clock arg unit _ _ arg' _ =>
    obtain ⟨⟨rfl, harg⟩, rfl⟩ := h
    refine ⟨?_, by simp only [members, Json.unsignedMembers, hinputs.1 arg' harg]⟩
    cases clock <;> rfl
  next year month day _ year' month' day' =>
    obtain ⟨⟨hyear, hmonth⟩, hday⟩ := h
    obtain ⟨hyears, hmonths, hdays, -⟩ := hinputs
    exact ⟨rfl, by simp only [members, Json.unsignedMembers, hyears year' hyear, hmonths month' hmonth,
      hdays day' hday]⟩
  next source _ source' => exact ⟨by rw [h], by rw [h]⟩
  next arg unit _ arg' _ =>
    obtain ⟨harg, rfl⟩ := h
    exact ⟨rfl, by simp only [members, Json.unsignedMembers, hinputs.1 arg' harg]⟩
  next func arg condition _ _ arg' condition' =>
    obtain ⟨⟨rfl, harg⟩, hcondition⟩ := h
    exact ⟨rfl, by simp only [members, Json.unsignedMembers, hinputs.1 arg' harg,
      unsigned_optionToJson (by simpa using hinputs.2) hcondition]⟩
  next func arg condition order _ _ arg' condition' order' =>
    obtain ⟨⟨⟨rfl, harg⟩, hcondition⟩, horder⟩ := h
    obtain ⟨hargs, hconditions, hkeys⟩ := hinputs
    exact ⟨rfl, by simp only [members, Json.unsignedMembers, Json.unsignedMembers_append, hargs arg' harg,
      unsigned_optionToJson (by simpa using hconditions) hcondition,
      Json.unsignedMembers_unlessEmpty (unsigned_keysToJson hkeys horder)]⟩
  next left right mode condition _ left' right' _ condition' =>
    obtain ⟨⟨⟨hleft, hright⟩, rfl⟩, hcondition⟩ := h
    obtain ⟨hlefts, hrights, hconditions⟩ := hinputs
    exact ⟨rfl, by simp only [members, Json.unsignedMembers, hlefts left' hleft, hrights right' hright,
      unsigned_optionToJson (by simpa using hconditions) hcondition]⟩
  next name schema _ _ _ =>
    obtain ⟨rfl, rfl⟩ := h
    exact ⟨rfl, rfl⟩
  next parent values _ parent' values' =>
    obtain ⟨hparent, hvalues⟩ := h
    exact ⟨rfl, by simp only [members, Json.unsignedMembers, Json.unsigned, hinputs.1 parent' hparent,
      unsigned_namedToJson hinputs.2 hvalues]⟩
  next parent predicates _ parent' predicates' =>
    obtain ⟨hparent, hpredicates⟩ := h
    exact ⟨rfl, by simp only [members, Json.unsignedMembers, Json.unsigned, hinputs.1 parent' hparent,
      unsigned_listToJson hinputs.2 hpredicates]⟩
  next parent groups metrics _ parent' groups' metrics' =>
    obtain ⟨⟨hparent, hgroups⟩, hmetrics⟩ := h
    obtain ⟨hparents, hgroupss, hmetricss⟩ := hinputs
    exact ⟨rfl, by simp only [members, Json.unsignedMembers, Json.unsignedMembers_append, Json.unsigned,
      hparents parent' hparent, Json.unsignedMembers_unlessEmpty (unsigned_namedToJson hgroupss hgroups),
      unsigned_namedToJson hmetricss hmetrics]⟩
  next parent keys _ parent' keys' =>
    obtain ⟨hparent, hkeys⟩ := h
    exact ⟨rfl, by simp only [members, Json.unsignedMembers, Json.unsigned, hinputs.1 parent' hparent,
      unsigned_keysToJson hinputs.2 hkeys]⟩
  next parent count offset _ parent' _ _ =>
    obtain ⟨⟨hparent, rfl⟩, rfl⟩ := h
    exact ⟨rfl, by simp only [members, Json.unsignedMembers, hinputs.1 parent' hparent]⟩

/-- Equal nodes have the same document up to the signs of zeros. -/
theorem unsigned_toJson (n : Node) : n.ShowsEquals := by
  induction n using Node.induction with
  | step n ih =>
    intro m h
    obtain ⟨op, type, shape⟩ := n
    obtain ⟨op', type', shape'⟩ := m
    simp only [beq, Bool.and_eq_true, beq_iff_eq] at h
    obtain ⟨htag, hmembers⟩ := unsigned_members ih h.1.1
    simp only [toJson, Json.unsigned, Json.unsignedMembers, htag, hmembers]

private theorem toJson_injective {a b : Node} (ha : a.Valid) (hb : b.Valid) (h : a.toJson = b.toJson) : a = b := by
  have hread := ofJson_toJson ha
  rw [h, ofJson_toJson hb] at hread
  exact (Except.ok.inj hread).symm

/-- The signs of the zeros among the literals of a node, in the order of its text. -/
def zeroSigns (n : Node) : List Bool := n.toJson.zeroSigns

/-- Equal nodes have the same text exactly if the zeros among their literals have the same signs. Then they have the
same digest, too, and every compiler gives the same SQL or the same error for both. -/
theorem canonical_eq_iff_of_beq {a b : Node} (ha : a.Valid) (hb : b.Valid) (h : (a == b) = true) :
    (a.canonical = b.canonical ↔ a.zeroSigns = b.zeroSigns) ∧
      (a.zeroSigns = b.zeroSigns → a.fingerprint = b.fingerprint ∧ ∀ c : Compiler, c.compile a = c.compile b) := by
  have hdoc : a.toJson.unsigned = b.toJson.unsigned := unsigned_toJson a b h
  have hsigns : a.zeroSigns = b.zeroSigns ↔ a.toJson = b.toJson := Json.zeroSigns_eq_iff hdoc
  refine ⟨(Json.compact_eq_iff hdoc).trans hsigns.symm, fun heq => ?_⟩
  obtain rfl := toJson_injective ha hb (hsigns.1 heq)
  exact ⟨rfl, fun _ => rfl⟩

/-- A float as a literal. -/
def ofFloat (x : Float) : Node := ⟨.literal (.float x) .float64, .float64, .scalar⟩

private theorem ofFloat_valid (x : Float) : (ofFloat x).Valid := ⟨by simp [children, ofFloat, Op.children], rfl⟩

def sumOf (x y : Float) : Node := ⟨.binary .add (ofFloat x) (ofFloat y), .float64, .scalar⟩

private theorem sumOf_valid (x y : Float) : (sumOf x y).Valid :=
  ⟨by simp [children, sumOf, Op.children, ofFloat_valid], rfl⟩

/-- Sums of zeros of different signs are equal in whatever order they stand, but their texts are not. -/
theorem canonical_eq_iff_of_beq_sumOf :
    (sumOf 0.0 (-0.0) == sumOf (-0.0) 0.0) = true ∧ (sumOf 0.0 (-0.0)).zeroSigns = [false, true] ∧
      (sumOf (-0.0) 0.0).zeroSigns = [true, false] ∧ (sumOf 0.0 (-0.0)).canonical ≠ (sumOf (-0.0) 0.0).canonical := by
  have hbeq : (sumOf 0.0 (-0.0) == sumOf (-0.0) 0.0) = true := by decide +kernel
  have hleft : (sumOf 0.0 (-0.0)).zeroSigns = [false, true] := by rfl
  have hright : (sumOf (-0.0) 0.0).zeroSigns = [true, false] := by rfl
  refine ⟨hbeq, hleft, hright, fun htext => ?_⟩
  have hsigns := (canonical_eq_iff_of_beq (sumOf_valid _ _) (sumOf_valid _ _) hbeq).1.1 htext
  rw [hleft, hright] at hsigns
  exact absurd hsigns (by decide)

/-- The two zeros are equal, but neither their texts nor their SQL is. -/
theorem beq_zeros :
    (ofFloat 0.0).Valid ∧ (ofFloat (-0.0)).Valid ∧ (ofFloat 0.0 == ofFloat (-0.0)) = true ∧
      (ofFloat 0.0).canonical ≠ (ofFloat (-0.0)).canonical ∧
      (Compiler.base.compile (ofFloat 0.0)).map (·.text) = .ok "0.0" ∧
      (Compiler.base.compile (ofFloat (-0.0))).map (·.text) = .ok "-0.0" := by
  refine ⟨ofFloat_valid _, ofFloat_valid _, by decide +kernel, by decide +kernel, by rfl, by rfl⟩

end Node

end SqlPlan
