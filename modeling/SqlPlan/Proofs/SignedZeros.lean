import SqlPlan.Proofs.Documents

/-!
# The signs of zeros

Two floats that are equal as numbers are the same float, unless they are the two zeros. So documents that are equal up
to the signs of zeros are the same if their zeros have the same signs, in the same order, and the text of a document
shows these signs.

* `eq_or_isZero_of_floatEq`: equal floats.
* `Json.Shows.tells`: a text that shows the signs of zeros tells such documents apart.
* `Json.compact_eq_iff`, `Json.zeroSigns_eq_iff`: the text and the list of the signs do.
-/

namespace SqlPlan

/-! ### Floats -/

section

open Float.Model

/-- Equal numbers are equal floats, or both are zeros. -/
private theorem eq_of_compare {a b : UnpackedFloat} (h : a.compare b = some .eq) :
    a = b ∨ ∃ s t, a = .zero s ∧ b = .zero t := by
  cases a with
  | notANumber => cases h
  | zero s =>
    cases b with
    | zero t => exact .inr ⟨s, t, rfl, rfl⟩
    | notANumber => cases h
    | infinity t | finite t => cases t <;> cases h
  | infinity s =>
    cases b with
    | infinity t =>
      cases s <;> cases t
      · exact .inl rfl
      · cases h
      · cases h
      · exact .inl rfl
    | notANumber | zero | finite => cases s <;> cases h
  | finite s m e hm =>
    cases b with
    | finite t n f hn =>
      have hparts : ((compare e f).then (compare m n)) = .eq → e = f ∧ m = n := by
        simp [Ordering.then_eq_eq]
      cases s <;> cases t
      · -- negative numbers are compared the other way round
        obtain ⟨rfl, rfl⟩ := hparts (Ordering.swap_eq_eq.1 (Option.some.inj h))
        exact .inl rfl
      · cases h
      · cases h
      · obtain ⟨rfl, rfl⟩ := hparts (Option.some.inj h)
        exact .inl rfl
    | notANumber => cases s <;> cases h
    | infinity t => cases s <;> cases t <;> cases h
    | zero => cases s <;> cases h

/-- The sign, the exponent and the mantissa in the bits of a number. -/
def components : UnpackedFloat → UnpackedFloat.Sign × Int × Nat
  | .notANumber => (.positive, 0, 0)
  | .infinity s => (s, 2047, 0)
  | .zero s => (s, 0, 0)
  | .finite s m e _ => if m < 2 ^ 52 then (s, 0, m) else (s, e + 1075, m - 2 ^ 52)

private theorem components_finite (s : UnpackedFloat.Sign) (m : Nat) (e : Int) (hm : 0 < m) :
    components (.finite s m e hm) = if m < 2 ^ 52 then (s, 0, m) else (s, e + 1075, m - 2 ^ 52) := rfl

private theorem components_unpack {bits : BitVec 64} (h : (UnpackedFloat.unpack .binary64 bits).isNaN = false) :
    components (UnpackedFloat.unpack .binary64 bits) =
      (UnpackedFloat.Sign.ofBitVec (@UnpackedFloat.unpackSign .binary64 bits),
        ((@UnpackedFloat.unpackExponent .binary64 bits).toNat : Int),
        (@UnpackedFloat.unpackMantissa .binary64 bits).toNat) := by
  by_cases hones : @UnpackedFloat.unpackExponent .binary64 bits = -1#11
  · by_cases hmantissa : @UnpackedFloat.unpackMantissa .binary64 bits = 0#52
    · have hbits : UnpackedFloat.unpack .binary64 bits = .infinity _ := (if_pos hones).trans (if_pos hmantissa)
      rw [hbits, hones, hmantissa]
      rfl
    · have hbits : UnpackedFloat.unpack .binary64 bits = .notANumber := (if_pos hones).trans (if_neg hmantissa)
      rw [hbits] at h
      cases h
  by_cases hzero : @UnpackedFloat.unpackExponent .binary64 bits = 0#11
  · by_cases hmantissa : @UnpackedFloat.unpackMantissa .binary64 bits = 0#52
    · have hbits : UnpackedFloat.unpack .binary64 bits = .zero _ :=
        (if_neg hones).trans ((if_pos hzero).trans (dif_pos hmantissa))
      rw [hbits, hzero, hmantissa]
      rfl
    · have hbits : UnpackedFloat.unpack .binary64 bits = .finite _ _ _ _ :=
        (if_neg hones).trans ((if_pos hzero).trans (dif_neg hmantissa))
      rw [hbits, components_finite, if_pos (BitVec.isLt _), hzero]
      rfl
  · have hbits : UnpackedFloat.unpack .binary64 bits = .finite _ _ _ _ := (if_neg hones).trans (if_neg hzero)
    have hlt := (@UnpackedFloat.unpackMantissa .binary64 bits).isLt
    have happend : (1#1 ++ @UnpackedFloat.unpackMantissa .binary64 bits).toNat =
        2 ^ 52 + (@UnpackedFloat.unpackMantissa .binary64 bits).toNat := by
      rw [BitVec.toNat_append, ← Nat.shiftLeft_add_eq_or_of_lt hlt]
      rfl
    rw [hbits, components_finite, happend, if_neg (by omega), Nat.add_sub_cancel_left]
    congr 2
    exact Int.sub_add_cancel _ _

/-- The bits of a float are those of its sign, its exponent and its mantissa. -/
private theorem toNat_bits (bits : BitVec 64) :
    bits.toNat = (@UnpackedFloat.unpackSign .binary64 bits).toNat * 2 ^ 63 +
      (@UnpackedFloat.unpackExponent .binary64 bits).toNat * 2 ^ 52 +
      (@UnpackedFloat.unpackMantissa .binary64 bits).toNat := by
  have hlt := bits.isLt
  have hsign : (@UnpackedFloat.unpackSign .binary64 bits).toNat = bits.toNat >>> 63 % 2 ^ 1 :=
    BitVec.extractLsb_toNat ..
  have hexponent : (@UnpackedFloat.unpackExponent .binary64 bits).toNat = bits.toNat >>> 52 % 2 ^ 11 :=
    BitVec.extractLsb_toNat ..
  have hmantissa : (@UnpackedFloat.unpackMantissa .binary64 bits).toNat = bits.toNat >>> 0 % 2 ^ 52 :=
    BitVec.extractLsb_toNat ..
  rw [hsign, hexponent, hmantissa, Nat.shiftRight_eq_div_pow, Nat.shiftRight_eq_div_pow, Nat.shiftRight_zero]
  omega

/-- A float other than NaN is given by its number. -/
private theorem eq_of_unpack {x y : Float} (hnan : x.isNaN = false) (h : x.toModel.unpack = y.toModel.unpack) :
    x = y := by
  have hx : components x.toModel.unpack = _ := components_unpack hnan
  have hy : components y.toModel.unpack = _ := components_unpack ((congrArg UnpackedFloat.isNaN h).symm.trans hnan)
  have hsign : ∀ s : BitVec 1, (UnpackedFloat.Sign.ofBitVec s).toBitVec = s := by decide
  rw [h, hy] at hx
  simp only [Prod.mk.injEq, Int.natCast_inj] at hx
  have hsigns := congrArg UnpackedFloat.Sign.toBitVec hx.1
  rw [hsign, hsign] at hsigns
  refine eq_of_toBits ?_
  calc
    x.toBits.toNat = _ := toNat_bits x.toModel.toBits.toBitVec
    _ = _ := by rw [hsigns, hx.2.1, hx.2.2]
    _ = y.toBits.toNat := (toNat_bits y.toModel.toBits.toBitVec).symm

private theorem compare_of_beq {x y : Float} (h : (x == y) = true) :
    x.toModel.unpack.compare y.toModel.unpack = some .eq :=
  eq_of_beq h

/-- Whether a float is one of the two zeros. -/
def isZero (x : Float) : Bool := x == 0

private theorem unpack_of_isZero {x : Float} (h : isZero x = true) : ∃ s, x.toModel.unpack = .zero s := by
  have hzero : (0 : Float).toModel.unpack = .zero .positive := by rfl
  obtain hx | ⟨s, -, hx, -⟩ := eq_of_compare (compare_of_beq h)
  · exact ⟨_, hx.trans hzero⟩
  · exact ⟨s, hx⟩

private theorem isZero_of_unpack {x : Float} {s : UnpackedFloat.Sign} (h : x.toModel.unpack = .zero s) :
    isZero x = true := by
  change (x.toModel.unpack.compare (0 : Float).toModel.unpack == some .eq) = true
  rw [h]
  rfl

/-- There is one zero of either sign. -/
private theorem eq_of_isZero {x : Float} (h : isZero x = true) : x = if isNegative x then -0.0 else 0.0 := by
  obtain ⟨s, hs⟩ := unpack_of_isZero h
  have hnan : x.isNaN = false := congrArg UnpackedFloat.isNaN hs
  cases s with
  | negative =>
    obtain rfl : x = -0.0 := eq_of_unpack hnan (hs.trans (by rfl))
    rfl
  | positive =>
    obtain rfl : x = 0.0 := eq_of_unpack hnan (hs.trans (by rfl))
    rfl

/-- A zero is a finite number. -/
theorem finite_of_isZero {x : Float} (h : isZero x = true) : x.isNaN = false ∧ x.isInf = false := by
  obtain ⟨s, hs⟩ := unpack_of_isZero h
  exact ⟨congrArg UnpackedFloat.isNaN hs, congrArg UnpackedFloat.isInf hs⟩

/-- Floats that are equal as numbers are the same, or both are zeros. -/
theorem eq_or_isZero_of_floatEq {x y : Float} (h : Value.floatEq x y = true) :
    x = y ∨ isZero x = true ∧ isZero y = true := by
  rcases Bool.or_eq_true_iff.1 h with hbeq | hnan
  · have hcompare := compare_of_beq hbeq
    obtain hsame | ⟨s, t, hx, hy⟩ := eq_of_compare hcompare
    · refine .inl (eq_of_unpack (Bool.eq_false_iff.2 fun hnan => ?_) hsame)
      have hx : x.toModel.unpack = .notANumber := by
        cases hunpack : x.toModel.unpack with
        | notANumber => rfl
        | zero | infinity | finite =>
          exact absurd ((congrArg UnpackedFloat.isNaN hunpack).symm.trans hnan) Bool.false_ne_true
      rw [hx] at hcompare
      cases hcompare
    · exact .inr ⟨isZero_of_unpack hx, isZero_of_unpack hy⟩
  · obtain ⟨hx, hy⟩ := Bool.and_eq_true_iff.1 hnan
    exact .inl ((eq_of_isNaN hx).trans (eq_of_isNaN hy).symm)

end

private theorem eq_or_isZero_of_unsigned {x y : Float} (h : (if isZero x then 0 else x) = if isZero y then 0 else y) :
    x = y ∨ isZero x = true ∧ isZero y = true := by
  have hzero : isZero 0 = true := by rfl
  cases hx : isZero x <;> cases hy : isZero y <;> simp only [hx, hy] at h ⊢
  · exact .inl h
  · obtain rfl : x = 0 := h
    exact absurd (hx.symm.trans hzero) Bool.false_ne_true
  · obtain rfl : 0 = y := h
    exact absurd (hy.symm.trans hzero) Bool.false_ne_true
  · exact .inr ⟨trivial, trivial⟩

/-! ### Documents up to the signs of zeros -/

namespace Json

mutual

/-- The document with all zeros positive. -/
def unsigned : Json → Json
  | .float x => .float (if isZero x then 0 else x)
  | .array items => .array (unsignedItems items)
  | .object members => .object (unsignedMembers members)
  | .null => .null
  | .bool b => .bool b
  | .int n => .int n
  | .string text => .string text

def unsignedItems : List Json → List Json
  | [] => []
  | item :: items => unsigned item :: unsignedItems items

def unsignedMembers : List (String × Json) → List (String × Json)
  | [] => []
  | (key, value) :: members => (key, unsigned value) :: unsignedMembers members

end

private theorem unsignedItems_eq_map (items : List Json) : unsignedItems items = items.map unsigned := by
  induction items with
  | nil => rfl
  | cons item items ih => rw [unsignedItems, ih, List.map_cons]

private theorem unsignedMembers_eq_map (members : List (String × Json)) :
    unsignedMembers members = members.map fun member => (member.1, member.2.unsigned) := by
  induction members with
  | nil => rfl
  | cons member members ih => rw [unsignedMembers, ih, List.map_cons]

/-- Items whose documents differ in the signs of zeros give lists that do. -/
theorem unsignedItems_map {γ : Type} {toDoc : γ → Json} {R : γ → γ → Prop} {as bs : List γ} (h : List.Forall₂ R as bs)
    (hdoc : ∀ a ∈ as, ∀ b, R a b → (toDoc a).unsigned = (toDoc b).unsigned) :
    unsignedItems (as.map toDoc) = unsignedItems (bs.map toDoc) := by
  induction h with
  | nil => rfl
  | cons hhead _ ih =>
    obtain ⟨ha, has⟩ := List.forall_mem_cons.1 hdoc
    simp only [List.map_cons, unsignedItems, ha _ hhead, ih has]

theorem unsignedMembers_append (members members' : List (String × Json)) :
    unsignedMembers (members ++ members') = unsignedMembers members ++ unsignedMembers members' := by
  simp [unsignedMembers_eq_map]

theorem unsignedMembers_unlessEmpty {key : String} {items items' : List Json}
    (h : unsignedItems items = unsignedItems items') :
    unsignedMembers (unlessEmpty key items) = unsignedMembers (unlessEmpty key items') := by
  cases items with
  | nil =>
    cases items' with
    | nil => rfl
    | cons => cases h
  | cons =>
    cases items' with
    | nil => cases h
    | cons => simp only [unlessEmpty, unsignedMembers, unsigned, h]

/-- The sign of a number that is zero, `true` for a negative one. -/
def zeroSign? : Json → Option Bool
  | .float x => if isZero x then some (isNegative x) else none
  | _ => none

/-- The signs of the zeros in a document, in their order. -/
def zeroSigns (doc : Json) : List Bool := doc.numbers.filterMap zeroSign?

section

variable {α β : Type}

/-- A joined text tells the parts of a list if the texts of the parts do. -/
private theorem tells_intercalate {text : β → List α} {same : β → β} {between : List α} {bs bs' : List β}
    (hbs : ∀ b ∈ bs, ∀ b' rest rest', same b = same b' → text b ++ rest = text b' ++ rest' → b = b' ∧ rest = rest')
    (hsame : bs.map same = bs'.map same) {rest rest' : List α}
    (htext : between.intercalate (bs.map text) ++ rest = between.intercalate (bs'.map text) ++ rest') :
    bs = bs' ∧ rest = rest' := by
  induction bs generalizing bs' with
  | nil =>
    obtain rfl : bs' = [] := by simpa using hsame
    exact ⟨rfl, by simpa using htext⟩
  | cons b bs ih =>
    obtain ⟨hb, hbs⟩ := List.forall_mem_cons.1 hbs
    cases bs' with
    | nil => simp at hsame
    | cons b' bs' =>
      simp only [List.map_cons, List.cons.injEq] at hsame
      cases bs with
      | nil =>
        obtain rfl : bs' = [] := by simpa using hsame.2
        obtain ⟨rfl, hrest⟩ := hb b' rest rest' hsame.1 (by simpa using htext)
        exact ⟨rfl, hrest⟩
      | cons c cs =>
        cases bs' with
        | nil => simp at hsame
        | cons c' cs' =>
          simp only [List.map_cons, List.intercalate_cons_cons, List.append_assoc] at htext
          obtain ⟨rfl, hnext⟩ := hb b' _ _ hsame.1 htext
          obtain ⟨hcs, hrest⟩ := ih hbs hsame.2 (List.append_cancel_left hnext)
          exact ⟨by rw [hcs], hrest⟩

/-- A text in which documents are laid out part by part, and which shows the signs of zeros. -/
structure Shows (text : Json → List α) : Prop where
  zero : ∀ x y rest rest', isZero x = true → isZero y = true →
    text (.float x) ++ rest = text (.float y) ++ rest' → x = y ∧ rest = rest'
  array : ∃ before between after : List α, ∀ items,
    text (.array items) = before ++ (between.intercalate (items.map text) ++ after)
  object : ∃ before between after : List α, ∃ key : String → List α, ∀ members,
    text (.object members) =
      before ++ (between.intercalate (members.map fun member => key member.1 ++ text member.2) ++ after)

/-- In a text that shows signs, documents that differ in the signs of zeros only are told apart. -/
theorem Shows.tells {text : Json → List α} (h : Shows text) {doc doc' : Json} (hsame : doc.unsigned = doc'.unsigned)
    {rest rest' : List α} (htext : text doc ++ rest = text doc' ++ rest') : doc = doc' ∧ rest = rest' := by
  induction doc using Json.induction generalizing doc' rest rest' with
  | null | bool | int | string => cases doc' <;> cases hsame; exact ⟨rfl, List.append_cancel_left htext⟩
  | float x =>
    cases doc' with
    | float y =>
      rcases eq_or_isZero_of_unsigned (Json.float.inj hsame) with rfl | ⟨hx, hy⟩
      · exact ⟨rfl, List.append_cancel_left htext⟩
      · obtain ⟨rfl, hrest⟩ := h.zero x y rest rest' hx hy htext
        exact ⟨rfl, hrest⟩
    | _ => cases hsame
  | array items ih =>
    cases doc' with
    | array items' =>
      simp only [unsigned, unsignedItems_eq_map, Json.array.injEq] at hsame
      obtain ⟨before, between, after, harray⟩ := h.array
      simp only [harray, List.append_assoc] at htext
      obtain ⟨rfl, hrest⟩ := tells_intercalate (fun item hitem _ _ _ hitems => ih item hitem hitems) hsame
        (List.append_cancel_left htext)
      exact ⟨rfl, List.append_cancel_left hrest⟩
    | _ => cases hsame
  | object members ih =>
    cases doc' with
    | object members' =>
      simp only [unsigned, unsignedMembers_eq_map, Json.object.injEq] at hsame
      obtain ⟨before, between, after, key, hobject⟩ := h.object
      simp only [hobject, List.append_assoc] at htext
      have hmembers : ∀ member ∈ members, ∀ (member' : String × Json) (rest rest' : List α),
          (member.1, member.2.unsigned) = (member'.1, member'.2.unsigned) →
          (key member.1 ++ text member.2) ++ rest = (key member'.1 ++ text member'.2) ++ rest' →
          member = member' ∧ rest = rest' := by
        rintro ⟨name, value⟩ hmember ⟨name', value'⟩ rest rest' hmembers htext
        obtain ⟨rfl : name = name', hvalue⟩ := Prod.mk.inj hmembers
        rw [List.append_assoc, List.append_assoc] at htext
        obtain ⟨rfl, hrest⟩ := ih _ hmember hvalue (List.append_cancel_left htext)
        exact ⟨rfl, hrest⟩
      obtain ⟨rfl, hrest⟩ := tells_intercalate hmembers hsame (List.append_cancel_left htext)
      exact ⟨rfl, List.append_cancel_left hrest⟩
    | _ => cases hsame

end

private theorem filterMap_numbersOfItems (items : List Json) :
    (numbersOfItems items).filterMap zeroSign? = (items.map zeroSigns).flatten := by
  induction items with
  | nil => rfl
  | cons item items ih => rw [numbersOfItems, List.filterMap_append, ih]; rfl

private theorem filterMap_numbersOfMembers (members : List (String × Json)) :
    (numbersOfMembers members).filterMap zeroSign? =
      (members.map fun member => [] ++ member.2.zeroSigns).flatten := by
  induction members with
  | nil => rfl
  | cons member members ih => rw [numbersOfMembers, List.filterMap_append, ih]; rfl

private theorem intercalate_nil_eq_flatten {α : Type} (ls : List (List α)) : [].intercalate ls = ls.flatten := by
  induction ls with
  | nil => rfl
  | cons l ls ih => cases ls <;> simp_all [List.intercalate_cons_cons]

private theorem zeroSigns_shows : Shows zeroSigns where
  zero x y rest rest' hx hy htext := by
    have hsign : ∀ z, isZero z = true → zeroSigns (.float z) = [isNegative z] := fun z hz => by
      simp [zeroSigns, numbers, zeroSign?, hz]
    rw [hsign x hx, hsign y hy] at htext
    obtain ⟨hnegative, hrest⟩ := List.cons.inj htext
    refine ⟨?_, hrest⟩
    rw [eq_of_isZero hx, eq_of_isZero hy, hnegative]
  array := ⟨[], [], [], fun items => by
    rw [zeroSigns, numbers, filterMap_numbersOfItems, intercalate_nil_eq_flatten, List.append_nil, List.nil_append]⟩
  object := ⟨[], [], [], fun _ => [], fun members => by
    rw [zeroSigns, numbers, filterMap_numbersOfMembers, intercalate_nil_eq_flatten, List.append_nil, List.nil_append]⟩

private theorem toList_compactItems_eq (items : List Json) :
    (compactItems items).toList = [','].intercalate (items.map (·.compact.toList)) := by
  induction items with
  | nil => rfl
  | cons item items ih =>
    cases items with
    | nil => simp [compactItems]
    | cons next items =>
      rw [toList_compactItems, ih]
      simp [List.intercalate_cons_cons]

private theorem compactMember_eq (member : String × Json) :
    compactMember member = ((literal member.1).toList ++ [':']) ++ member.2.compact.toList := by
  simp [compactMember, literal]

private theorem toList_compactMembers_eq (members : List (String × Json)) :
    (compactMembers members).toList = [','].intercalate (members.map compactMember) := by
  induction members with
  | nil => rfl
  | cons member members ih =>
    cases members with
    | nil => simp [toList_compactMembers_singleton]
    | cons next members =>
      rw [toList_compactMembers, ih]
      simp [List.intercalate_cons_cons]

private theorem compact_shows : Shows fun doc => doc.compact.toList where
  zero x y rest rest' hx hy htext := by
    have hpositive : (compact (.float 0.0)).toList = ['0', '.', '0'] := by rfl
    have hnegative : (compact (.float (-0.0))).toList = ['-', '0', '.', '0'] := by rfl
    rw [eq_of_isZero hx, eq_of_isZero hy] at htext ⊢
    generalize isNegative x = negative at htext ⊢
    generalize isNegative y = negative' at htext ⊢
    cases negative <;> cases negative'
    · exact ⟨rfl, List.append_cancel_left htext⟩
    · simp [hpositive, hnegative] at htext
    · simp [hpositive, hnegative] at htext
    · exact ⟨rfl, List.append_cancel_left htext⟩
  array := ⟨['['], [','], [']'], fun items => by
    simp [compact, toList_compactItems_eq]⟩
  object := ⟨['\x7b'], [','], ['\x7d'], fun key => (literal key).toList ++ [':'], fun members => by
    simp [compact, toList_compactMembers_eq, funext compactMember_eq]⟩

variable {doc doc' : Json}

/-- Documents that differ in the signs of zeros only are the same if the signs of their zeros are. -/
theorem zeroSigns_eq_iff (h : doc.unsigned = doc'.unsigned) : doc.zeroSigns = doc'.zeroSigns ↔ doc = doc' := by
  constructor
  · intro hsigns
    exact (zeroSigns_shows.tells h (congrArg (· ++ []) hsigns)).1
  · exact congrArg zeroSigns

/-- Documents that differ in the signs of zeros only are the same if their texts are. -/
theorem compact_eq_iff (h : doc.unsigned = doc'.unsigned) : doc.compact = doc'.compact ↔ doc = doc' := by
  constructor
  · intro htext
    exact (compact_shows.tells h (congrArg (·.toList ++ []) htext)).1
  · exact congrArg compact

end Json

end SqlPlan
