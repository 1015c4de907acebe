import SqlPlan.Proofs.JsonText
import SqlPlan.Proofs.Nodes

/-!
# Canonical JSON text

The canonical form of a text is written from the document that is read from it, with ordered members. What is read is
never nested too deep to be read again, its integers have 64 bits, and ordering the members keeps both and is done
after the first time. So the canonical form of a text is its own canonical form.

* `Json.within_of_value?`: what the reader returns.
* `Json.sorted_sorted`: ordered members stay as they are.
* `Value.json?_canonical`: a value that is made from a text is made from its own text again.
-/

namespace SqlPlan

namespace Json

/-! ### What is read -/

/-- A document is nested at most `room` deep, and its integers have 64 bits. -/
structure Within (room : Nat) (doc : Json) : Prop where
  depth_le : doc.depth ≤ room
  int_fits : ∀ n, .int n ∈ doc.numbers → -2 ^ 63 ≤ n ∧ n < 2 ^ 64

private theorem Within.of_numbers_eq_nil {room : Nat} {doc : Json} (hdepth : doc.depth = 0)
    (hnumbers : doc.numbers = []) : doc.Within room :=
  ⟨by omega, by simp [hnumbers]⟩

private theorem within_float (room : Nat) (x : Float) : (float x).Within room := ⟨Nat.zero_le _, by simp [numbers]⟩

private theorem within_array {room : Nat} {items : List Json} (h : ∀ item ∈ items, item.Within room) :
    (array items).Within (room + 1) where
  depth_le := Nat.succ_le_succ (depthItems_le_iff.2 fun item hitem => (h item hitem).depth_le)
  int_fits n hn := by
    obtain ⟨item, hitem, hn⟩ := mem_numbersOfItems.1 (by simpa only [numbers] using hn)
    exact (h item hitem).int_fits n hn

private theorem within_object {room : Nat} {members : List (String × Json)}
    (h : ∀ member ∈ members, member.2.Within room) : (object members).Within (room + 1) where
  depth_le := Nat.succ_le_succ (depthMembers_le_iff.2 fun member hmember => (h member hmember).depth_le)
  int_fits n hn := by
    obtain ⟨member, hmember, hn⟩ := mem_numbersOfMembers.1 (by simpa only [numbers] using hn)
    exact (h member hmember).int_fits n hn

private theorem absorb_lt {significand : Nat} (h : significand < 2 ^ 64) (ds : List Char) :
    (absorb significand ds).1 < 2 ^ 64 := by
  induction ds generalizing significand with
  | nil => exact h
  | cons d ds ih =>
    rw [absorb]
    split
    · rename_i hnext
      exact ih hnext
    · exact h

private theorem within_integerOf {significand : Nat} (h : significand < 2 ^ 64) (negative : Bool) (room : Nat) :
    (integerOf negative significand).Within room := by
  have hint : ∀ n : Int, -2 ^ 63 ≤ n → n < 2 ^ 64 → (int n).Within room := by
    intro n hlow hhigh
    refine ⟨Nat.zero_le _, fun m hm => ?_⟩
    obtain rfl : m = n := by simpa [numbers] using hm
    exact ⟨hlow, hhigh⟩
  unfold integerOf
  split
  · exact hint _ (by omega) (by omega)
  split
  · exact within_float room _
  · rename_i hbound
    simp only [Bool.or_eq_true, decide_eq_true_eq, not_or, Nat.not_lt] at hbound
    have hlow : significand ≤ 2 ^ 63 := hbound.2
    exact hint _ (by omega) (by omega)

variable {fuel room significand : Nat} {exponent : Int} {negative : Bool} {cs rest : List Char} {doc : Json}

private theorem within_of_floatOf (h : floatOf negative significand exponent cs = some (doc, rest)) :
    doc.Within room := by
  obtain ⟨x, -, hx⟩ := Option.map_eq_some_iff.1 h
  obtain ⟨rfl, -⟩ := Prod.mk.inj hx
  exact within_float room _

private theorem within_of_finishFloat? (h : finishFloat? negative significand exponent cs = some (doc, rest)) :
    doc.Within room := by
  unfold finishFloat? at h
  split at h
  · obtain ⟨⟨e, cs'⟩, -, h⟩ := Option.bind_eq_some_iff.1 h
    exact within_of_floatOf h
  · obtain ⟨⟨e, cs'⟩, -, h⟩ := Option.bind_eq_some_iff.1 h
    exact within_of_floatOf h
  · exact within_of_floatOf h

private theorem within_of_unsigned? (h : unsigned? negative cs = some (doc, rest)) : doc.Within room := by
  unfold unsigned? at h
  split at h
  · cases h
  · split at h
    · cases h
    · dsimp only at h
      split at h
      · split at h
        · cases h
        · exact within_of_finishFloat? h
      · exact within_of_finishFloat? h
      · exact within_of_finishFloat? h
      · split at h
        · obtain ⟨rfl, -⟩ := Prod.mk.inj (Option.some.inj h)
          exact within_integerOf (absorb_lt (by decide) _) negative room
        · exact within_of_floatOf h

private theorem within_of_number? (h : number? cs = some (doc, rest)) : doc.Within room := by
  unfold number? at h
  split at h
  · exact within_of_unsigned? h
  · exact within_of_unsigned? h

private theorem eq_of_word? {word : String} {value : Json} (h : word? word value cs = some (doc, rest)) :
    doc = value := by
  unfold word? at h
  split at h
  · exact (Prod.mk.inj (Option.some.inj h)).1.symm
  · cases h

/-- The three readers of documents call each other, each with less fuel. -/
private theorem within_of_readers (fuel : Nat) :
    (∀ {room cs doc rest}, value? fuel room cs = some (doc, rest) → doc.Within room) ∧
    (∀ {room read cs doc rest}, (∀ item ∈ read, item.Within room) → items? fuel room read cs = some (doc, rest) →
      doc.Within (room + 1)) ∧
    (∀ {room read cs doc rest}, (∀ member ∈ read, member.2.Within room) →
      members? fuel room read cs = some (doc, rest) → doc.Within (room + 1)) := by
  induction fuel with
  | zero => refine ⟨fun h => ?_, fun _ h => ?_, fun _ h => ?_⟩ <;> cases h
  | succ fuel ih =>
    obtain ⟨hvalue, hitems, hmembers⟩ := ih
    refine ⟨fun h => ?_, fun hread h => ?_, fun hread h => ?_⟩
    -- words and strings hold no numbers, and lists and objects are left to the other readers
    · unfold value? at h
      split at h
      · rw [eq_of_word? h]
        exact .of_numbers_eq_nil rfl rfl
      · rw [eq_of_word? h]
        exact .of_numbers_eq_nil rfl rfl
      · rw [eq_of_word? h]
        exact .of_numbers_eq_nil rfl rfl
      · obtain ⟨⟨text, cs'⟩, -, htext⟩ := Option.map_eq_some_iff.1 h
        obtain ⟨rfl, -⟩ := Prod.mk.inj htext
        exact .of_numbers_eq_nil rfl rfl
      · split at h
        · obtain ⟨rfl, -⟩ := Prod.mk.inj (Option.some.inj h)
          exact within_array (by simp)
        · exact hitems (by simp) h
      · split at h
        · obtain ⟨rfl, -⟩ := Prod.mk.inj (Option.some.inj h)
          exact within_object (by simp)
        · exact hmembers (by simp) h
      · exact within_of_number? h
    -- an item joins those that were read ahead of it
    · rw [items?] at h
      obtain ⟨⟨item, cs'⟩, hitem, h⟩ := Option.bind_eq_some_iff.1 h
      have hnext := List.forall_mem_cons.2 ⟨hvalue hitem, hread⟩
      dsimp only at h
      split at h
      · exact hitems hnext h
      · obtain ⟨rfl, -⟩ := Prod.mk.inj (Option.some.inj h)
        exact within_array fun item hitem => hnext item (List.mem_reverse.1 hitem)
      · cases h
    · rw [members?] at h
      split at h
      · obtain ⟨⟨key, cs'⟩, -, h⟩ := Option.bind_eq_some_iff.1 h
        dsimp only at h
        split at h
        · obtain ⟨⟨value, cs''⟩, hmember, h⟩ := Option.bind_eq_some_iff.1 h
          have hnext : ∀ member ∈ (key, value) :: _, member.2.Within _ :=
            List.forall_mem_cons.2 ⟨hvalue hmember, hread⟩
          dsimp only at h
          split at h
          · exact hmembers hnext h
          · obtain ⟨rfl, -⟩ := Prod.mk.inj (Option.some.inj h)
            exact within_object fun member hmember => hnext member (List.mem_reverse.1 hmember)
          · cases h
        · cases h
      · cases h

/-- A document that is read is nested no deeper than the reader has room for. -/
theorem within_of_value? (h : value? fuel room cs = some (doc, rest)) : doc.Within room :=
  (within_of_readers fuel).1 h

private theorem within_of_ofText? {text : String} (h : ofText? text = some doc) : doc.Within maxDepth := by
  obtain ⟨⟨value, rest⟩, hread, h⟩ := Option.bind_eq_some_iff.1 h
  dsimp only at h
  split at h
  · obtain rfl := Option.some.inj h
    exact within_of_value? hread
  · cases h

/-! ### Ordered members -/

/-- The keys of members are in strict order. -/
def KeysOrdered (members : List (String × Json)) : Prop := members.Pairwise fun a b => a.1 < b.1

/-- The members of all objects in a document are ordered by key. -/
inductive Ordered : Json → Prop
  | null : Ordered .null
  | bool (b : Bool) : Ordered (.bool b)
  | int (n : Int) : Ordered (.int n)
  | float (x : Float) : Ordered (.float x)
  | string (text : String) : Ordered (.string text)
  | array {items : List Json} (hitems : ∀ item ∈ items, Ordered item) : Ordered (.array items)
  | object {members : List (String × Json)} (hkeys : KeysOrdered members)
    (hmembers : ∀ member ∈ members, Ordered member.2) : Ordered (.object members)

private theorem sortedItems_eq_map (items : List Json) : sortedItems items = items.map sorted := by
  induction items with
  | nil => rfl
  | cons item items ih => rw [sortedItems, ih, List.map_cons]

section

variable {key : String} {value : Json} {members done : List (String × Json)}

private theorem eq_or_mem_of_mem_insertMember {member : String × Json} (h : member ∈ insertMember key value members) :
    member = (key, value) ∨ member ∈ members := by
  induction members with
  | nil => exact .inl (List.mem_singleton.1 h)
  | cons first members ih =>
    rw [insertMember] at h
    split at h
    · exact List.mem_cons.1 h
    split at h
    · exact (List.mem_cons.1 h).imp_right (List.mem_cons_of_mem _)
    · rcases List.mem_cons.1 h with rfl | h
      · exact .inr List.mem_cons_self
      · exact (ih h).imp_right (List.mem_cons_of_mem _)

private theorem KeysOrdered.insertMember (h : KeysOrdered members) :
    KeysOrdered (insertMember key value members) := by
  induction members with
  | nil => exact List.pairwise_singleton _ _
  | cons first members ih =>
    obtain ⟨hfirst, hmembers⟩ := List.pairwise_cons.1 h
    rw [Json.insertMember]
    split
    · rename_i hlt
      refine List.pairwise_cons.2 ⟨List.forall_mem_cons.2 ⟨hlt, fun member hmember => ?_⟩, h⟩
      exact String.lt_trans hlt (hfirst member hmember)
    split
    · rename_i heq
      exact List.pairwise_cons.2 ⟨fun member hmember => heq ▸ hfirst member hmember, hmembers⟩
    · rename_i hlt hne
      have hgt : first.1 < key := by
        by_contra hge
        exact hne (String.le_antisymm (String.not_lt.1 hge) (String.not_lt.1 hlt))
      refine List.pairwise_cons.2 ⟨fun member hmember => ?_, ih hmembers⟩
      rcases eq_or_mem_of_mem_insertMember hmember with rfl | hmember
      · exact hgt
      · exact hfirst member hmember

private theorem insertMember_of_forall_lt (h : ∀ member ∈ members, member.1 < key) :
    insertMember key value members = members ++ [(key, value)] := by
  induction members with
  | nil => rfl
  | cons first members ih =>
    obtain ⟨hfirst, hmembers⟩ := List.forall_mem_cons.1 h
    have hne : key ≠ first.1 := by
      rintro rfl
      exact String.lt_irrefl _ hfirst
    rw [insertMember, if_neg (String.lt_asymm hfirst), if_neg hne, ih hmembers, List.cons_append]

/-- What holds of the members before and of the new ones with ordered values holds of all together. -/
private theorem forall_mem_sortedMembers {P : String × Json → Prop} (hdone : ∀ member ∈ done, P member)
    (hmembers : ∀ member ∈ members, P (member.1, member.2.sorted)) :
    ∀ member ∈ sortedMembers done members, P member := by
  induction members generalizing done with
  | nil => exact hdone
  | cons first members ih =>
    obtain ⟨hfirst, hmembers⟩ := List.forall_mem_cons.1 hmembers
    rw [sortedMembers]
    refine ih (fun member hmember => ?_) hmembers
    rcases eq_or_mem_of_mem_insertMember hmember with rfl | hmember
    · exact hfirst
    · exact hdone member hmember

private theorem KeysOrdered.sortedMembers (h : KeysOrdered done) (members : List (String × Json)) :
    KeysOrdered (sortedMembers done members) := by
  induction members generalizing done with
  | nil => exact h
  | cons first members ih =>
    rw [Json.sortedMembers]
    exact ih h.insertMember

/-- Members that come in order, with ordered values, go to the end. -/
private theorem sortedMembers_of_keysOrdered (hkeys : KeysOrdered (done ++ members))
    (hmembers : ∀ member ∈ members, member.2.sorted = member.2) : sortedMembers done members = done ++ members := by
  induction members generalizing done with
  | nil => exact (List.append_nil done).symm
  | cons first members ih =>
    obtain ⟨hfirst, hmembers⟩ := List.forall_mem_cons.1 hmembers
    have hlast : ∀ member ∈ done, member.1 < first.1 :=
      fun member hmember => (List.pairwise_append.1 hkeys).2.2 member hmember first List.mem_cons_self
    rw [sortedMembers, hfirst, insertMember_of_forall_lt hlast, ih (by simpa using hkeys) hmembers]
    simp

end

private theorem sorted_ordered (doc : Json) : doc.sorted.Ordered := by
  induction doc using Json.induction with
  | null => exact .null
  | bool b => exact .bool b
  | int n => exact .int n
  | float x => exact .float x
  | string text => exact .string text
  | array items ih =>
    rw [sorted, sortedItems_eq_map]
    exact .array (List.forall_mem_map.2 ih)
  | object members ih =>
    rw [sorted]
    exact .object (KeysOrdered.sortedMembers .nil members) (forall_mem_sortedMembers (by simp) ih)

private theorem Ordered.sorted_eq {doc : Json} (h : doc.Ordered) : doc.sorted = doc := by
  induction h with
  | null | bool | int | float | string => rfl
  | array _ ih =>
    rw [sorted, sortedItems_eq_map, List.map_congr_left ih, List.map_id']
  | @object members hkeys _ ih =>
    have hmembers : sortedMembers [] members = members := sortedMembers_of_keysOrdered hkeys ih
    rw [sorted, hmembers]

/-- Ordered members stay as they are. -/
theorem sorted_sorted (doc : Json) : doc.sorted.sorted = doc.sorted := doc.sorted_ordered.sorted_eq

private theorem depth_sorted_le (doc : Json) : doc.sorted.depth ≤ doc.depth := by
  induction doc using Json.induction with
  | null | bool | int | float | string => exact Nat.le_refl _
  | array items ih =>
    rw [sorted, sortedItems_eq_map, depth, depth]
    refine Nat.succ_le_succ (depthItems_le_iff.2 (List.forall_mem_map.2 fun item hitem => ?_))
    exact Nat.le_trans (ih item hitem) (depthItems_le_iff.1 (Nat.le_refl _) item hitem)
  | object members ih =>
    rw [sorted, depth, depth]
    refine Nat.succ_le_succ (depthMembers_le_iff.2 (forall_mem_sortedMembers (by simp) fun member hmember => ?_))
    exact Nat.le_trans (ih member hmember) (depthMembers_le_iff.1 (Nat.le_refl _) member hmember)

private theorem numbers_sorted_subset (doc : Json) : doc.sorted.numbers ⊆ doc.numbers := by
  induction doc using Json.induction with
  | null | bool | int | float | string => exact List.Subset.refl _
  | array items ih =>
    rw [sorted, sortedItems_eq_map]
    refine forall_mem_numbers_array.2 (List.forall_mem_map.2 fun item hitem number hnumber => ?_)
    rw [numbers]
    exact mem_numbersOfItems.2 ⟨item, hitem, ih item hitem hnumber⟩
  | object members ih =>
    rw [sorted]
    refine forall_mem_numbers_object.2 (forall_mem_sortedMembers (by simp) fun member hmember number hnumber => ?_)
    rw [numbers]
    exact mem_numbersOfMembers.2 ⟨member, hmember, ih member hmember hnumber⟩

/-! ### Canonical texts -/

/-- The floats in the document that a text holds are read back from their own texts. -/
def FloatsReadBack (text : String) : Prop :=
  ∀ doc ∈ ofText? text, ∀ x, .float x ∈ doc.numbers → ReadsBack (.float x)

/-- A document that was read is read back from its text with ordered members. -/
private theorem ofText?_compact_sorted {text : String} {doc : Json} (h : ofText? text = some doc)
    (hfloats : FloatsReadBack text) : ofText? doc.sorted.compact = some doc.sorted := by
  have hdoc := within_of_ofText? h
  have hnumbers : ∀ number ∈ doc.sorted.numbers, ReadsBack number := by
    intro number hnumber
    have hmem := doc.numbers_sorted_subset hnumber
    rcases int_or_float_of_mem_numbers hmem with ⟨n, rfl⟩ | ⟨x, rfl⟩
    · exact readsBack_int (hdoc.int_fits n hmem).1 (hdoc.int_fits n hmem).2
    · exact hfloats doc h x hmem
  have hread := read?_compact hnumbers (Nat.le_trans doc.depth_sorted_le hdoc.depth_le)
  rw [ofText?, hread]
  rfl

/-- The canonical form of a text is its own canonical form. -/
private theorem canonical?_of_canonical? {text canonical : String} (h : canonical? text = some canonical)
    (hfloats : FloatsReadBack text) : canonical? canonical = some canonical := by
  obtain ⟨doc, hdoc, rfl⟩ := Option.map_eq_some_iff.1 h
  rw [canonical?, ofText?_compact_sorted hdoc hfloats, Option.map_some, sorted_sorted]

end Json

namespace Value

private theorem json?_eq_some_iff {text : String} {v : Value} :
    json? text = some v ↔ ∃ canonical, Json.canonical? text = some canonical ∧ v = .json canonical := by
  rw [json?, Option.map_eq_some_iff]
  simp only [eq_comm]

private theorem json_conformsTo_iff {text : String} :
    (Value.json text).conformsTo .json = true ↔ Json.canonical? text = some text := by
  rw [conformsTo, beq_iff_eq]

/-- A value that is made from a JSON text stands for the type of JSON documents, so that there is a literal of it, and
is made from its own text again. A text stands for the type by itself if and only if the value that is made from it
has this text. -/
theorem json?_canonical (text : String) :
    (∀ v, json? text = some v → Json.FloatsReadBack text →
      v.conformsTo .json = true ∧ Node.new? (.literal v .json) = .ok ⟨.literal v .json, .json, .scalar⟩ ∧
        ∃ t, v = .json t ∧ json? t = some v) ∧
    ((Value.json text).conformsTo .json = true ↔ json? text = some (.json text)) := by
  refine ⟨fun v hv hfloats => ?_, ?_⟩
  · obtain ⟨canonical, hcanonical, rfl⟩ := json?_eq_some_iff.1 hv
    have hself := Json.canonical?_of_canonical? hcanonical hfloats
    have hconforms : (Value.json canonical).conformsTo .json = true := json_conformsTo_iff.2 hself
    have htype : Op.type? (.literal (.json canonical) .json) = .ok .json := by simp [Op.type?, hconforms, isNull]
    exact ⟨hconforms, Node.new?_eq_ok_iff.2 ⟨rfl, htype, rfl⟩, canonical, rfl,
      json?_eq_some_iff.2 ⟨canonical, hself, rfl⟩⟩
  · rw [json_conformsTo_iff, json?_eq_some_iff]
    simp

/-- A document in which a key comes twice, and another one between. -/
def repeatedKeys : Json :=
  .object [("b", .float 1.5), ("a", .array [.float (-0.0), .string "A"]), ("b", .int 2)]

/-- The last of equal keys is kept, and the members are ordered. -/
theorem json?_canonical_repeatedKeys :
    repeatedKeys.compact = "\x7b\"b\":1.5,\"a\":[-0.0,\"A\"],\"b\":2\x7d" ∧
      json? repeatedKeys.compact = some (.json "\x7b\"a\":[-0.0,\"A\"],\"b\":2\x7d") ∧
        (Value.json "\x7b\"a\":[-0.0,\"A\"],\"b\":2\x7d").conformsTo .json = true := by
  have hnumbers : repeatedKeys.numbers = [.float 1.5, .float (-0.0), .int 2] := rfl
  have hfloats : ∀ number ∈ repeatedKeys.numbers, number.ReadsBack := by
    rw [hnumbers]
    simp only [List.forall_mem_cons]
    exact ⟨rfl, rfl, rfl, by simp⟩
  have hread : Json.ofText? repeatedKeys.compact = some repeatedKeys := by
    rw [Json.ofText?, Json.read?_compact hfloats (by decide)]
    rfl
  have hvalue : json? repeatedKeys.compact = some (.json "\x7b\"a\":[-0.0,\"A\"],\"b\":2\x7d") :=
    json?_eq_some_iff.2 ⟨_, by decide +kernel, rfl⟩
  refine ⟨by decide +kernel, hvalue, ((json?_canonical _).1 _ hvalue fun doc hdoc x hx => ?_).1⟩
  obtain rfl := Option.some.inj (hread.symm.trans hdoc)
  exact hfloats _ hx

end Value

end SqlPlan
