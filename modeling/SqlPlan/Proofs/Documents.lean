import SqlPlan.DataType.Json
import SqlPlan.Proofs.CalendarText
import SqlPlan.Proofs.JsonText
import SqlPlan.Value.Json

/-!
# Reading back structures, types and values

A structure is read back from an object that gives every field once, or leaves out a field that has its default. On
this rest the documents of types and values.

* `Fields.Reads`: the fields of a structure are read from the members of an object, wherever they start.
* `DataType.ofNested_toJson`, `Value.ofNestedValue_toJson`: types and values are read back from their documents.
* `DataType.numbersFit_toJson`, `Value.numbersFit_toJson`: integers in these documents have 64 bits, and
  floats are finite.
-/

namespace SqlPlan

/-! ### Structures -/

namespace Fields

variable {δ ε α β : Type} {members : List (String × δ)} {name : String}

/-- The documents that the members give for a name. -/
def given (name : String) (members : List (String × δ)) : List δ :=
  members.filterMap fun member => if member.1 = name then some member.2 else none

@[simp] theorem given_nil : given name ([] : List (String × δ)) = [] := rfl

@[simp] theorem given_cons (key : String) (doc : δ) :
    given name ((key, doc) :: members) = if key = name then doc :: given name members else given name members := by
  by_cases h : key = name <;> simp [given, h]

@[simp] theorem given_append (others : List (String × δ)) :
    given name (members ++ others) = given name members ++ given name others := by
  simp [given]

@[simp] theorem given_ifPresent (key : String) (doc : Option Json) :
    given name (Json.ifPresent key doc) = if key = name then doc.toList else [] := by
  cases doc <;> simp [Json.ifPresent]

@[simp] theorem given_unlessEmpty (key : String) (docs : List Json) :
    given name (Json.unlessEmpty key docs) = if key = name ∧ docs ≠ [] then [.array docs] else [] := by
  cases docs <;> simp [Json.unlessEmpty]

/-- A key is given no document just if no member has it. -/
theorem given_eq_nil_iff : given name members = [] ↔ ∀ member ∈ members, member.1 ≠ name := by
  simp [given]

private theorem map_snd_occurrences (name : String) (members : List (String × δ)) :
    (occurrences name members).map (·.2) = given name members := by
  have hfrom : ∀ k, ((members.zipIdx k).filterMap fun entry =>
      if entry.1.1 = name then some (entry.2, entry.1.2) else none).map (·.2) = given name members := by
    induction members with
    | nil => intro k; rfl
    | cons member members ih =>
      intro k
      by_cases hname : member.1 = name <;> simpa [given, hname, List.zipIdx_cons] using ih (k + 1)
  exact hfrom 0

/-- The fields are read from the members of an object, whatever their place in the declaration. -/
def Reads (fields : Fields δ ε α) (members : List (String × δ)) (a : α) : Prop :=
  ∀ place, fields.read place (.named members) = .ok a

/-- A field is read from the one document that is given for it. -/
theorem Reads.field {default? : Option α} {read : Reader δ ε α} {doc : δ} {a : α}
    (hdoc : given name members = [doc]) (hread : read doc = .ok a) :
    (field name default? read).Reads members a := by
  intro place
  obtain ⟨i, hi⟩ : ∃ i, occurrences name members = [(i, doc)] := by
    have h := map_snd_occurrences name members
    rw [hdoc, List.map_eq_singleton_iff] at h
    obtain ⟨⟨i, _⟩, hi, rfl⟩ := h
    exact ⟨i, hi⟩
  simp [Fields.field, hi, hread, standingAt]

private theorem Reads.absent {default : α} {read : Reader δ ε α} (hdoc : given name members = []) :
    (optional name default read).Reads members default := by
  intro place
  have h := map_snd_occurrences name members
  rw [hdoc, List.map_eq_nil_iff] at h
  simp [optional, Fields.field, h, Fields.absent]

/-- A field that is left out when there is nothing to write. -/
theorem Reads.ofOption {members : List (String × Json)} {read : Reader Json ε α} {toDoc : α → Json} {a? : Option α}
    (hdoc : given name members = (a?.map toDoc).toList)
    (hread : ∀ a ∈ a?, Json.asOption read (toDoc a) = .ok (some a)) :
    (optional name none (Json.asOption read)).Reads members a? := by
  cases a? with
  | none => exact .absent hdoc
  | some a => exact .field hdoc (hread a rfl)

/-- A field that is left out when its list is empty. -/
theorem Reads.ofList {members : List (String × Json)} {read : Reader Json ε (List α)} {toDoc : α → Json} {as : List α}
    (hdoc : given name members = if as.map toDoc ≠ [] then [.array (as.map toDoc)] else [])
    (hread : read (.array (as.map toDoc)) = .ok as) : (optional name [] read).Reads members as := by
  cases as with
  | nil => exact .absent hdoc
  | cons a as => exact .field hdoc hread

theorem Reads.pure (a : α) : (pure a : Fields δ ε α).Reads members a := fun _ => rfl

theorem Reads.map {fields : Fields δ ε α} {a : α} (f : α → β) (h : fields.Reads members a) :
    (f <$> fields).Reads members (f a) := by
  intro place
  have hmap : (f <$> fields).read place (.named members) = (fields.read place (.named members)).map f := rfl
  rw [hmap, h]
  rfl

theorem Reads.seq {fields : Fields δ ε (α → β)} {arg : Fields δ ε α} {f : α → β} {a : α}
    (hf : fields.Reads members f) (ha : arg.Reads members a) : (fields <*> arg).Reads members (f a) := by
  intro place
  have hseq : (fields <*> arg).read place (.named members) =
    earliest (fields.read place (.named members)) (arg.read (place + fields.count) (.named members)) := rfl
  rw [hseq, hf, ha]
  rfl

/-- An object is read if its fields are. -/
theorem Reads.run {fields : Fields δ ε α} {a : α} (h : fields.Reads members a) :
    fields.run (.named members) = .ok a := by
  simp [Fields.run, h 0]

end Fields

/-- A list is read back from its documents if each of its items is. -/
theorem Reader.all_map {δ ε α : Type} {read : Reader δ ε α} {toDoc : α → δ} {as : List α}
    (h : ∀ a ∈ as, read (toDoc a) = .ok a) : Reader.all read (as.map toDoc) = .ok as := by
  induction as with
  | nil => rfl
  | cons a as ih =>
    have hrest := ih fun b hb => h b (List.mem_cons_of_mem _ hb)
    rw [List.map_cons, Reader.all, h a List.mem_cons_self]
    simp [hrest]

/-! ### Integers and names -/

namespace Json

variable {ε α : Type}

/-- The members for an optional document. -/
theorem forall_mem_ifPresent {P : String × Json → Prop} {key : String} {doc : Option Json} :
    (∀ member ∈ ifPresent key doc, P member) ↔ ∀ d ∈ doc, P (key, d) := by
  cases doc <;> simp [ifPresent]

/-- The members for a list that is left out if it is empty. -/
theorem forall_mem_unlessEmpty {P : String × Json → Prop} {key : String} {docs : List Json} :
    (∀ member ∈ unlessEmpty key docs, P member) ↔ (docs ≠ [] → P (key, .array docs)) := by
  cases docs <;> simp [unlessEmpty]

private theorem asInteger_int {low high n : Int} (hlow : low ≤ n) (hhigh : n ≤ high) :
    asInteger low high (.int n) = (.ok n : Except (ReadError ε) Int) := by
  simp [asInteger, hlow, hhigh]

private theorem asUInt8_int (n : UInt8) : asUInt8 (.int n.toNat) = (.ok n : Except (ReadError ε) UInt8) := by
  have hn := n.toNat_lt
  rw [asUInt8, asInteger_int (by omega) (by omega)]
  exact congrArg Except.ok UInt8.ofNat_toNat

theorem asUInt64_int (n : UInt64) : asUInt64 (.int n.toNat) = (.ok n : Except (ReadError ε) UInt64) := by
  have hn : (n.toNat : Int) < Int.pow 2 64 := Int.ofNat_lt.2 n.toNat_lt
  rw [asUInt64, asInteger_int (by omega) (Int.le_sub_one_of_lt hn)]
  exact congrArg Except.ok UInt64.ofNat_toNat

theorem asInt64_int (n : Int64) : asInt64 (.int n.toInt) = (.ok n : Except (ReadError ε) Int64) := by
  have hlow : -Int.pow 2 63 ≤ n.toInt := n.le_toInt
  have hhigh : n.toInt < Int.pow 2 63 := n.toInt_lt
  rw [asInt64, asInteger_int hlow (Int.le_sub_one_of_lt hhigh)]
  exact congrArg Except.ok (Int64.ofInt_toInt n)

/-- A name is read by its table. -/
theorem asName_string {strictness : Strictness} {ofName? : String → Option α} {name : String} {a : α}
    (h : ofName? name = some a) : asName strictness ofName? (.string name) = (.ok a : Except (ReadError ε) α) := by
  simp only [asName, asChoice, bind, Except.bind, h]
  rfl

end Json

/-- A unit is read back from its document. -/
theorem TemporalUnit.ofJson_toJson {ε : Type} (strictness : Strictness) (unit : TemporalUnit) :
    ofJson strictness unit.toJson = (.ok unit : Except (ReadError ε) TemporalUnit) :=
  Json.asName_string (by cases unit <;> decide)

/-! ### Types -/

namespace DataType

/-- Induction over types, with all columns of a struct at once. -/
theorem induction {P : DataType → Prop} (primitive : ∀ p, P (.primitive p)) (array : ∀ item, P item → P (.array item))
    (struct : ∀ columns, (∀ column ∈ columns, P column.type) → P (.struct columns))
    (map : ∀ key value, P key → P value → P (.map key value)) (type : DataType) : P type :=
  @DataType.rec P (fun columns => ∀ column ∈ columns, P column.type) (fun column => P column.type)
    primitive array struct map (by simp) (fun _ _ hcolumn hcolumns => List.forall_mem_cons.2 ⟨hcolumn, hcolumns⟩)
    (fun _ _ _ htype => htype) type

/-- The document of one column. -/
def columnToJson (column : Column DataType) : Json :=
  .object [("name", .string column.name), ("data_type", column.type.toJson), ("nullable", .bool column.nullable)]

private theorem columnsToJson_eq_map (columns : List (Column DataType)) :
    columnsToJson columns = columns.map columnToJson := by
  induction columns with
  | nil => rfl
  | cons column columns ih => rw [columnsToJson, ih, List.map_cons]; rfl

variable {ε : Type} {strictness : Strictness} {inner : Reader Json ε DataType}

private theorem column_toJson {column : Column DataType} (h : inner column.type.toJson = .ok column.type) :
    Json.asStructure (Column.fields inner) (columnToJson column) = .ok column := by
  obtain ⟨name, type, nullable⟩ := column
  refine Fields.Reads.run ?_
  unfold Column.fields
  exact .seq (.seq (.map _ (.field rfl rfl)) (.field rfl h)) (.field rfl rfl)

private theorem columns_toJson {columns : List (Column DataType)}
    (h : ∀ column ∈ columns, inner column.type.toJson = .ok column.type) :
    Json.asList (Json.asStructure (Column.fields inner)) (.array (columnsToJson columns)) = .ok columns := by
  rw [columnsToJson_eq_map]
  exact Reader.all_map fun column hcolumn => column_toJson (h column hcolumn)

private theorem depth_lt_of_mem {columns : List (Column DataType)} {column : Column DataType} (h : column ∈ columns) :
    column.type.toJson.depth < Json.depthItems (columnsToJson columns) := by
  have hitem : columnToJson column ∈ columnsToJson columns := by
    rw [columnsToJson_eq_map]
    exact List.mem_map_of_mem h
  have hle := Json.depthItems_le_iff.1 (Nat.le_refl _) _ hitem
  simp only [columnToJson, Json.depth, Json.depthMembers] at hle
  omega

private theorem ofNested_primitive (p : Primitive) (bound : Nat) :
    ofNested strictness (bound + 1) p.toJson = (.ok (.primitive p) : Except (ReadError ε) DataType) := by
  cases p with
  | decimal precision scale =>
    refine Fields.Reads.run (a := decimal precision scale) ?_
    exact .seq (.map _ (.field rfl (Json.asUInt8_int precision))) (.field rfl (Json.asUInt8_int scale))
  | timestamp zone =>
    have hread : (timestamp <$> Fields.optional "timezone" none (Json.asOption Json.asString)).Reads
        (zone.map fun zone => ("timezone", .string zone)).toList (timestamp zone) (ε := ε) := by
      cases zone with
      | none => exact .map _ (.absent rfl)
      | some zone => exact .map _ (.field rfl rfl)
    cases zone <;> exact hread.run
  | interval unit =>
    refine Fields.Reads.run (a := interval unit) ?_
    exact .map _ (.field rfl (TemporalUnit.ofJson_toJson strictness unit))
  | int width => cases width <;> rfl
  | uint width => cases width <;> rfl
  | _ => rfl

/-- A type is read back from its document. -/
theorem ofNested_toJson (type : DataType) {bound : Nat} (hbound : type.toJson.depth < bound) :
    ofNested strictness bound type.toJson = (.ok type : Except (ReadError ε) DataType) := by
  induction type using DataType.induction generalizing bound with
  | primitive p =>
    obtain ⟨bound, rfl⟩ : ∃ k, bound = k + 1 := ⟨bound - 1, by omega⟩
    exact ofNested_primitive p bound
  | array item ih =>
    obtain ⟨bound, rfl⟩ : ∃ k, bound = k + 1 := ⟨bound - 1, by omega⟩
    simp only [toJson, Json.depth, Json.depthMembers] at hbound
    have hread : ofNested strictness (bound + 1) (toJson (.array item)) =
      ((ofNested strictness bound item.toJson).map array : Except (ReadError ε) DataType) := rfl
    rw [hread, ih (by omega)]
    rfl
  | struct columns ih =>
    obtain ⟨bound, rfl⟩ : ∃ k, bound = k + 1 := ⟨bound - 1, by omega⟩
    have hread : ofNested strictness (bound + 1) (toJson (.struct columns)) =
      ((Json.asList (Json.asStructure (Column.fields (ofNested strictness bound)))
        (.array (columnsToJson columns))).map struct : Except (ReadError ε) DataType) := rfl
    simp only [toJson, Json.depth, Json.depthMembers] at hbound
    have hdepth : ∀ column ∈ columns, column.type.toJson.depth < bound := by
      intro column hcolumn
      have := depth_lt_of_mem hcolumn
      omega
    rw [hread, columns_toJson fun column hcolumn => ih column hcolumn (hdepth column hcolumn)]
    rfl
  | map key value ihkey ihvalue =>
    obtain ⟨bound, rfl⟩ : ∃ k, bound = k + 1 := ⟨bound - 1, by omega⟩
    simp only [toJson, Json.depth, Json.depthMembers] at hbound
    refine Fields.Reads.run (a := map key value) ?_
    exact .seq (.map _ (.field rfl (ihkey (by omega)))) (.field rfl (ihvalue (by omega)))

private theorem numbersFit_columnsToJson {columns : List (Column DataType)}
    (h : ∀ column ∈ columns, column.type.toJson.NumbersFit) : ∀ doc ∈ columnsToJson columns, doc.NumbersFit := by
  rw [columnsToJson_eq_map]
  simpa [columnToJson] using h

/-- The document of a type holds no numbers that do not fit into 64 bits. -/
theorem numbersFit_toJson (type : DataType) : type.toJson.NumbersFit := by
  induction type using DataType.induction with
  | primitive p =>
    cases p with
    | decimal precision scale =>
      have hfits : ∀ n : UInt8, Json.NumbersFit (.int n.toNat) :=
        fun n => Json.numbersFit_natCast (Nat.lt_trans n.toNat_lt (by decide))
      simpa [toJson, Primitive.toJson, -Json.numbersFit_int] using ⟨hfits precision, hfits scale⟩
    | timestamp zone => cases zone <;> simp [toJson, Primitive.toJson]
    | _ => simp [toJson, Primitive.toJson, TemporalUnit.toJson]
  | array item ih => simpa [toJson] using ih
  | struct columns ih => simpa [toJson] using numbersFit_columnsToJson ih
  | map key value ihkey ihvalue => simpa [toJson] using ⟨ihkey, ihvalue⟩

/-- A type is read back from its document. -/
theorem ofJson_toJson (type : DataType) :
    ofJson strictness type.toJson = (.ok type : Except (ReadError ε) DataType) :=
  type.ofNested_toJson (Nat.lt_succ_self _)

end DataType

/-- A schema is read back from its document. -/
theorem Schema.ofJson_toJson {ε : Type} (strictness : Strictness) (schema : Schema) :
    ofJson strictness (Schema.toJson schema) = (.ok schema : Except (ReadError ε) Schema) := by
  refine Fields.Reads.run (.field rfl (DataType.columns_toJson fun column _ => column.type.ofJson_toJson))

/-- The document of a schema holds no numbers that do not fit into 64 bits. -/
theorem Schema.numbersFit_toJson (schema : Schema) : (Schema.toJson schema).NumbersFit := by
  simpa [toJson] using DataType.numbersFit_columnsToJson fun column _ => column.type.numbersFit_toJson

/-! ### Values -/

section

open Float.Model

/-- Floats are told apart by their bits. -/
theorem eq_of_toBits {x y : Float} (h : x.toBits.toNat = y.toBits.toNat) : x = y := by
  obtain ⟨⟨bits, _⟩⟩ := x
  obtain ⟨⟨bits', _⟩⟩ := y
  obtain rfl : bits = bits' := UInt64.toNat_inj.1 h
  rfl

/-- In a float that is not finite, all bits of the exponent are set; the mantissa tells the infinities. -/
private theorem bits_of_not_finite (bits : BitVec 64) :
    ((UnpackedFloat.unpack .binary64 bits).isNaN = true →
      @UnpackedFloat.unpackExponent .binary64 bits = -1#11 ∧ @UnpackedFloat.unpackMantissa .binary64 bits ≠ 0#52) ∧
    ((UnpackedFloat.unpack .binary64 bits).isInf = true →
      @UnpackedFloat.unpackExponent .binary64 bits = -1#11 ∧
        @UnpackedFloat.unpackMantissa .binary64 bits = 0#52) := by
  by_cases hexponent : @UnpackedFloat.unpackExponent .binary64 bits = -1#11
  · by_cases hmantissa : @UnpackedFloat.unpackMantissa .binary64 bits = 0#52
    · have hbits : UnpackedFloat.unpack .binary64 bits = .infinity _ := (if_pos hexponent).trans (if_pos hmantissa)
      rw [hbits]
      exact ⟨fun h => (by cases h), fun _ => ⟨hexponent, hmantissa⟩⟩
    · have hbits : UnpackedFloat.unpack .binary64 bits = .notANumber := (if_pos hexponent).trans (if_neg hmantissa)
      rw [hbits]
      exact ⟨fun _ => ⟨hexponent, hmantissa⟩, fun h => (by cases h)⟩
  · have hfinite : (UnpackedFloat.unpack .binary64 bits).isNaN = false ∧
        (UnpackedFloat.unpack .binary64 bits).isInf = false := by
      by_cases hzero : @UnpackedFloat.unpackExponent .binary64 bits = 0#11
      · by_cases hmantissa : @UnpackedFloat.unpackMantissa .binary64 bits = 0#52
        · have hbits : UnpackedFloat.unpack .binary64 bits = .zero _ :=
            (if_neg hexponent).trans ((if_pos hzero).trans (dif_pos hmantissa))
          rw [hbits]
          exact ⟨rfl, rfl⟩
        · have hbits : UnpackedFloat.unpack .binary64 bits = .finite _ _ _ _ :=
            (if_neg hexponent).trans ((if_pos hzero).trans (dif_neg hmantissa))
          rw [hbits]
          exact ⟨rfl, rfl⟩
      · have hbits : UnpackedFloat.unpack .binary64 bits = .finite _ _ _ _ :=
          (if_neg hexponent).trans (if_neg hzero)
        rw [hbits]
        exact ⟨rfl, rfl⟩
    simp [hfinite]

/-- There is one float that is not a number. -/
theorem eq_of_isNaN {x : Float} (h : x.isNaN = true) : x = 0 / 0 := by
  obtain ⟨hexponent, hmantissa⟩ := (bits_of_not_finite x.toBits.toBitVec).1 h
  have hbits := x.toModel.valid.eq_packedNaN hexponent hmantissa
  exact eq_of_toBits ((congrArg BitVec.toNat hbits).trans (by decide))

/-- There is one infinite float of either sign. -/
private theorem eq_of_isInf {x : Float} (h : x.isInf = true) : x = if isNegative x then -1 / 0 else 1 / 0 := by
  obtain ⟨hexponent, hmantissa⟩ := (bits_of_not_finite x.toBits.toBitVec).2 h
  have hexponent : x.toBits.toNat / 2 ^ 52 % 2 ^ 11 = 2 ^ 11 - 1 := by
    have h := congrArg BitVec.toNat hexponent
    simp only [UnpackedFloat.unpackExponent, BitVec.toNat_cast, BitVec.extractLsb_toNat,
      Nat.shiftRight_eq_div_pow] at h
    exact h
  have hmantissa : x.toBits.toNat % 2 ^ 52 = 0 := by
    have h := congrArg BitVec.toNat hmantissa
    simp only [UnpackedFloat.unpackMantissa, BitVec.toNat_cast, BitVec.extractLsb_toNat, Nat.shiftRight_zero] at h
    exact h
  have hlt := x.toBits.toNat_lt
  refine eq_of_toBits ?_
  split
  case isTrue hsign =>
    have hsign : x.toBits.toNat / 2 ^ 63 = 1 := by simpa [isNegative] using hsign
    have hbits : (-1 / 0 : Float).toBits.toNat = 2 ^ 63 + (2 ^ 11 - 1) * 2 ^ 52 := by decide
    omega
  case isFalse hsign =>
    have hsign : x.toBits.toNat / 2 ^ 63 ≠ 1 := by simpa [isNegative] using hsign
    have hbits : (1 / 0 : Float).toBits.toNat = (2 ^ 11 - 1) * 2 ^ 52 := by decide
    omega

end

namespace Value

variable {ε : Type}

/-- Every float is read back from its document, and so are infinities and the ones that are no numbers. -/
theorem asFloat_floatToJson (x : Float) : asFloat (floatToJson x) = (.ok x : Except (ReadError ε) Float) := by
  unfold floatToJson
  split
  case isTrue hnan => exact congrArg Except.ok (eq_of_isNaN hnan).symm
  case isFalse =>
    split
    case isTrue hinf =>
      have hx := eq_of_isInf hinf
      cases hsign : isNegative x <;> rw [hsign] at hx <;> exact congrArg Except.ok hx.symm
    case isFalse => rfl

/-- Induction over values, with all items of an array at once. -/
theorem induction {P : Value → Prop}
    (step : ∀ v, (∀ items, v = .array items → ∀ item ∈ items, P item) → P v) (v : Value) : P v :=
  step v fun _ _ item _ => induction step item
termination_by v
decreasing_by
  rename_i items hv hitem
  have := List.sizeOf_lt_of_mem hitem
  subst hv
  simp
  omega

theorem itemsToJson_eq_map (items : List Value) : itemsToJson items = items.map toJson := by
  induction items with
  | nil => rfl
  | cons item items ih => rw [itemsToJson, ih, List.map_cons]

/-- The document of a value with contents is read by its kind. -/
private theorem ofNestedValue_tagged {strictness : Strictness} {kind : String} {tag : Tag}
    (htag : Tag.ofName? kind = some tag) (contents : Json) (bound : Nat) :
    ofNestedValue strictness (bound + 1) (tagged kind contents) =
      ofContents (ofNestedValue strictness bound) tag contents (ε := ε) := by
  have hfields : Json.asStructure (taggedFields strictness) (tagged kind contents) =
      (.ok (tag, some contents) : Except (ReadError ε) _) := by
    refine Fields.Reads.run ?_
    unfold taggedFields
    exact .seq (.map _ (.field rfl (Json.asName_string htag))) (.field rfl rfl)
  rw [ofNestedValue, hfields]
  rfl

private theorem asText_string {α : Type} {ofText? : String → Option α} {text : String} {a : α}
    (h : ofText? text = some a) : asText ofText? (.string text) = (.ok a : Except (ReadError ε) α) := by
  have hread : asText ofText? (.string text) = (Reader.ofOption ofText? text : Except (ReadError ε) α) := rfl
  rw [hread, Reader.ofOption, h]

/-- A value is read back from its document. -/
theorem ofNestedValue_toJson {strictness : Strictness} (v : Value) {bound : Nat} (hbound : v.toJson.depth < bound) :
    ofNestedValue strictness bound v.toJson = (.ok v : Except (ReadError ε) Value) := by
  induction v using Value.induction generalizing bound with
  | step v ih =>
    obtain ⟨bound, rfl⟩ : ∃ k, bound = k + 1 := ⟨bound - 1, by omega⟩
    -- The kind of the value leads to the reader of its contents.
    have hkind : ∀ {kind : String} {tag : Tag} {contents : Json}, v.toJson = tagged kind contents →
        Tag.ofName? kind = some tag →
        ofContents (ofNestedValue strictness bound) tag contents = (.ok v : Except (ReadError ε) Value) →
        ofNestedValue strictness (bound + 1) v.toJson = (.ok v : Except (ReadError ε) Value) := by
      intro kind tag contents hdoc htag hread
      rw [hdoc, ofNestedValue_tagged htag, hread]
    cases v with
    | null => rfl
    | boolean b => exact hkind rfl rfl rfl
    | int n => exact hkind rfl rfl (by rw [ofContents, Json.asInt64_int]; rfl)
    | uint n => exact hkind rfl rfl (by rw [ofContents, Json.asUInt64_int]; rfl)
    | float x => exact hkind rfl rfl (by rw [ofContents, asFloat_floatToJson]; rfl)
    | decimal text => exact hkind rfl rfl rfl
    | string text => exact hkind rfl rfl rfl
    | binary bytes =>
      have hread : Json.asList Json.asUInt8 (.array (bytes.map fun b => .int b.toNat)) =
        (.ok bytes : Except (ReadError ε) (List UInt8)) := Reader.all_map fun b _ => Json.asUInt8_int b
      exact hkind rfl rfl (by rw [ofContents, hread]; rfl)
    | date d => exact hkind rfl rfl (by rw [ofContents, asText_string d.ofText?_text]; rfl)
    | time t => exact hkind rfl rfl (by rw [ofContents, asText_string t.ofText?_text]; rfl)
    | timestamp t => exact hkind rfl rfl (by rw [ofContents, asText_string t.ofText?_text]; rfl)
    | json text => exact hkind rfl rfl rfl
    | array items =>
      simp only [toJson, tagged, itemsToJson_eq_map, Json.depth, Json.depthMembers] at hbound
      have hitems := Json.depthItems_le_iff.1 (Nat.le_refl (Json.depthItems (items.map toJson)))
      have hread : Json.asList (ofNestedValue strictness bound) (.array (itemsToJson items)) =
          (.ok items : Except (ReadError ε) (List Value)) := by
        rw [itemsToJson_eq_map]
        refine Reader.all_map fun item hitem => ih items rfl item hitem ?_
        have := hitems _ (List.mem_map_of_mem hitem)
        omega
      exact hkind rfl rfl (by rw [ofContents, hread]; rfl)

/-- A value is read back from its document. -/
theorem ofJson_toJson {strictness : Strictness} (v : Value) :
    ofJson strictness v.toJson = (.ok v : Except (ReadError ε) Value) :=
  v.ofNestedValue_toJson (Nat.lt_succ_self _)

/-- The numbers in the document of a value fit into 64 bits. -/
theorem numbersFit_toJson (v : Value) : v.toJson.NumbersFit := by
  induction v using Value.induction with
  | step v ih =>
    cases v with
    | int n =>
      have hlow := n.le_toInt
      have hhigh := n.toInt_lt
      have hfits : Json.NumbersFit (.int n.toInt) := Json.numbersFit_int.2 ⟨by omega, by omega⟩
      simpa [toJson, tagged, -Json.numbersFit_int] using hfits
    | uint n => simpa [toJson, tagged, -Json.numbersFit_int] using Json.numbersFit_natCast n.toNat_lt
    | float x =>
      have hfloat : (floatToJson x).NumbersFit := by
        unfold floatToJson
        split
        case isTrue => simp
        case isFalse hnan =>
          split
          case isTrue => simp
          case isFalse hinf => exact Json.numbersFit_float.2 ⟨Bool.eq_false_iff.2 hnan, Bool.eq_false_iff.2 hinf⟩
      simpa [toJson, tagged] using hfloat
    | binary bytes =>
      have hfits : ∀ b ∈ bytes, Json.NumbersFit (.int b.toNat) :=
        fun b _ => Json.numbersFit_natCast (Nat.lt_trans b.toNat_lt (by decide))
      simpa [toJson, tagged, -Json.numbersFit_int] using hfits
    | array items =>
      rw [toJson, itemsToJson_eq_map]
      simpa [tagged] using ih items rfl
    | _ => simp [toJson, tagged]

end Value

end SqlPlan
