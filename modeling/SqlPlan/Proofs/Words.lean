import SqlPlan.Proofs.Lexing
import SqlPlan.Proofs.Numerals
import SqlPlan.Proofs.Outcome

/-!
# Words of SQL

The texts that a compiler puts into a statement as they are: literals, names of types and single words.

* `LiteralText`: how literals are spelled. Numbers, quoted values and arrays of literals are.
* `LiteralText.contained`, `Compiler.typeName_contained`: literals and names of types close all that they open.
-/

namespace SqlPlan

open Sql

namespace Sql

/-! ### Numbers -/

/-- Whether a character may stand in a number behind its first one. -/
def isNumeralChar (c : Char) : Bool := c.isDigit || c == '.' || c == 'e' || c == '-'

/-- A number without a sign: it starts with a digit, and its exponent may have a sign. -/
structure Numeral (cs : List Char) : Prop where
  head : ∃ d rest, cs = d :: rest ∧ d.isDigit = true
  chars : ∀ c ∈ cs, isNumeralChar c = true
  uncommented : ¬Commented cs

section

variable {c : Char}

private theorem digit_bounds (h : c.isDigit = true) : 48 ≤ c.toNat ∧ c.toNat ≤ 57 := by
  simp only [Char.isDigit, Bool.and_eq_true, decide_eq_true_eq] at h
  exact h

private theorem isPlain_of_isDigit (h : c.isDigit = true) : isPlain c = true := by
  have hbounds := digit_bounds h
  have hne : ∀ d : Char, d.toNat < 48 ∨ 57 < d.toNat → c ≠ d := by
    rintro d hd rfl
    omega
  simp [isPlain, hne]

private theorem isPlain_of_isNumeralChar (h : isNumeralChar c = true) : isPlain c = true ∨ c = '-' := by
  simp only [isNumeralChar, Bool.or_eq_true, beq_iff_eq] at h
  rcases h with ((h | rfl) | rfl) | rfl
  · exact .inl (isPlain_of_isDigit h)
  · exact .inl (by decide)
  · exact .inl (by decide)
  · exact .inr rfl

end

namespace Numeral

variable {cs ds : List Char}

/-- A number closes all that it opens, which is nothing, and starts no comment. -/
theorem contained (h : Numeral cs) : Contained cs :=
  .of_hyphens (fun c hc => isPlain_of_isNumeralChar (h.chars c hc)) h.uncommented

/-- A number without a sign has no sign. -/
theorem head?_ne (h : Numeral cs) : cs.head? ≠ some '-' := by
  obtain ⟨d, rest, rfl, hd⟩ := h.head
  rintro ⟨⟩
  exact absurd hd (by decide)

/-- A number without an exponent. -/
private theorem of_point (hhead : ∃ d rest, cs = d :: rest ∧ d.isDigit = true)
    (hchars : ∀ c ∈ cs, c.isDigit = true ∨ c = '.') : Numeral cs := by
  refine ⟨hhead, fun c hc => ?_, not_commented_of_not_mem ?_ ?_⟩
  · rcases hchars c hc with h | rfl
    · simp [isNumeralChar, h]
    · rfl
  · intro hdash
    rcases hchars _ hdash with h | h <;> exact absurd h (by decide)
  · intro hslash
    rcases hchars _ hslash with h | h <;> exact absurd h (by decide)

private theorem of_digits (hne : ds ≠ []) (hds : ∀ d ∈ ds, d.isDigit = true) : Numeral ds := by
  obtain ⟨d, rest, rfl⟩ := List.exists_cons_of_ne_nil hne
  exact of_point ⟨d, rest, rfl, hds d (by simp)⟩ fun c hc => .inl (hds c hc)

theorem toDigits (n : Nat) : Numeral (Nat.toDigits 10 n) :=
  of_digits Nat.toDigits_ne_nil fun _ => isDigit_of_mem_toDigits

/-- A number with an exponent. -/
private theorem exponent {sign : List Char} (h : Numeral cs) (hsign : sign = [] ∨ sign = ['-']) (n : Nat) :
    Numeral (cs ++ 'e' :: (sign ++ Nat.toDigits 10 n)) := by
  have hn := toDigits n
  refine ⟨?_, ?_, ?_⟩
  · obtain ⟨d, rest, rfl, hd⟩ := h.head
    exact ⟨d, _, rfl, hd⟩
  · intro c hc
    simp only [List.mem_append, List.mem_cons] at hc
    rcases hc with hc | rfl | hc | hc
    · exact h.chars c hc
    · rfl
    · rcases hsign with rfl | rfl
      · cases hc
      · obtain rfl := List.mem_singleton.1 hc
        rfl
    · exact hn.chars c hc
  · rw [commented_append_cons (by decide) (by decide), commented_cons (by decide) (by decide), not_or]
    refine ⟨h.uncommented, ?_⟩
    rcases hsign with rfl | rfl
    · exact hn.uncommented
    · rw [List.singleton_append, commented_hyphen hn.head?_ne]
      exact hn.uncommented

end Numeral

/-! ### Literals -/

/-- The text of a literal. -/
inductive LiteralText : String → Prop
  | word {text : String} (h : text ∈ ["NULL", "TRUE", "FALSE"]) : LiteralText text
  | number {text : String} (h : Numeral text.toList) : LiteralText text
  | negative {text : String} {cs : List Char} (htext : text.toList = '-' :: cs) (h : Numeral cs) : LiteralText text
  | string (mark text : String) (h : mark ∈ ["", "X", "TIME ", "TIMESTAMP "]) : LiteralText (mark ++ quoteString text)
  | array (contents : String) (h : Contained contents.toList) : LiteralText ("ARRAY[" ++ contents ++ "]")

/-- A quoted text is contained, whatever is quoted. -/
theorem contained_quoteString (text : String) : Contained (quoteString text).toList :=
  ⟨closed_quoteString text, by rw [bare_quoteString]; decide, by rw [bare_quoteString]; decide⟩

/-- A quoted identifier is contained, whatever is quoted. -/
theorem contained_quoteIdent (name : String) : Contained (quoteIdent name).toList :=
  ⟨closed_quoteIdent name, by rw [bare_quoteIdent]; decide, by rw [bare_quoteIdent]; decide⟩

namespace LiteralText

/-- The text of a literal closes all that it opens. -/
theorem contained {text : String} (h : LiteralText text) : Contained text.toList := by
  cases h with
  | word h =>
    simp only [List.mem_cons, List.not_mem_nil, or_false] at h
    rcases h with rfl | rfl | rfl <;> decide
  | number h => exact h.contained
  | negative htext h =>
    rw [htext]
    refine .of_hyphens (fun c hc => ?_) (by rw [commented_hyphen h.head?_ne]; exact h.uncommented)
    rcases List.mem_cons.1 hc with rfl | hc
    · exact .inr rfl
    · exact isPlain_of_isNumeralChar (h.chars c hc)
  | string mark text h =>
    rw [String.toList_append]
    refine .plain_append ?_ (contained_quoteString text)
    simp only [List.mem_cons, List.not_mem_nil, or_false] at h
    rcases h with rfl | rfl | rfl | rfl <;> decide
  | array contents h =>
    have harray : Contained "ARRAY".toList := by decide
    simpa using harray.enclosed (by rfl : closer? '[' = some ']') h .nil

/-- The text of an integer is a literal. -/
theorem int (n : Int) : LiteralText (toString n) := by
  cases n with
  | ofNat m => exact .number (by rw [toList_toString_ofNat]; exact .toDigits m)
  | negSucc m => exact .negative (toList_toString_negSucc m) (.toDigits (m + 1))

end LiteralText

private theorem numeral_positional {ds : List Char} (hne : ds ≠ []) (hds : ∀ d ∈ ds, d.isDigit = true)
    (exponent : Int) : Numeral (FloatLayout.positional ds exponent) := by
  have hzeros : ∀ n, ∀ d ∈ FloatLayout.zeros n, d.isDigit = true := by
    intro n d hd
    rw [List.eq_of_mem_replicate hd]
    rfl
  obtain ⟨d, rest, rfl⟩ := List.exists_cons_of_ne_nil hne
  unfold FloatLayout.positional
  split
  · refine .of_point ⟨d, _, rfl, hds d (by simp)⟩ fun c hc => ?_
    simp only [List.mem_append, List.mem_cons, List.not_mem_nil, or_false] at hc
    rcases hc with (hc | hc) | rfl | rfl
    · exact .inl (hds c (List.mem_cons.2 hc))
    · exact .inl (hzeros _ c hc)
    · exact .inr rfl
    · exact .inl rfl
  · dsimp only
    split
    · rename_i hplaces
      refine .of_point ?_ fun c hc => ?_
      · obtain ⟨k, hk⟩ : ∃ k, (d :: rest).length - (-exponent).toNat = k + 1 := ⟨_, (Nat.succ_pred (by omega)).symm⟩
        rw [hk]
        exact ⟨d, _, rfl, hds d (by simp)⟩
      · rcases List.mem_append.1 hc with hc | hc
        · exact .inl (hds c (List.mem_of_mem_take hc))
        · rcases List.mem_cons.1 hc with rfl | hc
          · exact .inr rfl
          · exact .inl (hds c (List.mem_of_mem_drop hc))
    · refine .of_point ⟨'0', _, rfl, rfl⟩ fun c hc => ?_
      simp only [List.mem_cons, List.mem_append] at hc
      rcases hc with rfl | rfl | hc | hc
      · exact .inl rfl
      · exact .inr rfl
      · exact .inl (hzeros _ c hc)
      · exact .inl (hds c (List.mem_cons.2 hc))

private theorem numeral_scientific {ds : List Char} (hne : ds ≠ []) (hds : ∀ d ∈ ds, d.isDigit = true)
    (leading : Int) : Numeral (FloatLayout.sql.scientific ds leading) := by
  have hchars : ∀ c ∈ ds.take 1 ++ (if ds.length ≤ 1 then [] else '.' :: ds.drop 1), c.isDigit = true ∨ c = '.' := by
    intro c hc
    rcases List.mem_append.1 hc with hc | hc
    · exact .inl (hds c (List.mem_of_mem_take hc))
    · split at hc
      · cases hc
      · rcases List.mem_cons.1 hc with rfl | hc
        · exact .inr rfl
        · exact .inl (hds c (List.mem_of_mem_drop hc))
  obtain ⟨d, rest, rfl⟩ := List.exists_cons_of_ne_nil hne
  unfold FloatLayout.scientific
  refine Numeral.exponent (.of_point ⟨d, _, rfl, hds d (by simp)⟩ hchars) ?_ leading.natAbs
  split
  · exact .inr rfl
  · exact .inl rfl

/-- A float is written as a number, with a sign if it is negative. -/
theorem numeral_write (x : Float) :
    ∃ cs, Numeral cs ∧ (FloatLayout.sql.write x).toList = (if isNegative x then ['-'] else []) ++ cs := by
  have hds : ∀ n, ∀ d ∈ Nat.toDigits 10 n, d.isDigit = true := fun n _ => isDigit_of_mem_toDigits
  unfold FloatLayout.write
  dsimp only
  split
  · exact ⟨_, .of_point ⟨'0', _, rfl, rfl⟩ (by decide), String.toList_ofList⟩
  · refine ⟨_, ?_, String.toList_ofList⟩
    split
    · exact numeral_positional Nat.toDigits_ne_nil (hds _) _
    · exact numeral_scientific Nat.toDigits_ne_nil (hds _) _

/-- The text of a float is a literal. -/
theorem LiteralText.float (x : Float) : LiteralText (FloatLayout.sql.write x) := by
  obtain ⟨cs, hcs, htext⟩ := numeral_write x
  split at htext
  · exact .negative htext hcs
  · exact .number (by rwa [htext])

/-- A negative integer is written with a sign. -/
theorem lt_of_head?_toString {n : Int} (h : (toString n).toList.head? = some '-') : n < 0 := by
  cases n with
  | ofNat m =>
    rw [toList_toString_ofNat] at h
    exact absurd h (Numeral.toDigits m).head?_ne
  | negSucc m => exact Int.negSucc_lt_zero m

/-- Only the texts of negative floats start with a sign. -/
theorem isNegative_of_head?_write {x : Float} (h : (FloatLayout.sql.write x).toList.head? = some '-') :
    isNegative x = true := by
  obtain ⟨cs, hcs, htext⟩ := numeral_write x
  split at htext
  · assumption
  · rw [htext] at h
    exact absurd h hcs.head?_ne

/-! ### Quoted values -/

/-- Text without a quote needs none written twice. -/
private theorem quoteString_of_not_mem {text : String} (h : '\'' ∉ text.toList) :
    quoteString text = "'" ++ text ++ "'" := by
  have hdoubled : ∀ cs : List Char, '\'' ∉ cs → doubled '\'' cs = cs := by
    intro cs hcs
    induction cs with
    | nil => rfl
    | cons c cs ih =>
      rw [List.mem_cons, not_or] at hcs
      rw [doubled_cons, if_neg (Ne.symm hcs.1), ih hcs.2]
      rfl
  apply String.toList_inj.1
  rw [quoteString, toList_quoted, hdoubled _ h]
  simp

/-- A marked text without a quote in it. -/
theorem LiteralText.marked (mark text : String) (hmark : mark ∈ ["", "X", "TIME ", "TIMESTAMP "])
    (h : '\'' ∉ text.toList) : LiteralText (mark ++ "'" ++ text ++ "'") := by
  have htext := LiteralText.string mark text hmark
  rwa [quoteString_of_not_mem h, ← String.append_assoc, ← String.append_assoc] at htext

private theorem not_mem_padded (width n : Nat) : '\'' ∉ (Calendar.padded width n).toList := by
  intro h
  exact absurd (Calendar.isDigit_of_mem_padded h) (by decide)

theorem not_mem_dateText (d : Date) : '\'' ∉ d.text.toList := by
  have hyear : '\'' ∉ (Date.yearText d.year).toList := by
    unfold Date.yearText
    split
    · simp [not_mem_padded]
    · split <;> simp [not_mem_padded]
  simp [Date.text, hyear, not_mem_padded]

theorem not_mem_timeText (t : TimeOfDay) : '\'' ∉ t.text.toList := by
  have hfraction : '\'' ∉ (Calendar.fractionText t.nano).toList := by
    unfold Calendar.fractionText
    split
    · simp
    · split
      · simp [not_mem_padded]
      · split <;> simp [not_mem_padded]
  simp [TimeOfDay.text, hfraction, not_mem_padded]

theorem not_mem_hexCapitals (bytes : List UInt8) : '\'' ∉ (hexCapitals bytes).toList := by
  have hdigit : ∀ n < 16, (Nat.digitChar n).toUpper ≠ '\'' := by decide
  have hpadded : ∀ width n, '\'' ∉ (hexPadded width n).map Char.toUpper := by
    intro width
    induction width with
    | zero => simp [hexPadded]
    | succ width ih =>
      intro n
      rw [hexPadded, List.map_append, List.mem_append, not_or]
      exact ⟨ih _, by simpa using (hdigit (n % 16) (Nat.mod_lt n (by decide))).symm⟩
  rw [hexCapitals, String.toList_ofList, List.mem_flatMap]
  rintro ⟨b, -, hb⟩
  exact hpadded 2 b.toNat hb

/-! ### Single words -/

/-- Whether a character may stand in a word. -/
def isWordChar (c : Char) : Bool := c.isUpper || c == '_'

/-- The characters of words are plain. -/
theorem isPlain_of_isWordChar {c : Char} (h : isWordChar c = true) : isPlain c = true := by
  simp only [isWordChar, Bool.or_eq_true, beq_iff_eq] at h
  rcases h with h | rfl
  · have hbounds : 65 ≤ c.toNat ∧ c.toNat ≤ 90 := of_decide_eq_true h
    have hne : ∀ d : Char, d.toNat < 65 ∨ 90 < d.toNat → c ≠ d := by
      rintro d hd rfl
      omega
    simp [isPlain, hne]
  · rfl

end Sql

/-! ### Names of types -/

theorem contained_toString (n : Nat) : Contained (toString n).toList := by
  rw [Nat.toString_eq_repr, Nat.toList_repr]
  exact (Numeral.toDigits n).contained

private theorem contained_ansiName? {p : Primitive} {name : String} (h : p.ansiName? = some name) :
    Contained name.toList := by
  cases p with
  | decimal precision scale =>
    obtain rfl := Option.some.inj h
    have hdecimal : Contained "DECIMAL".toList := by decide
    have hscale := (contained_toString scale.toNat).cons (by decide : isPlain ' ' = true)
    have hpair := (contained_toString precision.toNat).append_cons (by decide : isPlain ',' = true) hscale
    simpa using hdecimal.enclosed (by rfl : closer? '(' = some ')') hpair .nil
  | int width | uint width => cases width <;> cases h <;> decide
  | timestamp zone => cases zone <;> cases h <;> decide
  | null | unknown => cases h
  | boolean | float32 | float64 | string | binary | date | time | interval | json | uuid =>
    obtain rfl := Option.some.inj h
    decide

/-- The names of types that only some families have. -/
private def familyTypeNames : List String :=
  ["SMALLINT", "NUMERIC(20, 0)", "TEXT", "BYTEA", "TIMESTAMPTZ", "UTINYINT", "USMALLINT", "UINTEGER", "UBIGINT",
    "FLOAT", "DOUBLE", "BLOB"]

private theorem contained_sqlName? {family : Family} {p : Primitive} {name : String}
    (h : p.sqlName? family = some name) : Contained name.toList := by
  have hcontained : ∀ own ∈ familyTypeNames, Contained own.toList := by decide
  have hcases : p.sqlName? family = p.ansiName? ∨ ∃ own ∈ familyTypeNames, p.sqlName? family = some own := by
    unfold Primitive.sqlName?
    split <;> simp [familyTypeNames]
  rcases hcases with hplain | ⟨own, hmem, hown⟩
  · exact contained_ansiName? (hplain ▸ h)
  · obtain rfl : own = name := Option.some.inj (hown.symm.trans h)
    exact hcontained own hmem

namespace Compiler

variable (c : Compiler)

mutual

private theorem typeNameAs_contained : ∀ (family : Family) (type : DataType),
    Returns (fun name => Contained name.toList) (c.typeNameAs family type)
  | family, .primitive p => by
    rw [typeNameAs]
    split
    · rename_i name hname
      exact Returns.ok (contained_sqlName? hname)
    · exact Returns.error _
  | family, .array item => by
    rw [typeNameAs]
    refine (typeNameAs_contained c.family item).bind fun name hname => Returns.ok ?_
    simpa using hname.enclosed (by rfl : closer? '[' = some ']') .nil .nil
  | family, .struct columns => by
    have hrow : Contained "ROW".toList := by decide
    have hstruct : Contained "STRUCT".toList := by decide
    cases family with
    | ansi =>
      rw [typeNameAs]
      refine (columnTypes_contained columns).bind fun texts htexts => Returns.ok ?_
      simpa using hrow.enclosed (by rfl : closer? '(' = some ')') (Contained.intercalate htexts) .nil
    | duckdb =>
      rw [typeNameAs]
      refine (columnTypes_contained columns).bind fun texts htexts => Returns.ok ?_
      simpa using hstruct.enclosed (by rfl : closer? '(' = some ')') (Contained.intercalate htexts) .nil
    | postgres | risingwave => exact Returns.error _
  | family, .map key value => by
    cases family with
    | duckdb =>
      rw [typeNameAs]
      refine (typeNameAs_contained c.family key).bind fun key hkey => ?_
      refine (typeNameAs_contained c.family value).bind fun value hvalue => Returns.ok ?_
      have hpair := hkey.append_cons (by decide : isPlain ',' = true) (hvalue.cons (by decide : isPlain ' ' = true))
      have hmap : Contained "MAP".toList := by decide
      simpa using hmap.enclosed (by rfl : closer? '(' = some ')') hpair .nil
    | ansi | postgres | risingwave => exact Returns.error _

private theorem columnTypes_contained : ∀ columns : List (Column DataType),
    Returns (fun texts => ∀ text ∈ texts, Contained text.toList) (c.columnTypes columns)
  | [] => Returns.ok (by simp)
  | ⟨name, type, _⟩ :: columns => by
    rw [columnTypes]
    refine (typeNameAs_contained c.family type).bind fun typeName htype => ?_
    refine (columnTypes_contained columns).bind fun texts htexts => Returns.ok ?_
    have hcolumn := (contained_quoteIdent name).append_cons (by decide : isPlain ' ' = true) htype
    simpa using ⟨hcolumn.congr or_self_iff, htexts⟩

end

/-- The names of types are contained. -/
theorem typeName_contained (type : DataType) : Returns (fun name => Contained name.toList) (c.typeName type) :=
  c.typeNameAs_contained c.family type

end Compiler

end SqlPlan
