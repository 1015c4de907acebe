import SqlPlan.Proofs.Conformance
import SqlPlan.Proofs.FloatText
import SqlPlan.Proofs.Unambiguous

/-!
# Literals tell values apart

Two values of a type that are written as the same literal are the same, up to integers of which one has a sign and the
other has none. The literal is known from its text, so that it is enough to look at the text that stands inside of
casts and in front of units.

* `Value.Matches`: values that are the same up to the signs of integers.
* `Compiler.inner_literal`: the text inside of the literal of a value that is no array.
* `Compiler.matches_of_literal`: values of the same literal match.
* `Compiler.matches_of_literal_text`: literals of the same text belong to values that match.
-/

namespace SqlPlan

open Sql

/-! ### Texts of single values -/

private theorem quoteString_injective : Function.Injective quoteString := by
  intro x y h
  have hlist : (quoted '\'' x).toList ++ [] = (quoted '\'' y).toList ++ [] := by
    rw [List.append_nil, List.append_nil]
    exact congrArg String.toList h
  exact (quoted_append_inj (by simp) (by simp) hlist).1

/-- A quoted text starts with a quote. -/
theorem head?_quoteString (text : String) : (quoteString text).toList.head? = some '\'' := by
  rw [quoteString, toList_quoted]
  rfl

private theorem toString_int_injective : Function.Injective (toString : Int → String) := by
  intro m n h
  have hlist := congrArg String.toList h
  cases m with
  | ofNat m =>
    cases n with
    | ofNat n =>
      rw [toList_toString_ofNat, toList_toString_ofNat] at hlist
      rw [toDigits_injective hlist]
    | negSucc n =>
      rw [toList_toString_ofNat, toList_toString_negSucc] at hlist
      exact absurd (congrArg List.head? hlist) (Numeral.toDigits m).head?_ne
  | negSucc m =>
    cases n with
    | ofNat n =>
      rw [toList_toString_ofNat, toList_toString_negSucc] at hlist
      exact absurd (congrArg List.head? hlist).symm (Numeral.toDigits n).head?_ne
    | negSucc n =>
      rw [toList_toString_negSucc, toList_toString_negSucc] at hlist
      have := toDigits_injective (List.cons.inj hlist).2
      omega

/-- Bytes that are written with equally many characters each are told apart by their texts. -/
private theorem flatMap_injective {f : UInt8 → List Char} {k : Nat} (hlength : ∀ b, (f b).length = k + 1)
    (hf : Function.Injective f) : Function.Injective (List.flatMap f) := by
  have hne : ∀ b bs, List.flatMap f (b :: bs) ≠ [] := by
    intro b bs hnil
    have hempty := congrArg List.length (List.append_eq_nil_iff.1 hnil).1
    rw [hlength] at hempty
    cases hempty
  intro as bs h
  induction as generalizing bs with
  | nil =>
    cases bs with
    | nil => rfl
    | cons b bs => exact absurd h.symm (hne b bs)
  | cons a as ih =>
    cases bs with
    | nil => exact absurd h (hne a as)
    | cons b bs =>
      rw [List.flatMap_cons, List.flatMap_cons] at h
      obtain ⟨hhead, htail⟩ := List.append_inj h ((hlength a).trans (hlength b).symm)
      rw [hf hhead, ih htail]

private theorem hexPadded_two (n : Nat) : hexPadded 2 n = [Nat.digitChar (n / 16 % 16), Nat.digitChar (n % 16)] := rfl

private theorem eq_of_hexDigits {g : Char → Char} (hg : ∀ k < 16, hexValue? (g (Nat.digitChar k)) = some k)
    {a b : UInt8} (h : (hexPadded 2 a.toNat).map g = (hexPadded 2 b.toNat).map g) : a = b := by
  have hdigit : ∀ {j k : Nat}, j < 16 → k < 16 → g (Nat.digitChar j) = g (Nat.digitChar k) → j = k := by
    intro j k hj hk h
    exact Option.some.inj ((hg j hj).symm.trans ((congrArg hexValue? h).trans (hg k hk)))
  simp only [hexPadded_two, List.map_cons, List.map_nil, List.cons.injEq, and_true] at h
  have hhigh := hdigit (by omega) (by omega) h.1
  have hlow := hdigit (by omega) (by omega) h.2
  have := a.toNat_lt
  have := b.toNat_lt
  exact UInt8.toNat_inj.1 (by omega)

private theorem hexCapitals_injective : Function.Injective hexCapitals := by
  intro as bs h
  refine flatMap_injective (k := 1) (fun b => by simp [hexPadded_two]) (fun a b hab => ?_) (String.ofList_injective h)
  exact eq_of_hexDigits (by decide) hab

private theorem hexEscapes_injective : Function.Injective hexEscapes := by
  intro as bs h
  refine flatMap_injective (k := 3) (fun b => by simp [hexPadded_two]) (fun a b hab => ?_) (String.ofList_injective h)
  refine eq_of_hexDigits (g := id) Json.hexValue?_digitChar ?_
  simpa using hab

/-! ### Texts of floats -/

/-- The text of a float, which is quoted where the float is no number. -/
def floatSpelling (x : Float) : String :=
  if x.isNaN then "'NaN'"
  else if x.isInf then (if isNegative x then "'-Infinity'" else "'Infinity'")
  else FloatLayout.sql.write x

/-- A float is written as a quoted name, by which documents know it too, or as a number. -/
private theorem floatSpelling_cases (x : Float) :
    (∃ name ∈ ["NaN", "-Infinity", "Infinity"], Value.floatToJson x = .string name ∧
      floatSpelling x = quoteString name) ∨
    floatSpelling x = FloatLayout.sql.write x := by
  unfold Value.floatToJson floatSpelling
  split
  · exact .inl ⟨"NaN", by simp, rfl, by decide⟩
  · split
    · cases isNegative x
      · exact .inl ⟨"Infinity", by simp, rfl, by decide⟩
      · exact .inl ⟨"-Infinity", by simp, rfl, by decide⟩
    · exact .inr rfl

private theorem write_ne_quoteString (x : Float) (text : String) : FloatLayout.sql.write x ≠ quoteString text := by
  intro h
  exact FloatLayout.head?_write_ne (by decide) (by decide) x (h ▸ head?_quoteString text)

private theorem floatSpelling_injective : Function.Injective floatSpelling := by
  intro x y h
  rcases floatSpelling_cases x with ⟨name, -, hx, hname⟩ | hx
  · rcases floatSpelling_cases y with ⟨name', -, hy, hname'⟩ | hy
    · obtain rfl := quoteString_injective (hname.symm.trans (h.trans hname'))
      have hread := Value.asFloat_floatToJson (ε := Empty) x
      rw [hx, ← hy, Value.asFloat_floatToJson] at hread
      exact (Except.ok.inj hread).symm
    · exact absurd (hy.symm.trans (h.symm.trans hname)) (write_ne_quoteString y name)
  · rcases floatSpelling_cases y with ⟨name, -, -, hname⟩ | hy
    · exact absurd (hx.symm.trans (h.trans hname)) (write_ne_quoteString x name)
    · exact FloatLayout.write_injective (hx.symm.trans (h.trans hy))

/-- In the text of an integer there are digits and a minus only. -/
private theorem not_mem_toString_int {c : Char} (hminus : c ≠ '-') (hdigit : c.isDigit = false) (n : Int) :
    c ∉ (toString n).toList := by
  have hdigits : ∀ m, c ∉ Nat.toDigits 10 m := fun m h => by simpa [hdigit] using isDigit_of_mem_toDigits h
  cases n with
  | ofNat n =>
    rw [toList_toString_ofNat]
    exact hdigits n
  | negSucc n =>
    rw [toList_toString_negSucc, List.mem_cons, not_or]
    exact ⟨hminus, hdigits (n + 1)⟩

private theorem toString_int_ne_quoteString (n : Int) (text : String) : toString n ≠ quoteString text := by
  intro h
  refine not_mem_toString_int (c := '\'') (by decide) (by decide) n ?_
  rw [h]
  exact List.mem_of_head? (head?_quoteString text)

private theorem toString_int_ne_floatSpelling (n : Int) (x : Float) : toString n ≠ floatSpelling x := by
  intro h
  rcases floatSpelling_cases x with ⟨name, -, -, hx⟩ | hx
  · exact toString_int_ne_quoteString n name (h.trans hx)
  · rcases FloatLayout.mark_mem_write x with hmark | hmark <;> rw [← hx, ← h] at hmark
    · exact not_mem_toString_int (by decide) (by decide) n hmark
    · exact not_mem_toString_int (by decide) (by decide) n hmark

/-- What is no number is no decimal either. -/
private theorem floatSpelling_ne_quoteString {text : String} {precision scale : UInt8}
    (h : decimalFits text precision scale = true) (x : Float) : floatSpelling x ≠ quoteString text := by
  intro heq
  rcases floatSpelling_cases x with ⟨name, hname, -, hx⟩ | hx
  · obtain rfl := quoteString_injective (hx.symm.trans heq)
    simp only [List.mem_cons, List.not_mem_nil, or_false] at hname
    rcases hname with rfl | rfl | rfl <;> cases h
  · exact write_ne_quoteString x text (hx.symm.trans heq)

/-! ### Values that match -/

namespace Value

/-- Two values are the same, up to integers of which one has a sign and the other has none. -/
inductive Matches : Value → Value → Prop
  | refl (v : Value) : Matches v v
  | intUint {m : Int64} {n : UInt64} (h : m.toInt = n.toNat) : Matches (.int m) (.uint n)
  | uintInt {m : UInt64} {n : Int64} (h : m.toNat = n.toInt) : Matches (.uint m) (.int n)
  | array {vs ws : List Value} (h : List.Forall₂ Matches vs ws) : Matches (.array vs) (.array ws)

/-- What kind of value may stand for a type. -/
inductive Genre
  | truth | number | text | bytes | date | time | timestamp | document | list
deriving DecidableEq

/-- The kind of a value, which `NULL` has not. -/
def genre? : Value → Option Genre
  | .null => none
  | .boolean _ => some .truth
  | .int _ | .uint _ | .float _ | .decimal _ => some .number
  | .string _ => some .text
  | .binary _ => some .bytes
  | .date _ => some .date
  | .time _ => some .time
  | .timestamp _ => some .timestamp
  | .json _ => some .document
  | .array _ => some .list

end Value

/-- The kind of the values of a type. -/
def DataType.genre? : DataType → Option Value.Genre
  | .boolean => some .truth
  | .int _ | .uint _ | .float32 | .float64 | .decimal _ _ | .interval _ => some .number
  | .string | .uuid => some .text
  | .binary => some .bytes
  | .date => some .date
  | .time => some .time
  | .timestamp _ => some .timestamp
  | .json => some .document
  | .array _ => some .list
  | _ => none

private theorem Value.genre?_of_conformsTo {v : Value} {type : DataType} (h : v.conformsTo type = true)
    (hnull : v ≠ .null) : type.genre? = v.genre? := by
  cases v with
  | null => exact absurd rfl hnull
  | array items =>
    cases type with
    | array item => rfl
    | _ => cases h
  | _ =>
    cases type with
    -- to each primitive type only values of its own kind conform
    | primitive p => cases p <;> first | rfl | cases h
    | _ => cases h

private theorem Value.exists_array_of_genre? {v : Value} (h : v.genre? = some .list) : ∃ items, v = .array items := by
  cases v with
  | array items => exact ⟨items, rfl⟩
  | _ => cases h

private theorem Value.exists_array_of_conformsTo {items : List Value} {type : DataType}
    (h : (Value.array items).conformsTo type = true) :
    ∃ item, type = .array item ∧ ∀ v ∈ items, v.conformsTo item = true := by
  cases type with
  | array item => exact ⟨item, rfl, allConformTo_iff.1 h⟩
  | _ => cases h

/-! ### The text inside of a literal -/

/-- The text inside of a literal, without its cast or its unit. -/
def Sql.Expr.inner : Expr → String
  | .literal text | .cast (.literal text) _ | .interval (.literal text) _ => text
  | _ => ""

namespace Compiler

variable {c : Compiler} {type : DataType} {v w : Value}

def binarySpelling (c : Compiler) (bytes : List UInt8) : String :=
  match c.family with
  | .ansi => "X'" ++ hexCapitals bytes ++ "'"
  | _ => quoteString (hexEscapes bytes)

/-- A timestamp in a time zone is cast, another one has a mark in front. -/
def timestampSpelling (t : Timestamp) : DataType → String
  | .timestamp (some _) => quoteString (t.text " ")
  | _ => "TIMESTAMP '" ++ t.text " " ++ "'"

/-- The text inside of the literal of a value, unless it is an array. -/
def inner? (c : Compiler) (type : DataType) : Value → Option String
  | .null => some "NULL"
  | .boolean b => some (if b then "TRUE" else "FALSE")
  | .int n => some (toString n.toInt)
  | .uint n => some (toString (n.toNat : Int))
  | .float x => some (floatSpelling x)
  | .decimal text | .string text | .json text => some (quoteString text)
  | .binary bytes => some (binarySpelling c bytes)
  | .date d => some (quoteString d.text)
  | .time t => some ("TIME '" ++ t.text ++ "'")
  | .timestamp t => some (timestampSpelling t type)
  | .array _ => none

private theorem exists_inner? (c : Compiler) (type : DataType) (h : v.genre? ≠ some .list) :
    ∃ text, c.inner? type v = some text := by
  cases v with
  | array items => exact absurd rfl h
  | _ => exact ⟨_, rfl⟩

section

variable {text : String}

private theorem inner_castTo (text : String) (target : DataType) :
    Returns (·.inner = text) (c.handlers.castTo (.literal text) target) :=
  (Returns.trivial (c.typeName target)).bind fun _ _ => Returns.ok rfl

private theorem inner_number (n : Int) (target : DataType) :
    Returns (·.inner = toString n) (c.handlers.number n target) := by
  unfold Handlers.number
  split
  · exact inner_castTo _ _
  · exact Returns.ok rfl

private theorem inner_floatLiteral (x : Float) (target : DataType) :
    Returns (·.inner = floatSpelling x) (c.handlers.floatLiteral x target) := by
  unfold Handlers.floatLiteral floatSpelling
  split
  · exact inner_castTo _ _
  · split
    · exact inner_castTo _ _
    · split
      · exact inner_castTo _ _
      · exact Returns.ok rfl

private theorem inner_timestampLiteral (t : Timestamp) (target : DataType) :
    Returns (·.inner = timestampSpelling t target) (c.handlers.timestampLiteral t target) := by
  unfold Handlers.timestampLiteral
  split
  · exact inner_castTo _ _
  · rename_i hzone
    refine Returns.ok ?_
    unfold timestampSpelling
    split
    · exact absurd rfl (hzone _)
    · rfl

/-- The text inside of a spelling that a family has of its own. -/
private theorem inner_ownLiteral {result : Except CompileError Expr} (hown : c.ownLiteral? v type = some result)
    (h : c.inner? type v = some text) : Returns (·.inner = text) result := by
  unfold ownLiteral? at hown
  split at hown <;> cases hown <;> obtain rfl := Option.some.inj h
  · exact Returns.ok rfl
  · rename_i hansi
    have hspelling : ∀ bytes, c.binarySpelling bytes = quoteString (hexEscapes bytes) := by
      intro bytes
      unfold binarySpelling
      split
      · contradiction
      · rfl
    rw [hspelling]
    exact inner_castTo _ _

private theorem inner_commonLiteral (hown : c.ownLiteral? v type = none) (h : c.inner? type v = some text) :
    Returns (·.inner = text) (c.commonLiteral v type) := by
  unfold commonLiteral Handlers.commonLiteral
  cases v with
  | array items => cases h
  | binary bytes =>
    have hansi : c.family = .ansi := by
      unfold ownLiteral? at hown
      split at hown
      · assumption
      · cases hown
      · cases hown
      · rename_i hbytes _
        exact absurd rfl (hbytes bytes)
    obtain rfl := Option.some.inj h
    refine Returns.ok ?_
    rw [binarySpelling, hansi]
    rfl
  | null =>
    obtain rfl := Option.some.inj h
    dsimp only
    unfold Handlers.nullLiteral
    split
    · exact Returns.ok rfl
    · exact inner_castTo _ _
  | int n =>
    obtain rfl := Option.some.inj h
    dsimp only
    split
    · unfold Handlers.interval
      split
      · exact Returns.ok rfl
      · exact Returns.error _
    · exact inner_number _ _
  | string text =>
    obtain rfl := Option.some.inj h
    dsimp only
    split
    · exact inner_castTo _ _
    · exact Returns.ok rfl
  | boolean b | time t =>
    obtain rfl := Option.some.inj h
    exact Returns.ok rfl
  | decimal text | date d | json text =>
    obtain rfl := Option.some.inj h
    exact inner_castTo _ _
  | uint n =>
    obtain rfl := Option.some.inj h
    exact inner_number _ _
  | float x =>
    obtain rfl := Option.some.inj h
    exact inner_floatLiteral _ _
  | timestamp t =>
    obtain rfl := Option.some.inj h
    exact inner_timestampLiteral _ _

/-- The literal of a value holds the text that is inside of it. -/
theorem inner_literal (h : c.inner? type v = some text) : Returns (·.inner = text) (c.literal v type) := by
  unfold literal Handlers.literal
  split
  · rename_i result hown
    exact inner_ownLiteral hown h
  · rename_i hown
    exact inner_commonLiteral hown h

/-- `NULL` is told from all other values by the first letter of its literal. -/
private theorem head?_inner? (hnull : v ≠ .null) (h : c.inner? type v = some text) :
    text.toList.head? ≠ some 'N' := by
  have hquoted : ∀ text : String, (quoteString text).toList.head? ≠ some 'N' := by
    intro text
    rw [head?_quoteString]
    decide
  have hint : ∀ n : Int, (toString n).toList.head? ≠ some 'N' := fun n h =>
    not_mem_toString_int (by decide) (by decide) n (List.mem_of_head? h)
  cases v with
  | null => exact absurd rfl hnull
  | array items => cases h
  | boolean b =>
    obtain rfl := Option.some.inj h
    cases b <;> decide
  | int n | uint n =>
    obtain rfl := Option.some.inj h
    exact hint _
  | float x =>
    obtain rfl := Option.some.inj h
    rcases floatSpelling_cases x with ⟨name, -, -, hx⟩ | hx <;> rw [hx]
    · exact hquoted name
    · exact FloatLayout.head?_write_ne (by decide) (by decide) x
  | decimal text | string text | json text | date d =>
    obtain rfl := Option.some.inj h
    exact hquoted _
  | binary bytes =>
    obtain rfl := Option.some.inj h
    unfold binarySpelling
    split
    · simp
    · exact hquoted _
  | time t =>
    obtain rfl := Option.some.inj h
    simp
  | timestamp t =>
    obtain rfl := Option.some.inj h
    unfold timestampSpelling
    split
    · exact hquoted _
    · simp

end

/-! ### Values of the same literal -/

private theorem binarySpelling_injective (c : Compiler) : Function.Injective c.binarySpelling := by
  intro bytes bytes' h
  unfold binarySpelling at h
  split at h
  · exact hexCapitals_injective (by simpa using h)
  · exact hexEscapes_injective (quoteString_injective h)

private theorem timestampSpelling_injective (type : DataType) :
    Function.Injective fun t => timestampSpelling t type := by
  intro t t' h
  simp only [timestampSpelling] at h
  split at h
  · exact Timestamp.text_injective " " (quoteString_injective h)
  · exact Timestamp.text_injective " " (by simpa using h)

private theorem matches_of_numbers (hv : v.conformsTo type = true) (hw : w.conformsTo type = true)
    (hnumber : v.genre? = some .number) (hnumber' : w.genre? = some .number) (h : c.inner? type v = c.inner? type w) :
    v.Matches w := by
  have hdecimal : ∀ {text x}, (Value.decimal text).conformsTo type = true → floatSpelling x ≠ quoteString text := by
    intro text x h
    obtain ⟨precision, scale, -, hfits⟩ := Value.exists_decimal_of_conformsTo h
    exact floatSpelling_ne_quoteString hfits x
  -- numbers of different kinds have different texts, except for the two kinds of integers
  cases v with
  | int m =>
    cases w with
    | int n =>
      obtain rfl := Int64.toInt_inj.1 (toString_int_injective (Option.some.inj h))
      exact .refl _
    | uint n => exact .intUint (toString_int_injective (Option.some.inj h))
    | float x => exact absurd (Option.some.inj h) (toString_int_ne_floatSpelling _ x)
    | decimal text => exact absurd (Option.some.inj h) (toString_int_ne_quoteString _ text)
    | _ => cases hnumber'
  | uint m =>
    cases w with
    | int n => exact .uintInt (toString_int_injective (Option.some.inj h))
    | uint n =>
      obtain rfl := UInt64.toNat_inj.1 (Int.ofNat_inj.1 (toString_int_injective (Option.some.inj h)))
      exact .refl _
    | float x => exact absurd (Option.some.inj h) (toString_int_ne_floatSpelling _ x)
    | decimal text => exact absurd (Option.some.inj h) (toString_int_ne_quoteString _ text)
    | _ => cases hnumber'
  | float x =>
    cases w with
    | int n | uint n => exact absurd (Option.some.inj h).symm (toString_int_ne_floatSpelling _ x)
    | float y =>
      obtain rfl := floatSpelling_injective (Option.some.inj h)
      exact .refl _
    | decimal text => exact absurd (Option.some.inj h) (hdecimal hw)
    | _ => cases hnumber'
  | decimal text =>
    cases w with
    | int n | uint n => exact absurd (Option.some.inj h).symm (toString_int_ne_quoteString _ text)
    | float y => exact absurd (Option.some.inj h).symm (hdecimal hv)
    | decimal text' =>
      obtain rfl := quoteString_injective (Option.some.inj h)
      exact .refl _
    | _ => cases hnumber'
  | _ => cases hnumber

/-- Values of one kind are told apart by the text inside of their literals. -/
private theorem matches_of_inner? (hv : v.conformsTo type = true) (hw : w.conformsTo type = true)
    (hgenre : v.genre? = w.genre?) (hplain : v.genre? ≠ some .list) (h : c.inner? type v = c.inner? type w) :
    v.Matches w := by
  -- a genre other than that of numbers has values of one kind only
  cases v with
  | int m | uint m | float x | decimal text => exact matches_of_numbers hv hw rfl hgenre.symm h
  | array items => exact absurd rfl hplain
  | null =>
    cases w with
    | null => exact .refl _
    | _ => cases hgenre
  | boolean a =>
    cases w with
    | boolean b =>
      have hspelling : ∀ a b : Bool, (if a then "TRUE" else "FALSE") = (if b then "TRUE" else "FALSE") → a = b := by
        decide
      obtain rfl := hspelling a b (Option.some.inj h)
      exact .refl _
    | _ => cases hgenre
  | string text =>
    cases w with
    | string text' =>
      obtain rfl := quoteString_injective (Option.some.inj h)
      exact .refl _
    | _ => cases hgenre
  | json text =>
    cases w with
    | json text' =>
      obtain rfl := quoteString_injective (Option.some.inj h)
      exact .refl _
    | _ => cases hgenre
  | binary bytes =>
    cases w with
    | binary bytes' =>
      obtain rfl := c.binarySpelling_injective (Option.some.inj h)
      exact .refl _
    | _ => cases hgenre
  | date d =>
    cases w with
    | date d' =>
      obtain rfl := Date.text_injective (quoteString_injective (Option.some.inj h))
      exact .refl _
    | _ => cases hgenre
  | time t =>
    cases w with
    | time t' =>
      have htext : "TIME '" ++ t.text ++ "'" = "TIME '" ++ t'.text ++ "'" := Option.some.inj h
      obtain rfl := TimeOfDay.text_injective (by simpa using htext)
      exact .refl _
    | _ => cases hgenre
  | timestamp t =>
    cases w with
    | timestamp t' =>
      obtain rfl := timestampSpelling_injective type (Option.some.inj h)
      exact .refl _
    | _ => cases hgenre

/-! ### Arrays -/

section

variable {item : DataType} {vs ws : List Value} {es fs : List Expr} {e : Expr}

/-- Values and their literals, one by one. -/
abbrev Spelled (c : Compiler) (item : DataType) : List Value → List Expr → Prop :=
  List.Forall₂ fun v e => c.literal v item = .ok e

private theorem exists_spelled {texts : List String} (h : c.handlers.elementTexts vs item = .ok texts) :
    ∃ es, c.Spelled item vs es ∧ texts = es.map Expr.text := by
  induction vs generalizing texts with
  | nil =>
    cases h
    exact ⟨[], .nil, rfl⟩
  | cons v vs ih =>
    rw [elementTexts_cons] at h
    obtain ⟨e, he, hrest⟩ := bind_eq_ok.1 h
    obtain ⟨texts', htexts, hcons⟩ := bind_eq_ok.1 hrest
    obtain ⟨es, hes, rfl⟩ := ih htexts
    cases hcons
    exact ⟨e :: es, .cons he hes, rfl⟩

private theorem inner_array (h : c.literal (.array vs) (.array item) = .ok e) :
    ∃ es, c.Spelled item vs es ∧ e.inner = "ARRAY[" ++ joined (es.map Expr.text) ++ "]" := by
  rw [c.literal_eq_commonLiteral (by simp) (by simp)] at h
  unfold commonLiteral Handlers.commonLiteral at h
  dsimp only at h
  split at h
  · rename_i hempty
    obtain rfl := List.isEmpty_iff.1 hempty
    exact ⟨[], .nil, inner_castTo _ _ e h⟩
  · obtain ⟨texts, htexts, hok⟩ := bind_eq_ok.1 h
    obtain ⟨es, hes, rfl⟩ := exists_spelled htexts
    cases hok
    exact ⟨es, hes, rfl⟩

private theorem eq_null_iff_head? (hv : v.conformsTo type = true) (he : c.literal v type = .ok e) :
    v = .null ↔ e.inner.toList.head? = some 'N' := by
  constructor
  · rintro rfl
    rw [inner_literal rfl e he]
    rfl
  · intro hhead
    by_contra hnull
    by_cases hlist : v.genre? = some .list
    · obtain ⟨vs, rfl⟩ := Value.exists_array_of_genre? hlist
      obtain ⟨item, rfl, -⟩ := Value.exists_array_of_conformsTo hv
      obtain ⟨es, -, htext⟩ := inner_array he
      simp [htext] at hhead
    · obtain ⟨text, hinner⟩ := c.exists_inner? type hlist
      rw [inner_literal hinner e he] at hhead
      exact head?_inner? hnull hinner hhead

private theorem Spelled.written (hc : c.WordedUnits) (hes : c.Spelled item vs es) :
    ∀ e ∈ es, e.Written fun _ => True := by
  induction hes with
  | nil => simp
  | cons he _ ih => exact List.forall_mem_cons.2 ⟨c.literal_written hc _ _ _ he, ih⟩

/-- No item ends where another one goes on, so that the text of an array tells its items. -/
private theorem Spelled.eq_of_joined (hc : c.WordedUnits) (hes : c.Spelled item vs es) (hfs : c.Spelled item ws fs)
    (h : joined (es.map Expr.text) = joined (fs.map Expr.text)) : es = fs := by
  have hlist : (joined (es.map Expr.text)).toList ++ [] = (joined (fs.map Expr.text)).toList ++ [] := by rw [h]
  have hwritten := hes.written hc
  exact (args_append_inj hwritten (fun e he => told_text.1 e (hwritten e he)) (hfs.written hc) ⟨rfl, by simp⟩
    ⟨rfl, by simp⟩ hlist).1

private theorem Spelled.forall₂ {R : Value → Value → Prop} (hvs : c.Spelled item vs es) (hws : c.Spelled item ws es)
    (h : ∀ v ∈ vs, ∀ w ∈ ws, ∀ e, c.literal v item = .ok e → c.literal w item = .ok e → R v w) :
    List.Forall₂ R vs ws := by
  induction hvs generalizing ws with
  | nil =>
    cases hws
    exact .nil
  | cons hv _ ih =>
    cases hws with
    | cons hw hws =>
      refine .cons (h _ (by simp) _ (by simp) _ hv hw) (ih hws fun v hv w hw => ?_)
      exact h v (List.mem_cons_of_mem _ hv) w (List.mem_cons_of_mem _ hw)

/-- Values of a type with the same literal match. -/
theorem matches_of_literal (hc : c.WordedUnits) (hv : v.conformsTo type = true) (hw : w.conformsTo type = true)
    (he : c.literal v type = .ok e) (hf : c.literal w type = .ok e) : v.Matches w := by
  induction v using Value.induction generalizing w type e with
  | step v ih =>
    by_cases hnull : v = .null
    · obtain rfl := (eq_null_iff_head? hw hf).2 ((eq_null_iff_head? hv he).1 hnull)
      rw [hnull]
      exact .refl _
    have hnull' : w ≠ .null := fun h => hnull ((eq_null_iff_head? hv he).2 ((eq_null_iff_head? hw hf).1 h))
    have hgenre := (Value.genre?_of_conformsTo hv hnull).symm.trans (Value.genre?_of_conformsTo hw hnull')
    by_cases hlist : v.genre? = some .list
    · obtain ⟨vs, rfl⟩ := Value.exists_array_of_genre? hlist
      obtain ⟨ws, rfl⟩ := Value.exists_array_of_genre? (hgenre.symm.trans hlist)
      obtain ⟨item, rfl, hvs⟩ := Value.exists_array_of_conformsTo hv
      have hws : ∀ w ∈ ws, w.conformsTo item = true := Value.allConformTo_iff.1 hw
      obtain ⟨es, hes, htext⟩ := inner_array he
      obtain ⟨fs, hfs, htext'⟩ := inner_array hf
      obtain rfl : es = fs := by
        rw [htext] at htext'
        exact hes.eq_of_joined hc hfs (by simpa using htext')
      exact .array (hes.forall₂ hfs fun v hv w hw e => ih vs rfl v hv (hvs v hv) (hws w hw))
    · obtain ⟨text, hinner⟩ := c.exists_inner? type hlist
      obtain ⟨text', hinner'⟩ := c.exists_inner? type (hgenre ▸ hlist)
      refine matches_of_inner? (c := c) hv hw hgenre hlist ?_
      rw [hinner, hinner', ← inner_literal hinner e he, ← inner_literal hinner' e hf]

/-- Values of a type that a dialect spells with the same text match. -/
theorem matches_of_literal_text {f : Expr} (hc : c ∈ builtins) (hv : v.conformsTo type = true)
    (hw : w.conformsTo type = true) (he : c.literal v type = .ok e) (hf : c.literal w type = .ok f)
    (h : e.text = f.text) : v.Matches w := by
  have hunits := c.wordedUnits_of_mem_builtins hc
  have hwritten : e.Written fun _ => True := c.literal_written hunits v type e he
  have hwritten' : f.Written fun _ => True := c.literal_written hunits w type f hf
  have hlist : e.text.toList ++ [] = f.text.toList ++ [] := by rw [h]
  obtain ⟨rfl, -⟩ := told_text.1 e hwritten f hwritten' [] [] rfl rfl hlist
  exact matches_of_literal hunits hv hw he hf

/-- An array of a value and a `NULL`. -/
def besideNull (v : Value) : Value := .array [v, .null]

/-- The number seven may have a sign or not, also in an array. -/
theorem matches_of_literal_text_seven :
    (besideNull (.int 7)).conformsTo (.array (.int .w64)) = true ∧
      (besideNull (.uint 7)).conformsTo (.array (.int .w64)) = true ∧
      ∃ e, base.literal (besideNull (.int 7)) (.array (.int .w64)) = .ok e ∧
        base.literal (besideNull (.uint 7)) (.array (.int .w64)) = .ok e ∧
        e.text = "ARRAY[7, CAST(NULL AS BIGINT)]" ∧ besideNull (.int 7) ≠ besideNull (.uint 7) ∧
        (besideNull (.int 7)).Matches (besideNull (.uint 7)) := by
  have hbase : base ∈ builtins := by simp [builtins]
  have hsigned : (besideNull (.int 7)).conformsTo (.array (.int .w64)) = true := by decide
  have hunsigned : (besideNull (.uint 7)).conformsTo (.array (.int .w64)) = true := by decide
  exact ⟨hsigned, hunsigned, _, rfl, rfl, by decide, by simp [besideNull],
    matches_of_literal_text hbase hsigned hunsigned rfl rfl rfl⟩

end

end Compiler

end SqlPlan
