import SqlPlan.Proofs.Comments
import SqlPlan.Proofs.Encodings
import SqlPlan.Proofs.Nesting

/-!
# Positions of columns

In `GROUP BY` and `ORDER BY`, a bare numeral is the position of an output column and not a value. Groups and sort keys
are compiled like all other values, so a key is a position if and only if it is the literal of an integer.

* `lower_isNumeral`: only literals of integers are compiled to numerals.
* `allKeyed_iff_of_lowers`: what one operation adds to the keys of all statements.
* `allByValue_lowerRelation_iff`: the first operation with the literal of an integer among its keys, and no operation
  before it, leads to a position.
-/

namespace SqlPlan

open Sql

/-! ### Numerals -/

namespace Sql

/-- Whether a text is the numeral of an integer: digits, and perhaps a sign. -/
def isNumeral (cs : List Char) : Bool :=
  let digits := if cs.head? = some '-' then cs.tail else cs
  !digits.isEmpty && digits.all Char.isDigit

/-- Whether an expression is a bare numeral. -/
def Expr.isNumeral : Expr → Bool
  | .literal text => Sql.isNumeral text.toList
  | _ => false

private theorem Expr.isLiteral_of_isNumeral {e : Expr} (h : e.isNumeral = true) : e.isLiteral = true := by
  cases e with
  | literal => rfl
  | _ => cases h

/-- The text of an integer is a numeral. -/
theorem isNumeral_toString (n : Int) : isNumeral (toString n).toList = true := by
  have hdigits : ∀ m, (!(Nat.toDigits 10 m).isEmpty && (Nat.toDigits 10 m).all Char.isDigit) = true := by
    intro m
    simp only [Bool.and_eq_true, Bool.not_eq_true', List.isEmpty_eq_false_iff, List.all_eq_true]
    exact ⟨Nat.toDigits_ne_nil, fun c hc => isDigit_of_mem_toDigits hc⟩
  cases n with
  | ofNat m =>
    rw [toList_toString_ofNat, isNumeral, if_neg (Numeral.toDigits m).head?_ne]
    exact hdigits m
  | negSucc m =>
    rw [toList_toString_negSucc]
    exact hdigits (m + 1)

/-- In a numeral there are digits and a sign only. -/
private theorem isNumeral_eq_false {cs : List Char} {c : Char} (hc : c ∈ cs) (hsign : c ≠ '-')
    (hdigit : c.isDigit = false) : isNumeral cs = false := by
  have hmem : c ∈ (if cs.head? = some '-' then cs.tail else cs) := by
    cases cs with
    | nil => cases hc
    | cons d ds =>
      split
      · rename_i hhead
        obtain rfl : d = '-' := by simpa using hhead
        exact (List.mem_cons.1 hc).resolve_left hsign
      · exact hc
  rw [isNumeral, Bool.and_eq_false_iff, List.all_eq_false]
  exact .inr ⟨c, hmem, by simp [hdigit]⟩

end Sql

/-- Whether a node is the literal of an integer. -/
def Node.isIntegerLiteral (n : Node) : Bool :=
  match n.op with
  | .literal _ type => type.isInteger
  | _ => false

/-- Only integers stand for types of integers. -/
private theorem Value.exists_of_conformsTo_integer {value : Value} {type : DataType}
    (h : value.conformsTo type = true) (hnull : value.isNull = false) (htype : type.isInteger = true) :
    (∃ n, value = .int n) ∨ ∃ n, value = .uint n := by
  obtain ⟨width, rfl | rfl⟩ : ∃ width, type = .int width ∨ type = .uint width := by
    cases type with
    | primitive p =>
      cases p with
      | int width => exact ⟨width, .inl rfl⟩
      | uint width => exact ⟨width, .inr rfl⟩
      | _ => cases htype
    | _ => cases htype
  all_goals
    cases value with
    | int n => exact .inl ⟨n, rfl⟩
    | uint n => exact .inr ⟨n, rfl⟩
    | null => cases hnull
    | _ => cases h

namespace Compiler

variable (c : Compiler)

private theorem castTo_isNumeral (e : Expr) (type : DataType) :
    Returns (fun f => f.isNumeral = false) (c.handlers.castTo e type) :=
  (Returns.trivial _).bind fun _ _ => Returns.ok rfl

private theorem quoteString_isNumeral (text : String) : (Expr.literal (quoteString text)).isNumeral = false :=
  isNumeral_eq_false (List.mem_of_head? (head?_quoteString text)) (by decide) (by decide)

/-- A number is a bare numeral if it is an integer, and is cast if it stands for a float or a decimal. -/
private theorem number_isNumeral (n : Int) {type : DataType}
    (h : type.isInteger = true ∨ (type.isFloating || type.isDecimal) = true) :
    Returns (fun e => e.isNumeral = type.isInteger) (c.handlers.number n type) := by
  unfold Handlers.number
  split
  · rename_i hcast
    have htype : type.isInteger = false := by
      cases type with
      | primitive p =>
        cases p with
        | float32 | float64 | decimal => rfl
        | _ => cases hcast
      | _ => cases hcast
    rw [htype]
    exact c.castTo_isNumeral _ type
  · rename_i hcast
    rw [h.resolve_right hcast]
    exact Returns.ok (isNumeral_toString n)

/-- Other values than integers have a quote, a letter or a point in their text. -/
private theorem commonLiteral_not_isNumeral {value : Value} (hint : ∀ n, value ≠ .int n)
    (huint : ∀ n, value ≠ .uint n) (type : DataType) :
    Returns (fun e => e.isNumeral = false) (c.commonLiteral value type) := by
  have hletter : ∀ {c : Char} {text : String}, c ∈ text.toList → c ≠ '-' → c.isDigit = false →
      (Expr.literal text).isNumeral = false := fun hc hsign hdigit => isNumeral_eq_false hc hsign hdigit
  cases value with
  | int n => exact absurd rfl (hint n)
  | uint n => exact absurd rfl (huint n)
  | null =>
    rw [commonLiteral, Handlers.commonLiteral, Handlers.nullLiteral]
    split
    · exact Returns.ok (by decide)
    · exact c.castTo_isNumeral _ type
  | boolean b => exact Returns.ok (by cases b <;> decide)
  | float x =>
    unfold commonLiteral Handlers.commonLiteral Handlers.floatLiteral
    split
    · exact c.castTo_isNumeral _ type
    split
    · exact c.castTo_isNumeral _ type
    split
    · exact c.castTo_isNumeral _ type
    · rcases FloatLayout.mark_mem_write x with hmark | hmark
      · exact Returns.ok (hletter hmark (by decide) (by decide))
      · exact Returns.ok (hletter hmark (by decide) (by decide))
  | decimal text | date d | json text => exact c.castTo_isNumeral _ type
  | string text =>
    unfold commonLiteral Handlers.commonLiteral
    split
    · exact c.castTo_isNumeral _ _
    · exact Returns.ok (quoteString_isNumeral text)
  | binary bytes => exact Returns.ok (hletter (c := 'X') (by simp) (by decide) (by decide))
  | time t => exact Returns.ok (hletter (c := 'T') (by simp) (by decide) (by decide))
  | timestamp t =>
    unfold commonLiteral Handlers.commonLiteral Handlers.timestampLiteral
    split
    · exact c.castTo_isNumeral _ _
    · exact Returns.ok (hletter (c := 'T') (by simp) (by decide) (by decide))
  | array items =>
    unfold commonLiteral Handlers.commonLiteral
    split
    · split
      · exact c.castTo_isNumeral _ _
      · exact (Returns.trivial _).bind fun texts _ =>
          Returns.ok (hletter (c := 'A') (by simp) (by decide) (by decide))
    · exact Returns.error _

private theorem int_isNumeral {n : Int64} {type : DataType} (h : (Value.int n).conformsTo type = true) :
    Returns (fun e => e.isNumeral = type.isInteger) (c.commonLiteral (.int n) type) := by
  unfold commonLiteral Handlers.commonLiteral
  split
  · unfold Handlers.interval
    split
    · exact Returns.ok rfl
    · exact Returns.error _
  · rename_i hinterval
    refine c.number_isNumeral _ ?_
    rw [Value.conformsTo] at h
    split at h
    · rename_i hinteger
      exact .inl hinteger
    · rcases Bool.or_eq_true_iff.1 h with hnumber | htype
      · exact .inr hnumber
      · unfold DataType.isInterval at htype
        split at htype
        · exact absurd rfl (hinterval _)
        · cases htype

private theorem uint_isNumeral {n : UInt64} {type : DataType} (h : (Value.uint n).conformsTo type = true) :
    Returns (fun e => e.isNumeral = type.isInteger) (c.commonLiteral (.uint n) type) := by
  refine c.number_isNumeral _ ?_
  rw [Value.conformsTo] at h
  split at h
  · rename_i hinteger
    exact .inl hinteger
  · exact .inr h

/-- The literal of a value is a numeral if and only if the value stands for a type of integers. -/
private theorem literal_isNumeral {value : Value} {type : DataType} (h : value.conformsTo type = true)
    (hnull : value.isNull = false) : Returns (fun e => e.isNumeral = type.isInteger) (c.literal value type) := by
  by_cases hinteger : (∃ n, value = .int n) ∨ ∃ n, value = .uint n
  · have hcommon : c.literal value type = c.commonLiteral value type := by
      rcases hinteger with ⟨n, rfl⟩ | ⟨n, rfl⟩ <;> exact c.literal_eq_commonLiteral (by simp) (by simp) type
    rw [hcommon]
    rcases hinteger with ⟨n, rfl⟩ | ⟨n, rfl⟩
    · exact c.int_isNumeral h
    · exact c.uint_isNumeral h
  · have htype := Bool.eq_false_iff.2 fun htype => hinteger (Value.exists_of_conformsTo_integer h hnull htype)
    rw [htype]
    rcases c.literal_cases value type with ⟨text, -, hown⟩ | ⟨bytes, -, hown⟩ | hown <;> rw [hown]
    · exact Returns.ok (quoteString_isNumeral _)
    · exact c.castTo_isNumeral _ type
    · exact c.commonLiteral_not_isNumeral (fun n hn => hinteger (.inl ⟨n, hn⟩))
        (fun n hn => hinteger (.inr ⟨n, hn⟩)) type

/-- A value is compiled to a numeral if and only if it is the literal of an integer. -/
theorem lower_isNumeral {n : Node} (hn : n.Valid) (scope : Option Select) :
    Returns (fun e => e.isNumeral = n.isIntegerLiteral) (c.lower scope n) := by
  intro e he
  by_cases hop : ∃ value type, n.op = .literal value type
  · obtain ⟨value, type, hop⟩ := hop
    have htype := hn.hasType
    obtain ⟨op, type', shape⟩ := n
    obtain rfl : op = .literal value type := hop
    rw [lower_eq] at he
    obtain ⟨_, -, he⟩ := bind_eq_ok.1 he
    obtain ⟨hnull, hconforms, -⟩ := htype
    exact c.literal_isNumeral hconforms hnull e he
  · have hinteger : n.isIntegerLiteral = false := by
      unfold Node.isIntegerLiteral
      split
      · rename_i value type heq
        exact absurd ⟨value, type, heq⟩ hop
      · rfl
    rw [hinteger, ← Bool.not_eq_true]
    intro hnumeral
    rcases c.lower_isLiteral hn scope e he (Expr.isLiteral_of_isNumeral hnumeral) with
      ⟨value, type, heq, -⟩ | ⟨-, rfl⟩
    · exact hop ⟨value, type, heq⟩
    · exact absurd hnumeral (by decide)

end Compiler

/-! ### Groups and sort keys -/

namespace Sql.Select

/-- All groups and sort keys of a statement satisfy `P`. -/
structure Keyed (P : Expr → Prop) (s : Select) : Prop where
  groups : ∀ e ∈ s.groups, P e
  order : ∀ key ∈ s.order, P key.expr

/-- All groups and sort keys of a statement, and of all statements in it, satisfy `P`. -/
abbrev AllKeyed (P : Expr → Prop) (s : Select) : Prop := s.Throughout (fun _ => True) (Keyed P)

/-- Rows are grouped and sorted by values and not by positions of columns, in the statement and in all statements in
it. -/
abbrev AllByValue (s : Select) : Prop := s.AllKeyed fun e => e.isNumeral = false

variable {P : Expr → Prop} {s : Select}

private theorem keyed_star (source : Source) : (star source).Keyed P := ⟨by simp [star], by simp [star]⟩

private theorem Keyed.wrapUnless (h : s.Keyed P) (free : Bool) : (s.wrapUnless free).Keyed P :=
  wrapUnless_induction (P := Keyed P) (fun _ => h) (keyed_star _)

end Sql.Select

namespace Compiler

variable (c : Compiler) {P : Expr → Prop} {n : Node} {s : Select}

variable {c} in
/-- The groups and keys of a statement satisfy `P` if and only if those of the operation do. -/
private theorem Lowers.keyed_iff {H : Node → Prop} (h : c.Lowers n s)
    (hkeys : ∀ m ∈ n.op.keys, Returns (P · ↔ H m) (c.lower none m))
    (hparent : ∀ parent t, n.op.relation? = some parent → c.Lowers parent t → t.Keyed P) :
    s.Keyed P ↔ ∀ m ∈ n.op.keys, H m := by
  cases h with
  | table => exact iff_of_true (Select.keyed_star _) (List.forall_mem_nil _)
  | @project parent values type shape s projection hlowers _ =>
    have hwrapped := (hparent parent s rfl hlowers).wrapUnless (s.takesProjection values)
    exact iff_of_true ⟨hwrapped.groups, hwrapped.order⟩ (List.forall_mem_nil _)
  | @unfiltered parent predicates type shape s hlowers _ =>
    exact iff_of_true (hparent parent s rfl hlowers) (List.forall_mem_nil _)
  | @filter parent predicates type shape s es hlowers _ _ =>
    have hwrapped := (hparent parent s rfl hlowers).wrapUnless s.takesSelection
    exact iff_of_true ⟨hwrapped.groups, hwrapped.order⟩ (List.forall_mem_nil _)
  | @aggregate parent groups metrics type shape s groupItems metricItems hlowers hgroups _ =>
    have hwrapped := (hparent parent s rfl hlowers).wrapUnless s.takesGroups
    refine Iff.trans ⟨fun ht => ?_, fun hitems => ?_⟩ (lowerNamed_iff hkeys groupItems hgroups)
    · exact List.forall_mem_map.1 ht.groups
    · exact ⟨List.forall_mem_map.2 hitems, hwrapped.order⟩
  | @sort parent keys type shape s order hlowers hsorts =>
    have hwrapped := (hparent parent s rfl hlowers).wrapUnless (s.takesOrder order)
    exact Iff.trans ⟨fun ht => ht.order, fun horder => ⟨hwrapped.groups, horder⟩⟩ (lowerKeys_iff hkeys order hsorts)
  | @limit parent count offset type shape s hlowers =>
    have hwrapped := (hparent parent s rfl hlowers).wrapUnless (!s.isLimited)
    exact iff_of_true ⟨hwrapped.groups, hwrapped.order⟩ (List.forall_mem_nil _)

/-- What one operation does: over a statement whose groups and keys satisfy `P`, at every depth, it leads to one if
and only if its own groups and keys do. -/
theorem allKeyed_iff_of_lowers {H : Node → Prop} (h : c.Lowers n s)
    (hkeys : ∀ m ∈ n.op.keys, Returns (P · ↔ H m) (c.lower none m))
    (hparent : ∀ parent t, n.op.relation? = some parent → c.Lowers parent t → t.AllKeyed P) :
    s.AllKeyed P ↔ ∀ m ∈ n.op.keys, H m := by
  rw [← h.keyed_iff hkeys fun parent t hrelation ht => (hparent parent t hrelation ht).here]
  exact h.throughout_iff_here (fun t => Select.keyed_star _) (fun t ht => ⟨ht.groups, by simp⟩)
    (fun t call _ ht => ⟨ht.groups, ht.order⟩) hparent

private theorem allByValue_iff_of_lowers (h : c.Lowers n s) (hn : n.Valid)
    (hparent : ∀ parent t, n.op.relation? = some parent → c.Lowers parent t → t.AllByValue) :
    s.AllByValue ↔ ∀ key ∈ n.op.keys, key.isIntegerLiteral = false := by
  refine c.allKeyed_iff_of_lowers h (fun m hm => ?_) hparent
  exact (c.lower_isNumeral (hn.argument (Op.mem_arguments_of_mem_keys hm)) none).mono fun e he => by rw [he]

/-- If no group and no sort key of a relation is the literal of an integer, no statement of the compiled relation, at
any depth, groups or sorts by the position of a column. The first operation with such a key leads to a position. -/
theorem allByValue_lowerRelation_iff (hn : n.Valid) (hs : c.lowerRelation n = .ok s) :
    ((∀ m ∈ n.lineage, ∀ key ∈ m.op.keys, key.isIntegerLiteral = false) → s.AllByValue) ∧
      ((∀ parent ∈ n.op.relation?, ∀ t, c.lowerRelation parent = .ok t → t.AllByValue) →
        (s.AllByValue ↔ ∀ key ∈ n.op.keys, key.isIntegerLiteral = false)) := by
  have h := c.lowers_of_lowerRelation hs
  refine ⟨fun hkeys => ?_, fun hparent => ?_⟩
  · exact h.of_lineage (fun h hn hparent => (c.allByValue_iff_of_lowers h hn hparent).2) hn hkeys
  · refine c.allByValue_iff_of_lowers h hn fun parent t hrelation ht => ?_
    exact hparent parent hrelation t (c.lowerRelation_of_relation? hs hrelation ht)

end Compiler

namespace Node

def two : Node := ⟨.literal (.int 2) (.int .w64), .int .w64, .scalar⟩

/-- The column `x` plus two. -/
def shifted : Node := ⟨.binary .add (pairs.column "x") two, .int .w64, .columnar⟩

/-- The rows of `pairs` in the order of a value. -/
def pairsSortedBy (key : Node) : Node := ⟨.sort pairs [⟨key, true⟩], pairs.type, .tabular⟩

private theorem two_valid : two.Valid := ⟨by simp [two, children, Op.children], rfl⟩

private theorem shifted_valid : shifted.Valid :=
  ⟨by simp [shifted, children, Op.children, column_valid, two_valid], rfl⟩

end Node

/-- A key with a numeral in it is not a position. -/
theorem Compiler.allByValue_lowerRelation_shifted :
    (Node.pairsSortedBy .shifted).Valid ∧ ∃ s, base.lowerRelation (Node.pairsSortedBy .shifted) = .ok s ∧
      s.text = "SELECT * FROM \"t\" ORDER BY (\"x\" + 2) ASC" ∧ s.AllByValue := by
  have hvalid : (Node.pairsSortedBy .shifted).Valid :=
    ⟨by simp [Node.pairsSortedBy, Node.children, Op.children, Node.pairs_valid, Node.shifted_valid], rfl⟩
  refine ⟨hvalid, _, rfl, by decide, (base.allByValue_lowerRelation_iff hvalid rfl).1 ?_⟩
  have hlineage : (Node.pairsSortedBy .shifted).lineage = [.pairsSortedBy .shifted, .pairs] := rfl
  rw [hlineage]
  decide

/-- A sort key that is the literal of an integer is the position of a column. -/
theorem Compiler.not_allByValue_two :
    (Node.pairsSortedBy .two).Valid ∧ ∃ s, base.lowerRelation (Node.pairsSortedBy .two) = .ok s ∧
      s.text = "SELECT * FROM \"t\" ORDER BY 2 ASC" ∧ ¬s.AllByValue := by
  have hvalid : (Node.pairsSortedBy .two).Valid :=
    ⟨by simp [Node.pairsSortedBy, Node.children, Op.children, Node.pairs_valid, Node.two_valid], rfl⟩
  refine ⟨hvalid, _, rfl, by decide, fun h => ?_⟩
  exact absurd (h.here.order _ (List.mem_singleton_self _)) (by decide)

end SqlPlan
