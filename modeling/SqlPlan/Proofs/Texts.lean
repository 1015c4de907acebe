import SqlPlan.Proofs.Wording

/-!
# Quotes, brackets and comments in compiled SQL

The text of a tree closes all quotes and brackets that it opens. Its parts are separated by blanks, commas and
brackets, none of which is part of a comment mark. Only a negation has nothing between its sign and its operand: a
comment starts where a number with a sign of its own is negated.

* `settled_text`: how the text of a tree is read, by induction over the tree.
-/

namespace SqlPlan

open Sql

namespace Sql

/-! ### Signs -/

/-- Whether an expression is a number with a sign. -/
def Expr.isSigned : Expr → Bool
  | .literal text => text.toList.head? == some '-'
  | _ => false

/-- Whether the sign of a negation stands next to the sign of a number. -/
def Expr.doublesSign : Expr → Bool
  | .negate expr => expr.isSigned
  | _ => false

/-- No sign stands next to another one. -/
def Expr.SingleSigns (e : Expr) : Prop := e.Throughout (fun k => k.doublesSign = false) fun _ => True

def Select.SingleSigns (s : Select) : Prop := s.Throughout (fun k => k.doublesSign = false) fun _ => True

def Fragment.SingleSigns (f : Fragment) : Prop := f.Throughout (fun k => k.doublesSign = false) fun _ => True

private theorem Expr.not_singleSigns_iff {e : Expr} :
    ¬e.SingleSigns ↔
      e.doublesSign = true ∨ (∃ k ∈ e.operands, ¬k.SingleSigns) ∨ ∃ q, e = .subquery q ∧ ¬q.SingleSigns := by
  rw [SingleSigns, throughout_iff]
  simp only [not_and_or, Bool.not_eq_false, not_forall, exists_prop]
  rfl

private theorem Expr.singleSigns_literal (text : String) : (Expr.literal text).SingleSigns :=
  throughout_iff.2 ⟨rfl, by simp [operands], by simp⟩

/-- Apart from negations, signs stand next to each other in the operands only. -/
private theorem Expr.not_singleSigns_iff_operands {e : Expr} (hsign : e.doublesSign = false)
    (hne : ∀ q, e ≠ .subquery q) : ¬e.SingleSigns ↔ ∃ k ∈ e.operands, ¬k.SingleSigns := by
  rw [not_singleSigns_iff]
  simp [hsign, hne]

private theorem Expr.not_singleSigns_case {operand default : Option Expr} {branches : List (Branch Expr)} :
    ¬(Expr.case operand branches default).SingleSigns ↔
      (∃ k ∈ operand, ¬k.SingleSigns) ∨
        (∃ b ∈ branches, ¬b.condition.SingleSigns ∨ ¬b.result.SingleSigns) ∨ ∃ k ∈ default, ¬k.SingleSigns := by
  have hnot := not_congr (@forall_mem_operands_case SingleSigns operand default branches)
  simp only [not_forall, not_and_or, exists_prop] at hnot
  rw [not_singleSigns_iff_operands rfl (by simp), hnot]

private theorem Select.not_singleSigns_iff {s : Select} :
    ¬s.SingleSigns ↔ (∃ e ∈ s.exprs, ¬e.SingleSigns) ∨ ∃ q label, s.source = .subquery q label ∧ ¬q.SingleSigns := by
  rw [SingleSigns, throughout_iff]
  simp only [true_and, not_and_or, not_forall, exists_prop]
  rfl

private theorem Select.not_singleSigns_clauses {s : Select} :
    ¬s.SingleSigns ↔
      (∃ item ∈ s.projection, ¬item.expr.SingleSigns) ∨ (∃ q label, s.source = .subquery q label ∧ ¬q.SingleSigns) ∨
        (∃ e ∈ s.selection, ¬e.SingleSigns) ∨ (∃ e ∈ s.groups, ¬e.SingleSigns) ∨
          ∃ key ∈ s.order, ¬key.expr.SingleSigns := by
  have hexprs := not_congr (@forall_mem_exprs Expr.SingleSigns s)
  simp only [not_forall, not_and_or, exists_prop] at hexprs
  rw [not_singleSigns_iff, hexprs, or_assoc, or_comm (b := ∃ q label, _)]

/-! ### Lists of texts -/

/-- The operands of a call, by its clauses. -/
theorem Expr.forall_mem_operands_call {P : Expr → Prop} {name : String} {args : List Expr}
    {order within : List (SortKey Expr)} {filter : Option Expr} :
    (∀ k ∈ (Expr.call ⟨name, args, order, within, filter⟩).operands, P k) ↔
      (∀ k ∈ args, P k) ∧ (∀ key ∈ order, P key.expr) ∧ (∀ key ∈ within, P key.expr) ∧ ∀ k ∈ filter, P k :=
  Call.forall_mem_operands

theorem exprTexts_eq_map (es : List Expr) : exprTexts es = es.map Expr.text := by
  induction es with
  | nil => rfl
  | cons e es ih => rw [exprTexts, ih, List.map_cons]

/-- The text of a key to sort by. -/
def keyText (key : SortKey Expr) : String := key.expr.text ++ if key.ascending then " ASC" else " DESC"

theorem keyTexts_eq_map (keys : List (SortKey Expr)) : keyTexts keys = keys.map keyText := by
  induction keys with
  | nil => rfl
  | cons key keys ih => rw [keyTexts, ih, List.map_cons, keyText]

def itemText (item : Item Expr) : String := labelled item.expr item.expr.text item.label

theorem itemTexts_eq_map (items : List (Item Expr)) : itemTexts items = items.map itemText := by
  induction items with
  | nil => rfl
  | cons item items ih => rw [itemTexts, ih, List.map_cons, itemText]

/-- The text of a statement, clause by clause. -/
theorem Select.text_mk {projection : List (Item Expr)} {source : Source} {selection : Option Expr}
    {groups : List Expr} {order : List (SortKey Expr)} {limit offset : Option UInt64} :
    Select.text ⟨projection, source, selection, groups, order, limit, offset⟩ =
      "SELECT " ++ joined (itemTexts projection) ++ " FROM " ++ source.text ++ optionText " WHERE " selection "" ++
        clause " GROUP BY " (exprTexts groups) "" ++ clause " ORDER BY " (keyTexts order) "" ++
        numberClause " LIMIT " limit ++ numberClause " OFFSET " offset := by
  rw [Select.text.eq_def]

/-! ### Clauses -/

/-- A text in brackets behind a plain one. -/
private theorem Settled.bracketed {a b : List Char} {p : Prop} (ha : ∀ c ∈ a, isPlain c = true) (hb : Settled b p) :
    Settled (a ++ '(' :: (b ++ [')'])) p := by
  have hbrackets := Settled.nil.enclosed (by rfl : closer? '(' = some ')') hb Settled.nil
  exact (Settled.plain_append ha hbrackets).congr (by simp)

section

variable {α : Type} {items : List α} {f : α → String} {status : α → Prop}

/-- A clause is left out, or starts as it opens. -/
theorem head?_clause {opening : String} {c : Char} (h : opening.toList.head? = some c) (hc : isPlain c = true)
    (texts : List String) (closing : String) :
    ∀ d ∈ (clause opening texts closing).toList.head?, isPlain d = true := by
  unfold clause
  split
  · simp
  · simp [h, hc]

private theorem settled_clause (opening : String) (hopening : ∀ c ∈ opening.toList, isPlain c = true)
    (h : ∀ x ∈ items, Settled (f x).toList (status x)) :
    Settled (clause opening (items.map f) "").toList (∃ x ∈ items, status x) := by
  cases items with
  | nil => exact Settled.nil.congr (by simp)
  | cons x items =>
    have hclause := Settled.plain_append hopening (Settled.intercalate h)
    simpa [clause, joined] using hclause

/-- A clause in brackets. -/
private theorem settled_bracketedClause (opening inner : String) (hopening : ∀ c ∈ opening.toList, isPlain c = true)
    (hinner : ∀ c ∈ inner.toList, isPlain c = true) (h : ∀ x ∈ items, Settled (f x).toList (status x)) :
    Settled (clause (opening ++ "(" ++ inner) (items.map f) ")").toList (∃ x ∈ items, status x) := by
  cases items with
  | nil => exact Settled.nil.congr (by simp)
  | cons x items =>
    have hclause := Settled.bracketed hopening (Settled.plain_append hinner (Settled.intercalate h))
    simpa [clause, joined] using hclause

end

/-- What a tree says about the text of an expression in it. -/
abbrev Expr.Settles (e : Expr) : Prop := Settled e.text.toList (¬e.SingleSigns)

theorem head?_optionText {opening : String} {c : Char} (h : opening.toList.head? = some c) (hc : isPlain c = true)
    (o : Option Expr) (closing : String) : ∀ d ∈ (optionText opening o closing).toList.head?, isPlain d = true := by
  cases o <;> simp [optionText, h, hc]

private theorem settled_optionText (opening : String) {o : Option Expr}
    (hopening : ∀ c ∈ opening.toList, isPlain c = true) (h : ∀ e ∈ o, e.Settles) :
    Settled (optionText opening o "").toList (∃ e ∈ o, ¬e.SingleSigns) := by
  cases o with
  | none => exact Settled.nil.congr (by simp)
  | some e =>
    have hclause := Settled.plain_append hopening (h e rfl)
    simpa [optionText] using hclause

private theorem settled_bracketedOptionText (opening inner : String) {o : Option Expr}
    (hopening : ∀ c ∈ opening.toList, isPlain c = true) (hinner : ∀ c ∈ inner.toList, isPlain c = true)
    (h : ∀ e ∈ o, e.Settles) :
    Settled (optionText (opening ++ "(" ++ inner) o ")").toList (∃ e ∈ o, ¬e.SingleSigns) := by
  cases o with
  | none => exact Settled.nil.congr (by simp)
  | some e =>
    have hclause := Settled.bracketed hopening (Settled.plain_append hinner (h e rfl))
    simpa [optionText] using hclause

private theorem settled_keyText {key : SortKey Expr} (h : key.expr.Settles) :
    Settled (keyText key).toList (¬key.expr.SingleSigns) := by
  have hdirection : Contained (if key.ascending then " ASC" else " DESC").toList := by
    split <;> decide
  have hhead : ∀ c ∈ (if key.ascending then " ASC" else " DESC").toList.head?, isPlain c = true := by
    split <;> decide
  rw [keyText, String.toList_append]
  exact (h.append hdirection hhead).congr (by simp)

private theorem settled_labelled {e : Expr} (h : e.Settles) (label : Option String) :
    Settled (labelled e e.text label).toList (¬e.SingleSigns) := by
  cases label with
  | none => exact h
  | some label =>
    have hlabel : Settled (e.text ++ " AS " ++ quoteIdent label).toList (¬e.SingleSigns) := by
      have has := Settled.plain_append (by decide : ∀ c ∈ "AS ".toList, isPlain c = true) (contained_quoteIdent label)
      simpa using h.append_cons (by decide : isPlain ' ' = true) has
    cases e with
    | column name =>
      rw [labelled]
      split
      · exact h
      · exact hlabel
    | _ => exact hlabel

theorem head?_branchesText (branches : List (Branch Expr)) :
    ∀ c ∈ (branchesText branches).toList.head?, isPlain c = true := by
  cases branches <;> simp [branchesText, isPlain]

private theorem settled_branchesText {branches : List (Branch Expr)}
    (h : ∀ b ∈ branches, b.condition.Settles ∧ b.result.Settles) :
    Settled (branchesText branches).toList
      (∃ b ∈ branches, ¬b.condition.SingleSigns ∨ ¬b.result.SingleSigns) := by
  induction branches with
  | nil => exact Settled.nil.congr (by simp)
  | cons b branches ih =>
    obtain ⟨⟨hcondition, hresult⟩, hbranches⟩ := List.forall_mem_cons.1 h
    have hthen := Settled.plain_append (by decide : ∀ c ∈ "THEN ".toList, isPlain c = true)
      (hresult.append (ih hbranches) (head?_branchesText branches))
    have hwhen := Settled.plain_append (by decide : ∀ c ∈ " WHEN ".toList, isPlain c = true)
      (hcondition.append_cons (by decide : isPlain ' ' = true) hthen)
    simpa [branchesText, or_assoc] using hwhen

/-! ### Expressions -/

/-- A written expression starts with a sign only if it is a number. -/
private theorem Expr.Written.head?_text {N : Expr → Prop} {e : Expr} (h : e.Written N) :
    e.text.toList.head? = some '-' ↔ e.isSigned = true := by
  cases e with
  | literal text => simp [Expr.text, isSigned]
  | keyword text =>
    have htext : ∀ text ∈ ["CURRENT_DATE", "CURRENT_TIMESTAMP"], text.toList.head? ≠ some '-' := by decide
    exact iff_of_false (htext text h.worded) (by simp [isSigned])
  | call function =>
    have hname : ∀ name ∈ functionNames ++ aggregateNames, name ≠ "" ∧ name.toList.head? ≠ some '-' := by decide
    obtain ⟨name, args, order, within, filter⟩ := function
    obtain ⟨hempty, hhead⟩ := hname name h.worded
    obtain ⟨c, cs, hcs⟩ := List.exists_cons_of_ne_nil (by simpa using hempty : name.toList ≠ [])
    rw [hcs] at hhead
    simpa [text, callText, hcs, isSigned] using hhead
  | column name => simp [text, quoteIdent, toList_quoted, isSigned]
  | interval value unit =>
    unfold text intervalText
    split <;> simp [isSigned]
  | _ => simp [text, isSigned]

section

variable {e : Expr}

private theorem Expr.Settles.leaf (h : Contained e.text.toList) (hsign : e.doublesSign = false)
    (hoperands : e.operands = []) (hne : ∀ q, e ≠ .subquery q) : e.Settles :=
  h.congr (by rw [Expr.not_singleSigns_iff_operands hsign hne]; simp [hoperands])

private theorem settled_cast {target : String} (htarget : Contained target.toList) (h : e.Settles) :
    (Expr.cast e target).Settles := by
  have has := Settled.plain_append (by decide : ∀ c ∈ "AS ".toList, isPlain c = true) htarget
  have hcast := Settled.bracketed (by decide : ∀ c ∈ "CAST".toList, isPlain c = true)
    (h.append_cons (by decide : isPlain ' ' = true) has)
  rw [Expr.Settles, Expr.not_singleSigns_iff_operands rfl (by simp)]
  simpa [Expr.text, Expr.operands] using hcast

private theorem settled_binary {d : Expr} {op : String} (hop : ∃ operator : BinaryOp, op = operator.symbol)
    (h : e.Settles) (hd : d.Settles) : (Expr.binary e op d).Settles := by
  have hsymbol : Contained op.toList := by
    obtain ⟨operator, rfl⟩ := hop
    cases operator <;> decide
  have hright := hsymbol.append_cons (by decide : isPlain ' ' = true) hd
  have hbinary := Settled.bracketed (a := []) (by simp) (h.append_cons (by decide : isPlain ' ' = true) hright)
  rw [Expr.Settles, Expr.not_singleSigns_iff_operands rfl (by simp)]
  simpa [Expr.text, Expr.operands] using hbinary

private theorem settled_not (h : e.Settles) : (Expr.not e).Settles := by
  have hnot := Settled.plain_append (by decide : ∀ c ∈ "NOT ".toList, isPlain c = true) h
  rw [Expr.Settles, Expr.not_singleSigns_iff_operands rfl (by simp)]
  simpa [Expr.text, Expr.operands] using Settled.bracketed (a := []) (by simp) hnot

private theorem settled_isNull (h : e.Settles) (negated : Bool) : (Expr.isNull e negated).Settles := by
  have htest : Contained (if negated then "IS NOT NULL" else "IS NULL").toList := by cases negated <;> decide
  have hnull := Settled.bracketed (a := []) (by simp) (h.append_cons (by decide : isPlain ' ' = true) htest)
  rw [Expr.Settles, Expr.not_singleSigns_iff_operands rfl (by simp)]
  cases negated <;> simpa [Expr.text, Expr.operands] using hnull

private theorem settled_subscript (h : e.Settles) : (Expr.subscript e 1).Settles := by
  have hindex : Contained "[1]".toList := by decide
  have hsubscript := Settled.nil.enclosed (by rfl : closer? '(' = some ')') h hindex
  rw [Expr.Settles, Expr.not_singleSigns_iff_operands rfl (by simp)]
  have hone : signedText 1 = "1" := by decide
  simpa [Expr.text, Expr.operands, hone] using hsubscript

/-- A comment starts at the sign of a negation if the operand starts with a sign as well. -/
private theorem settled_negate {N : Expr → Prop} (hwritten : e.Written N) (h : e.Settles) :
    (Expr.negate e).Settles := by
  have hsign : (bare e.text.toList).head? = some '-' ↔ (Expr.negate e).doublesSign = true := by
    rw [head?_bare]
    exact hwritten.head?_text
  have htext : (Expr.negate e).text.toList = '(' :: '-' :: (e.text.toList ++ [')']) := by simp [Expr.text]
  have hbare : bare (Expr.negate e).text.toList = '(' :: '-' :: (bare e.text.toList ++ [')']) := by
    rw [htext, bare_cons (by rfl), bare_cons (by rfl), bare_append_cons h.closed (by rfl), bare_nil]
  refine ⟨?_, ?_, ?_⟩
  · rw [htext, closed_cons (by rfl), closed_cons (by rfl), closed_append_cons h.closed (by rfl)]
    exact closed_nil
  · rw [hbare, Balanced, brackets_open (by rfl : closer? '(' = some ')'), brackets_plain (by rfl) (by rfl),
      h.balanced.brackets_append, brackets_close (by rfl), brackets_nil]
  · rw [hbare, Expr.not_singleSigns_iff, commented_cons (by decide) (by decide), ← hsign]
    have hbracket : Commented (bare e.text.toList ++ [')']) ↔ ¬e.SingleSigns := by
      rw [commented_append_cons (by decide) (by decide), commented_cons (by decide) (by decide), ← h.commented]
      simp
    by_cases hdouble : (bare e.text.toList).head? = some '-'
    · obtain ⟨rest, hrest⟩ := List.head?_eq_some_iff.1 hdouble
      refine iff_of_true (.inl ?_) (.inl hdouble)
      rw [hrest]
      exact ⟨[], rest ++ [')'], rfl⟩
    · have hhead : (bare e.text.toList ++ [')']).head? ≠ some '-' := by
        rw [List.head?_append]
        cases hbody : (bare e.text.toList).head? with
        | none => simp
        | some c => simpa [hbody] using hdouble
      rw [commented_hyphen hhead, hbracket]
      simp [hdouble, Expr.operands]

private theorem settled_interval {unit : String} (hunit : ∀ c ∈ unit.toList, isWordChar c = true) (h : e.Settles) :
    (Expr.interval e unit).Settles := by
  have hunit : Contained unit.toList := by
    simpa using Settled.plain_append (fun c hc => isPlain_of_isWordChar (hunit c hc)) Settled.nil
  rw [Expr.Settles, Expr.not_singleSigns_iff_operands rfl (by simp)]
  unfold Expr.text intervalText
  split
  · rename_i digits
    have hpair := (contained_quoteString digits).append_cons (by decide : isPlain ' ' = true) hunit
    have htext := Settled.plain_append (by decide : ∀ c ∈ "INTERVAL ".toList, isPlain c = true) hpair
    simpa [Expr.operands, Expr.singleSigns_literal] using htext
  · have hinterval : Contained "INTERVAL ".toList := by decide
    have htext := hinterval.enclosed (by rfl : closer? '(' = some ')') h (hunit.cons (by decide : isPlain ' ' = true))
    simpa [Expr.operands] using htext

private theorem settled_call {function : Call Expr} (hname : Contained function.name.toList)
    (h : ∀ k ∈ function.operands, k.Settles) : (Expr.call function).Settles := by
  obtain ⟨name, args, order, within, filter⟩ := function
  obtain ⟨hargs, horder, hwithin, hfilter⟩ := Expr.forall_mem_operands_call.1 h
  have hargs : Settled (joined (exprTexts args)).toList (∃ e ∈ args, ¬e.SingleSigns) := by
    rw [exprTexts_eq_map]
    exact Settled.intercalate hargs
  have horder : Settled (clause " ORDER BY " (keyTexts order) "").toList (∃ key ∈ order, ¬key.expr.SingleSigns) := by
    rw [keyTexts_eq_map]
    exact settled_clause _ (by decide) fun key hkey => settled_keyText (horder key hkey)
  have hwithin : Settled (clause " WITHIN GROUP (ORDER BY " (keyTexts within) ")").toList
      (∃ key ∈ within, ¬key.expr.SingleSigns) := by
    rw [keyTexts_eq_map]
    exact settled_bracketedClause " WITHIN GROUP " "ORDER BY " (by decide) (by decide)
      fun key hkey => settled_keyText (hwithin key hkey)
  have hfilter := settled_bracketedOptionText " FILTER " "WHERE " (by decide) (by decide) hfilter
  have hinside := hargs.append horder (head?_clause (by rfl : _ = some ' ') (by decide) _ _)
  have htail := hwithin.append hfilter (head?_optionText (by rfl : _ = some ' ') (by decide) filter ")")
  have hcall := hname.enclosed (by rfl : closer? '(' = some ')') hinside htail
  rw [Expr.Settles, Expr.not_singleSigns_iff_operands rfl (by simp)]
  simpa [Expr.text, callText, Expr.operands, Call.operands, or_and_right, exists_or, or_assoc] using hcall

private theorem settled_case {operand default : Option Expr} {branches : List (Branch Expr)}
    (hoperand : ∀ k ∈ operand, k.Settles) (hbranches : ∀ b ∈ branches, b.condition.Settles ∧ b.result.Settles)
    (hdefault : ∀ k ∈ default, k.Settles) : (Expr.case operand branches default).Settles := by
  have hcase : Contained "CASE".toList := by decide
  have hend : Contained " END".toList := by decide
  have hoperand := hcase.append (settled_optionText " " (by decide) hoperand)
    (head?_optionText (by rfl : _ = some ' ') (by decide) _ _)
  have hbranches := hoperand.append (settled_branchesText hbranches) (head?_branchesText branches)
  have hdefault := hbranches.append (settled_optionText " ELSE " (by decide) hdefault)
    (head?_optionText (by rfl : _ = some ' ') (by decide) _ _)
  have htext := hdefault.append hend (by decide)
  rw [Expr.Settles, Expr.not_singleSigns_case]
  simpa [Expr.text, or_assoc] using htext

end

/-! ### Statements -/

private theorem settled_source {s : Select} (hs : s.Worded)
    (h : ∀ q label, s.source = .subquery q label → Settled q.text.toList (¬q.SingleSigns)) :
    Settled s.source.text.toList (∃ q label, s.source = .subquery q label ∧ ¬q.SingleSigns) := by
  cases hsource : s.source with
  | table name => exact (contained_quoteIdent name).congr (by simp)
  | subquery q label =>
    obtain rfl := hs.label q label hsource
    have hlabel := Settled.plain_append (by decide : ∀ c ∈ " AS t".toList, isPlain c = true)
      (contained_toString q.depth)
    simpa [Source.text] using Settled.nil.enclosed (by rfl : closer? '(' = some ')') (h q _ hsource) hlabel

theorem head?_numberClause {opening : String} {c : Char} (h : opening.toList.head? = some c) (hc : isPlain c = true)
    (n : Option UInt64) : ∀ d ∈ (numberClause opening n).toList.head?, isPlain d = true := by
  cases n <;> simp [numberClause, h, hc]

theorem contained_numberClause (opening : String) (hopening : ∀ c ∈ opening.toList, isPlain c = true)
    (n : Option UInt64) : Contained (numberClause opening n).toList := by
  cases n with
  | none => exact Settled.nil
  | some n =>
    rw [numberClause, String.toList_append]
    exact Settled.plain_append hopening (contained_toString n.toNat)

private theorem settled_select {s : Select} (hs : s.Worded) (hexprs : ∀ e ∈ s.exprs, e.Settles)
    (hsource : ∀ q label, s.source = .subquery q label → Settled q.text.toList (¬q.SingleSigns)) :
    Settled s.text.toList (¬s.SingleSigns) := by
  have hsource := settled_source hs hsource
  obtain ⟨projection, source, selection, groups, order, limit, offset⟩ := s
  obtain ⟨hprojection, hselection, hgroups, horder⟩ := Select.forall_mem_exprs.1 hexprs
  have hprojection : Settled (joined (itemTexts projection)).toList
      (∃ item ∈ projection, ¬item.expr.SingleSigns) := by
    rw [itemTexts_eq_map]
    exact Settled.intercalate fun item hitem => settled_labelled (hprojection item hitem) item.label
  have hgroups : Settled (clause " GROUP BY " (exprTexts groups) "").toList (∃ e ∈ groups, ¬e.SingleSigns) := by
    rw [exprTexts_eq_map]
    exact settled_clause _ (by decide) hgroups
  have horder : Settled (clause " ORDER BY " (keyTexts order) "").toList (∃ key ∈ order, ¬key.expr.SingleSigns) := by
    rw [keyTexts_eq_map]
    exact settled_clause _ (by decide) fun key hkey => settled_keyText (horder key hkey)
  -- the clauses are put together from the source outwards, each behind a blank
  have hfrom := Settled.plain_append (by decide : ∀ c ∈ "FROM ".toList, isPlain c = true) hsource
  have hselect := Settled.plain_append (by decide : ∀ c ∈ "SELECT ".toList, isPlain c = true)
    (hprojection.append_cons (by decide : isPlain ' ' = true) hfrom)
  have hwhere := hselect.append (settled_optionText " WHERE " (by decide) hselection)
    (head?_optionText (by rfl : _ = some ' ') (by decide) _ _)
  have hgroups := hwhere.append hgroups (head?_clause (by rfl : _ = some ' ') (by decide) _ _)
  have horder := hgroups.append horder (head?_clause (by rfl : _ = some ' ') (by decide) _ _)
  have hlimit := horder.append (contained_numberClause " LIMIT " (by decide) limit)
    (head?_numberClause (by rfl : _ = some ' ') (by decide) limit)
  have hoffset := hlimit.append (contained_numberClause " OFFSET " (by decide) offset)
    (head?_numberClause (by rfl : _ = some ' ') (by decide) offset)
  rw [Select.not_singleSigns_clauses]
  simp only [Select.text_mk, String.toList_append, List.append_assoc, List.cons_append] at hoffset ⊢
  exact hoffset.congr (by simp only [or_assoc, or_false])

/-- A written tree closes all quotes and brackets that it opens, and a comment starts where two signs meet. -/
theorem settled_text {N : Expr → Prop} : (∀ e : Expr, e.Written N → e.Settles) ∧
    ∀ s : Select, s.Written N → Settled s.text.toList (¬s.SingleSigns) := by
  refine written_induction (fun e he hoperands hsingle => ?_) fun s hs hexprs hsource => ?_
  · cases e with
    | star => exact .leaf (by decide) rfl rfl (by simp)
    | column name => exact .leaf (contained_quoteIdent name) rfl rfl (by simp)
    | literal text => exact .leaf (LiteralText.contained he.worded) rfl rfl (by simp)
    | keyword text =>
      have hkeyword : ∀ text ∈ ["CURRENT_DATE", "CURRENT_TIMESTAMP"], Contained text.toList := by decide
      exact .leaf (hkeyword text he.worded) rfl rfl (by simp)
    | cast expr target => exact settled_cast he.worded (hoperands expr (by simp [Expr.operands]))
    | binary left op right =>
      exact settled_binary he.worded (hoperands left (by simp [Expr.operands]))
        (hoperands right (by simp [Expr.operands]))
    | not expr => exact settled_not (hoperands expr (by simp [Expr.operands]))
    | isNull expr negated => exact settled_isNull (hoperands expr (by simp [Expr.operands])) negated
    | subscript expr index =>
      obtain ⟨-, rfl⟩ := he.worded
      exact settled_subscript (hoperands expr (by simp [Expr.operands]))
    | subquery query =>
      rw [Expr.Settles, Expr.not_singleSigns_iff]
      simpa [Expr.text, Expr.doublesSign, Expr.operands] using
        Settled.bracketed (a := []) (by simp) (hsingle query rfl)
    | negate expr =>
      have hexpr : expr ∈ (Expr.negate expr).operands := by simp [Expr.operands]
      exact settled_negate (he.operands expr hexpr) (hoperands expr hexpr)
    | interval value unit => exact settled_interval he.worded (hoperands value (by simp [Expr.operands]))
    | call function =>
      have hname : ∀ name ∈ functionNames ++ aggregateNames, Contained name.toList := by decide
      exact settled_call (hname function.name he.worded) hoperands
    | case operand branches default =>
      obtain ⟨hoperand, hbranches, hdefault⟩ := Expr.forall_mem_operands_case.1 hoperands
      exact settled_case hoperand hbranches hdefault
  · exact settled_select hs.here hexprs hsource

/-- The text of a fragment closes all that it opens, and a comment starts in it just if two signs meet. -/
theorem Fragment.settled_text {N : Expr → Prop} {f : Fragment} (h : f.Written N) :
    Settled f.text.toList (¬f.SingleSigns) := by
  cases f with
  | expr e => exact Sql.settled_text.1 e h
  | query q => exact Sql.settled_text.2 q h

end Sql

end SqlPlan
