import SqlPlan.Proofs.Reading

/-!
# The forms of expressions

How an expression starts tells its form, and what comes first in brackets tells what they enclose. One look at the
start is not enough behind `(-` only: a number is negated there, or a negative number is the first operand of an
operator.

* `formOf_text`: how an expression starts tells its form.
* `openingOf_text`: how brackets start tells what they enclose.
-/

namespace SqlPlan

open Sql

namespace Sql

/-! ### Forms -/

/-- What an expression looks like at its start. -/
inductive Form where
  | star
  | column
  | bracket
  | number
  | negative
  | string (mark : String)
  | word
  | array
  | keyword
  | cast
  | call
  | case
  | interval
  /-- What no expression looks like. -/
  | foreign
deriving DecidableEq

/-- The forms that start with a character of their own. -/
def charForm? (c : Char) : Option Form :=
  if c = '*' then some .star
  else if c = '"' then some .column
  else if c = '(' then some .bracket
  else if c = '\'' then some (.string "")
  else if c = '-' then some .negative
  else if c.isDigit then some .number
  else none

/-- The words that expressions start with. -/
def wordForms : List (String × Form) :=
  [("CAST", .cast), ("CASE", .case), ("INTERVAL", .interval), ("ARRAY", .array), ("NULL", .word), ("TRUE", .word),
    ("FALSE", .word), ("X", .string "X"), ("TIME", .string "TIME "), ("TIMESTAMP", .string "TIMESTAMP "),
    ("CURRENT_DATE", .keyword), ("CURRENT_TIMESTAMP", .keyword)] ++
    (functionNames ++ aggregateNames).map fun name => (name, .call)

/-- The form of what a text starts with. -/
def formOf (cs : List Char) : Form :=
  (cs.head?.bind charForm?).getD ((wordForms.lookup (String.ofList (cs.takeWhile isWordChar))).getD .foreign)

/-- What the form of a literal says about its text. -/
def Form.Spells : Form → String → Prop
  | .number, text => Numeral text.toList
  | .negative, text => ∃ cs, text.toList = '-' :: cs ∧ Numeral cs
  | .string mark, text => ∃ contents, text = mark ++ quoteString contents
  | .word, text => text ∈ ["NULL", "TRUE", "FALSE"]
  | .array, text => ∃ contents, text = "ARRAY[" ++ contents ++ "]" ∧ Contained contents.toList
  | _, _ => False

/-- Whether an expression stands in brackets. -/
def Expr.isBracketed : Expr → Bool
  | .binary _ _ _ | .not _ | .negate _ | .isNull _ _ | .subscript _ _ | .subquery _ => true
  | _ => false

/-- What a form says about an expression. -/
def Form.Shows : Form → Expr → Prop
  | .star, e => e = .star
  | .column, e => ∃ name, e = .column name
  | .bracket, e => e.isBracketed = true
  | .keyword, e => ∃ text, e = .keyword text
  | .cast, e => ∃ k target, e = .cast k target
  | .call, e => ∃ function, e = .call function
  | .case, e => ∃ operand branches default, e = .case operand branches default
  | .interval, e => ∃ k unit, e = .interval k unit
  | .foreign, _ => False
  | form, e => ∃ text, e = .literal text ∧ form.Spells text

section

variable {r : List Char}

private theorem takeWhile_append_of_all {p : Char → Bool} {a : List Char} (ha : ∀ c ∈ a, p c = true)
    (hr : ∀ c ∈ r.head?, p c = false) : (a ++ r).takeWhile p = a := by
  rw [List.takeWhile_append_of_pos ha]
  cases r with
  | nil => simp
  | cons c r => simp [hr c (by simp)]

/-- A word that has ended is looked up. -/
private theorem formOf_lookup {word : String} (hword : ∀ c ∈ word.toList, isWordChar c = true)
    (hhead : word.toList.head?.bind charForm? = none) (hne : word.toList ≠ [])
    (hr : ∀ c ∈ r.head?, isWordChar c = false) :
    formOf (word.toList ++ r) = (wordForms.lookup word).getD .foreign := by
  rw [formOf, takeWhile_append_of_all hword hr, String.ofList_toList, List.head?_append_of_ne_nil _ hne, hhead]
  rfl

private theorem formOf_word {w : String} {form : Form} (h : (w, form) ∈ wordForms)
    (hr : ∀ c ∈ r.head?, isWordChar c = false) : formOf (w.toList ++ r) = form := by
  have hwords : ∀ entry ∈ wordForms, (∀ c ∈ entry.1.toList, isWordChar c = true) ∧
      entry.1.toList.head?.bind charForm? = none ∧ entry.1.toList ≠ [] ∧
        wordForms.lookup entry.1 = some entry.2 := by
    decide
  obtain ⟨hchars, hhead, hne, hlookup⟩ := hwords _ h
  rw [formOf_lookup hchars hhead hne hr, hlookup, Option.getD_some]

/-- The words that no expression starts with, but clauses do. -/
theorem formOf_foreign {w : String} (h : w ∈ ["NOT", "SELECT", "WHEN", "ELSE", "END"])
    (hr : ∀ c ∈ r.head?, isWordChar c = false) : formOf (w.toList ++ r) = .foreign := by
  have hwords : ∀ word ∈ ["NOT", "SELECT", "WHEN", "ELSE", "END"], (∀ c ∈ word.toList, isWordChar c = true) ∧
      word.toList.head?.bind charForm? = none ∧ word.toList ≠ [] ∧ wordForms.lookup word = none := by
    decide
  obtain ⟨hchars, hhead, hne, hlookup⟩ := hwords _ h
  rw [formOf_lookup hchars hhead hne hr, hlookup, Option.getD_none]

/-- No word goes on where an expression may stop. -/
theorem isWordChar_of_isStop (h : isStop r = true) : ∀ c ∈ r.head?, isWordChar c = false :=
  class_of_isStop h (by decide)

/-- What comes behind an expression does not start one. -/
theorem formOf_stop (h : isStop r = true) : formOf r = .foreign := by
  have hword : r.takeWhile isWordChar = [] := by
    simpa using takeWhile_append_of_all (a := []) (by simp) (isWordChar_of_isStop h)
  have hhead : r.head?.bind charForm? = none := by
    cases hr : r.head? with
    | none => rfl
    | some c => rcases head?_of_isStop h c hr with rfl | rfl | rfl <;> rfl
  rw [formOf, hword, hhead]
  decide

private theorem formOf_number {cs : List Char} (h : Numeral cs) (r : List Char) : formOf (cs ++ r) = .number := by
  obtain ⟨d, rest, rfl, hd⟩ := h.head
  have hform : charForm? d = some .number := by
    have hne : d ∉ ['*', '"', '(', '\'', '-'] := by
      intro hmem
      have hdigit : ∀ c ∈ ['*', '"', '(', '\'', '-'], c.isDigit = false := by decide
      rw [hdigit d hmem] at hd
      cases hd
    simp only [List.mem_cons, List.not_mem_nil, or_false, not_or] at hne
    simp [charForm?, hne, hd]
  rw [formOf, List.cons_append, List.head?_cons, Option.bind_some, hform, Option.getD_some]

private theorem formOf_string {mark : String} (h : mark ∈ ["", "X", "TIME ", "TIMESTAMP "]) (text : String)
    (r : List Char) : formOf ((mark ++ quoteString text).toList ++ r) = .string mark := by
  have hquote : (quoteString text).toList ++ r = '\'' :: (doubled '\'' text.toList ++ ['\''] ++ r) := by
    rw [quoteString, toList_quoted, List.cons_append]
  rw [String.toList_append, List.append_assoc, hquote]
  simp only [List.mem_cons, List.not_mem_nil, or_false] at h
  rcases h with rfl | rfl | rfl | rfl
  · rfl
  · exact formOf_word (w := "X") (by decide) (by simp; rfl)
  · exact formOf_word (w := "TIME") (r := ' ' :: _) (by decide) (by simp; rfl)
  · exact formOf_word (w := "TIMESTAMP") (r := ' ' :: _) (by decide) (by simp; rfl)

/-- The form of a literal is seen at its start. -/
private theorem LiteralText.formOf_append {text : String} (h : LiteralText text) (hr : isStop r = true) :
    (formOf (text.toList ++ r)).Spells text := by
  cases h with
  | word h =>
    have hword : ∀ text ∈ ["NULL", "TRUE", "FALSE"], (text, Form.word) ∈ wordForms := by decide
    rw [formOf_word (hword text h) (isWordChar_of_isStop hr)]
    exact h
  | number h =>
    rw [formOf_number h]
    exact h
  | @negative _ cs htext h =>
    have hform : formOf (text.toList ++ r) = .negative := by
      rw [htext]
      rfl
    rw [hform]
    exact ⟨cs, htext, h⟩
  | string mark text h =>
    rw [formOf_string h]
    exact ⟨text, rfl⟩
  | array contents h =>
    have hform : formOf (("ARRAY[" ++ contents ++ "]").toList ++ r) = .array := by
      rw [String.toList_append, String.toList_append, List.append_assoc, List.append_assoc]
      exact formOf_word (w := "ARRAY") (r := '[' :: _) (by decide) (by simp; rfl)
    rw [hform]
    exact ⟨contents, rfl, h⟩

private theorem Form.Spells.shows {form : Form} {text : String} (h : form.Spells text) :
    form.Shows (.literal text) := by
  cases form with
  | number | negative | string | word | array => exact ⟨text, rfl, h⟩
  | _ => exact h.elim

variable {N : Expr → Prop}

/-- The form of an expression is seen at its start. -/
theorem formOf_text {e : Expr} (h : e.Written N) (hr : isStop r = true) : (formOf (e.text.toList ++ r)).Shows e := by
  suffices hform : ∃ form, formOf (e.text.toList ++ r) = form ∧ form.Shows e by
    obtain ⟨form, rfl, hshows⟩ := hform
    exact hshows
  cases e with
  | star => exact ⟨.star, rfl, rfl⟩
  | column name =>
    refine ⟨.column, ?_, name, rfl⟩
    rw [Expr.text, quoteIdent, toList_quoted]
    rfl
  | literal text => exact ⟨_, rfl, (LiteralText.formOf_append h.worded hr).shows⟩
  | keyword text =>
    have hword : ∀ text ∈ ["CURRENT_DATE", "CURRENT_TIMESTAMP"], (text, Form.keyword) ∈ wordForms := by decide
    exact ⟨.keyword, formOf_word (hword text h.worded) (isWordChar_of_isStop hr), text, rfl⟩
  | cast k target =>
    refine ⟨.cast, ?_, k, target, rfl⟩
    simp only [Expr.text, String.toList_append, List.append_assoc]
    exact formOf_word (w := "CAST") (r := '(' :: _) (by decide) (by simp; rfl)
  | call function =>
    have hword : ∀ name ∈ functionNames ++ aggregateNames, (name, Form.call) ∈ wordForms := by decide
    refine ⟨.call, ?_, function, rfl⟩
    obtain ⟨name, args, order, within, filter⟩ := function
    simp only [Expr.text, callText, String.toList_append, List.append_assoc]
    exact formOf_word (r := '(' :: _) (hword name h.worded) (by simp; rfl)
  | case operand branches default =>
    refine ⟨.case, ?_, operand, branches, default, rfl⟩
    simp only [Expr.text, String.toList_append, List.append_assoc]
    refine formOf_word (w := "CASE") (by decide) ?_
    have hblank : ∀ x : List Char, ∀ c ∈ (' ' :: x).head?, isWordChar c = false := by
      simp
      rfl
    have hrest := caseRest_append (K := fun x => ∀ c ∈ x.head?, isWordChar c = false) (r := r) (fun _ => hblank _)
      (fun _ => hblank _) (hblank _) branches default
    refine optionText_append (K := fun x => ∀ c ∈ x.head?, isWordChar c = false) (fun x => ?_) hrest operand ""
    exact hblank x
  | interval k unit =>
    refine ⟨.interval, ?_, k, unit, rfl⟩
    rw [Expr.text]
    unfold intervalText
    split
    all_goals
      simp only [String.toList_append, List.append_assoc]
      exact formOf_word (w := "INTERVAL") (r := ' ' :: _) (by decide) (by simp; rfl)
  -- which of these it is shows behind the bracket only
  | binary | not | negate | isNull | subscript | subquery =>
    refine ⟨.bracket, ?_, rfl⟩
    simp only [Expr.text, String.toList_append, List.append_assoc]
    rfl

/-- No expression starts in a foreign way. -/
theorem Expr.Written.not_foreign {e : Expr} (h : e.Written N) (hr : isStop r = true) :
    formOf (e.text.toList ++ r) ≠ .foreign := by
  intro hform
  have hshows := formOf_text h hr
  rw [hform] at hshows
  exact hshows

/-! ### Brackets -/

/-- What comes first in brackets. -/
inductive Opening where
  | operand
  | not
  | negate
  | query

/-- What comes first in brackets, seen behind the opening bracket. A sign and a number are an operand if a blank
follows, and a negation if not. -/
def openingOf (cs : List Char) : Opening :=
  if cs.head? = some '-' then
    if formOf cs.tail = .number ∧ (cs.tail.dropWhile isNumeralChar).head? = some ' ' then .operand else .negate
  else if formOf cs = .foreign then (if cs.head? = some 'N' then .not else .query)
  else .operand

/-- The expressions that have an operand first in their brackets, and what comes behind it. -/
inductive Expr.Opens : Expr → Expr → String → Prop
  | binary (left : Expr) (op : String) (right : Expr) :
    Opens (.binary left op right) left (" " ++ op ++ " " ++ right.text ++ ")")
  | isNull (expr : Expr) (negated : Bool) :
    Opens (.isNull expr negated) expr (if negated then " IS NOT NULL)" else " IS NULL)")
  | subscript (expr : Expr) (index : Int64) : Opens (.subscript expr index) expr (")[" ++ signedText index ++ "]")

def Opening.Shows : Opening → Expr → Prop
  | .operand, e => ∃ k rest, e.Opens k rest
  | .not, e => ∃ k, e = .not k
  | .negate, e => ∃ k, e = .negate k
  | .query, e => ∃ q, e = .subquery q

namespace Expr.Opens

variable {e k : Expr} {rest : String}

/-- What an expression opens with is one of its operands. -/
theorem mem_operands (h : e.Opens k rest) : k ∈ e.operands := by
  cases h <;> simp [operands]

/-- The text of an expression that opens with an operand. -/
theorem toList_text (h : e.Opens k rest) (r : List Char) :
    e.text.toList ++ r = '(' :: (k.text.toList ++ (rest.toList ++ r)) := by
  cases h <;> simp [Expr.text]

theorem isStop (h : e.Opens k rest) (he : e.Written N) (r : List Char) : isStop (rest.toList ++ r) = true := by
  cases h with
  | binary left op right =>
    obtain ⟨operator, rfl⟩ := he.worded
    simp only [String.toList_append, List.append_assoc]
    cases operator <;> rfl
  | isNull expr negated => cases negated <;> rfl
  | subscript expr index =>
    simp only [String.toList_append, List.append_assoc]
    rfl

private theorem head?_rest (h : e.Opens k rest) (he : e.Written N) (r : List Char) :
    (rest.toList ++ r).head? = some ' ' ∨ ∃ function, k = .call function := by
  cases h with
  | binary left op right => exact .inl (by simp)
  | isNull expr negated => cases negated <;> exact .inl rfl
  | subscript expr index => exact .inr he.worded.1

end Expr.Opens

private theorem openingOf_hyphen (cs : List Char) :
    openingOf ('-' :: cs) =
      if formOf cs = .number ∧ (cs.dropWhile isNumeralChar).head? = some ' ' then .operand else .negate :=
  if_pos rfl

private theorem openingOf_foreign {cs : List Char} (hform : formOf cs = .foreign) (hsign : cs.head? ≠ some '-') :
    openingOf cs = if cs.head? = some 'N' then .not else .query := by
  rw [openingOf, if_neg hsign, if_pos hform]

private theorem openingOf_operand {k : Expr} (hk : k.Written N) (hr : isStop r = true)
    (hhead : r.head? = some ' ' ∨ ∃ function, k = .call function) : openingOf (k.text.toList ++ r) = .operand := by
  by_cases hsign : (k.text.toList ++ r).head? = some '-'
  · have hform : formOf (k.text.toList ++ r) = .negative := by
      rw [formOf, hsign]
      rfl
    have hshows := formOf_text hk hr
    rw [hform] at hshows
    obtain ⟨text, rfl, cs, hcs, hnumeral⟩ := hshows
    have hblank : r.head? = some ' ' := hhead.resolve_right (by simp)
    have htext : (Expr.literal text).text.toList ++ r = '-' :: (cs ++ r) := by rw [Expr.text, hcs, List.cons_append]
    rw [htext, openingOf_hyphen, formOf_number hnumeral, List.dropWhile_append_of_pos hnumeral.chars]
    cases r with
    | nil => cases hblank
    | cons c r =>
      obtain rfl : c = ' ' := by simpa using hblank
      rfl
  · rw [openingOf, if_neg hsign, if_neg (hk.not_foreign hr)]

private theorem openingOf_negate {k : Expr} (hk : k.Written N) (r : List Char) :
    openingOf ('-' :: (k.text.toList ++ ')' :: r)) = .negate := by
  rw [openingOf_hyphen, if_neg]
  rintro ⟨hform, hblank⟩
  have hshows := formOf_text hk (r := ')' :: r) rfl
  rw [hform] at hshows
  obtain ⟨text, rfl, hnumeral⟩ := hshows
  have hchars : ∀ c ∈ (Expr.literal text).text.toList, isNumeralChar c = true := hnumeral.chars
  rw [List.dropWhile_append_of_pos hchars] at hblank
  cases hblank

/-- The characters behind its bracket show of which form a bracketed expression is. -/
theorem openingOf_text {e : Expr} (h : e.Written N) (hbracketed : e.isBracketed = true) (r : List Char) :
    (openingOf (e.text.toList ++ r).tail).Shows e := by
  suffices hopening : ∃ opening, openingOf (e.text.toList ++ r).tail = opening ∧ opening.Shows e by
    obtain ⟨opening, rfl, hshows⟩ := hopening
    exact hshows
  have hoperand : ∀ {k : Expr} {rest : String}, e.Opens k rest →
      ∃ opening, openingOf (e.text.toList ++ r).tail = opening ∧ opening.Shows e := by
    intro k rest hopens
    refine ⟨.operand, ?_, k, rest, hopens⟩
    rw [hopens.toList_text, List.tail_cons]
    exact openingOf_operand (h.operands k hopens.mem_operands) (hopens.isStop h r) (hopens.head?_rest h r)
  cases e with
  | binary left op right => exact hoperand (.binary left op right)
  | isNull expr negated => exact hoperand (.isNull expr negated)
  | subscript expr index => exact hoperand (.subscript expr index)
  | not expr =>
    refine ⟨.not, ?_, expr, rfl⟩
    have hform : formOf ("NOT ".toList ++ (expr.text.toList ++ (")".toList ++ r))) = .foreign :=
      formOf_foreign (w := "NOT") (r := ' ' :: _) (by decide) (by simp; rfl)
    simp only [Expr.text, String.toList_append, List.append_assoc]
    exact openingOf_foreign hform (by simp)
  | negate expr =>
    refine ⟨.negate, ?_, expr, rfl⟩
    simp only [Expr.text, String.toList_append, List.append_assoc]
    exact openingOf_negate (h.operands expr (by simp [Expr.operands])) r
  | subquery query =>
    refine ⟨.query, ?_, query, rfl⟩
    obtain ⟨projection, source, selection, groups, order, limit, offset⟩ := query
    simp only [Expr.text, Select.text_mk, String.toList_append, List.append_assoc]
    exact openingOf_foreign (formOf_foreign (w := "SELECT") (r := ' ' :: _) (by decide) (by simp; rfl)) (by simp)
  | _ => cases hbracketed

end

end Sql

end SqlPlan
