import SqlPlan.Proofs.Texts

/-!
# Texts that differ in quoted tokens

Two texts are alike if nothing is left of their difference once every quoted token is replaced by its quote character.
Expressions with alike literals in the same places have alike texts. Besides the text, the printer and the rules for
merging statements only ask whether an expression is a star, a column or a literal, which is its `face`.

* `Alike`: of texts, with the ways to put them together.
* `Expr.Alike`, `Select.Alike`: of trees, with a lemma for each way to build one.
-/

namespace SqlPlan

open Sql

namespace Sql

/-! ### Texts -/

/-- Two texts that differ in the contents of quoted tokens only. -/
structure Alike (a b : String) : Prop where
  left : Closed a.toList
  right : Closed b.toList
  bare_eq : bare a.toList = bare b.toList

/-- A word that may stand between texts, since it has no quotes. -/
abbrev Separates (word : String) : Prop := word.toList ≠ [] ∧ ∀ c ∈ word.toList, quote? c = none

section

variable {a b : List Char}

private theorem closed_append (ha : Closed a) (hb : ∀ c ∈ b.head?, quote? c = none) : Closed (a ++ b) ↔ Closed b := by
  cases b with
  | nil => simpa using ha
  | cons c b =>
    have hc := hb c (by simp)
    rw [closed_append_cons ha hc, closed_cons hc]

private theorem bare_append (ha : Closed a) (hb : ∀ c ∈ b.head?, quote? c = none) :
    bare (a ++ b) = bare a ++ bare b := by
  cases b with
  | nil => simp [bare_nil]
  | cons c b =>
    have hc := hb c (by simp)
    rw [bare_append_cons ha hc, bare_cons hc]

end

namespace Alike

variable {a a' b b' word : String}

private theorem refl (h : Closed a.toList) : Alike a a := ⟨h, h, rfl⟩

private theorem head?_eq (h : Alike a b) : a.toList.head? = b.toList.head? := by
  rw [← head?_bare, h.bare_eq, head?_bare]

/-- Alike texts behind alike ones, if no quote comes first. -/
private theorem append (ha : Alike a a') (hb : Alike b b') (hhead : ∀ c ∈ b.toList.head?, quote? c = none) :
    Alike (a ++ b) (a' ++ b') := by
  have hhead' : ∀ c ∈ b'.toList.head?, quote? c = none := by rwa [← hb.head?_eq]
  constructor
  · rw [String.toList_append, closed_append ha.left hhead]
    exact hb.left
  · rw [String.toList_append, closed_append ha.right hhead']
    exact hb.right
  · rw [String.toList_append, String.toList_append, bare_append ha.left hhead, bare_append ha.right hhead',
      ha.bare_eq, hb.bare_eq]

private theorem append_plain (ha : Alike a a') (hb : Alike b b') (hhead : ∀ c ∈ b.toList.head?, isPlain c = true) :
    Alike (a ++ b) (a' ++ b') :=
  ha.append hb fun c hc => quote?_of_isPlain (hhead c hc)

/-- Alike texts behind the same word. -/
theorem behind (hb : Alike b b') (word : String) (hword : Separates word) : Alike (word ++ b) (word ++ b') := by
  have hcons : ∀ cs : List Char, (∀ c ∈ cs, quote? c = none) →
      (∀ d : List Char, Closed (cs ++ d) ↔ Closed d) ∧ ∀ d : List Char, bare (cs ++ d) = cs ++ bare d := by
    intro cs hcs
    induction cs with
    | nil => simp
    | cons c cs ih =>
      obtain ⟨hc, hcs⟩ := List.forall_mem_cons.1 hcs
      exact ⟨fun d => (closed_cons hc).trans ((ih hcs).1 d),
        fun d => by rw [List.cons_append, bare_cons hc, (ih hcs).2 d, List.cons_append]⟩
  obtain ⟨hclosed, hbare⟩ := hcons word.toList hword.2
  constructor
  · rw [String.toList_append, hclosed]
    exact hb.left
  · rw [String.toList_append, hclosed]
    exact hb.right
  · rw [String.toList_append, String.toList_append, hbare, hbare, hb.bare_eq]

private theorem nil : Alike "" "" := .refl (by decide)

/-- Alike texts with the same word between them. -/
private theorem spaced (ha : Alike a a') (word : String) (hword : Separates word) (hb : Alike b b') :
    Alike (a ++ word ++ b) (a' ++ word ++ b') := by
  obtain ⟨c, cs, hcs⟩ := List.exists_cons_of_ne_nil hword.1
  have hc : quote? c = none := hword.2 c (by simp [hcs])
  rw [String.append_assoc, String.append_assoc]
  exact ha.append (hb.behind word hword) (by simpa [hcs] using hc)

/-- Alike texts ahead of the same word. -/
theorem ahead (ha : Alike a a') (word : String) (hword : Separates word) : Alike (a ++ word) (a' ++ word) := by
  simpa using ha.spaced word hword nil

private theorem quoteString (a b : String) : Alike (quoteString a) (SqlPlan.quoteString b) :=
  ⟨closed_quoteString a, closed_quoteString b, by rw [bare_quoteString, bare_quoteString]⟩

section

variable {texts texts' : List String}

/-- Texts with commas between them. -/
theorem joined (h : List.Forall₂ Alike texts texts') : Alike (joined texts) (Sql.joined texts') := by
  induction h with
  | nil => exact nil
  | cons head tail ih =>
    cases tail with
    | nil => simpa [Sql.joined] using head
    | cons head' tail' =>
      have hcomma := head.spaced ", " (by decide) ih
      simpa [Sql.joined, String.intercalate_cons_cons] using hcomma

private theorem clause (opening : String) (hopening : Separates opening) (h : List.Forall₂ Alike texts texts') :
    Alike (clause opening texts "") (Sql.clause opening texts' "") := by
  cases h with
  | nil => exact nil
  | cons head tail => simpa [Sql.clause] using (joined (.cons head tail)).behind opening hopening

private theorem bracketedClause (opening closing : String) (hopening : Separates opening)
    (hclosing : Separates closing) (h : List.Forall₂ Alike texts texts') :
    Alike (Sql.clause opening texts closing) (Sql.clause opening texts' closing) := by
  cases h with
  | nil => exact nil
  | cons head tail =>
    simpa [Sql.clause] using ((joined (.cons head tail)).behind opening hopening).ahead closing hclosing

end

end Alike

/-! ### Expressions -/

/-- What is asked of an expression besides its text. -/
inductive Face where
  | star
  | column (name : String)
  | literal
  | compound
deriving DecidableEq

def Face.isColumn : Face → Bool
  | .column _ => true
  | _ => false

def Expr.face : Expr → Face
  | .star => .star
  | .column name => .column name
  | .literal _ => .literal
  | _ => .compound

private theorem labelled_eq (e : Expr) (text label : String) :
    labelled e text (some label) =
      if e.face = .column label then text else text ++ " AS " ++ quoteIdent label := by
  cases e <;> simp [labelled, Expr.face]

private theorem intervalText_eq {e : Expr} (h : e.face ≠ .literal) (text unit : String) :
    intervalText e text unit = "INTERVAL (" ++ text ++ ") " ++ unit := by
  cases e <;> simp [Expr.face] at h <;> rfl

/-- Two expressions that differ in the contents of quoted tokens only. -/
structure Expr.Alike (e e' : Expr) : Prop where
  text : Sql.Alike e.text e'.text
  face : e.face = e'.face

/-- Keys to sort by that differ in the contents of quoted tokens only. -/
structure KeyAlike (key key' : SortKey Expr) : Prop where
  expr : key.expr.Alike key'.expr
  ascending : key.ascending = key'.ascending

structure ItemAlike (item item' : Item Expr) : Prop where
  expr : item.expr.Alike item'.expr
  label : item.label = item'.label

structure BranchAlike (b b' : Branch Expr) : Prop where
  condition : b.condition.Alike b'.condition
  result : b.result.Alike b'.result

private theorem exprTexts_alike {es es' : List Expr} (h : List.Forall₂ Expr.Alike es es') :
    List.Forall₂ Alike (exprTexts es) (exprTexts es') := by
  rw [exprTexts_eq_map, exprTexts_eq_map, List.forall₂_map_left_iff, List.forall₂_map_right_iff]
  exact h.imp fun _ _ he => he.text

private theorem keyTexts_alike {keys keys' : List (SortKey Expr)} (h : List.Forall₂ KeyAlike keys keys') :
    List.Forall₂ Alike (keyTexts keys) (keyTexts keys') := by
  rw [keyTexts_eq_map, keyTexts_eq_map, List.forall₂_map_left_iff, List.forall₂_map_right_iff]
  refine h.imp fun key key' hkey => ?_
  rw [keyText, keyText, hkey.ascending]
  exact hkey.expr.text.ahead _ (by split <;> decide)

private theorem itemTexts_alike {items items' : List (Item Expr)} (h : List.Forall₂ ItemAlike items items') :
    List.Forall₂ Alike (itemTexts items) (itemTexts items') := by
  rw [itemTexts_eq_map, itemTexts_eq_map, List.forall₂_map_left_iff, List.forall₂_map_right_iff]
  refine h.imp fun item item' hitem => ?_
  rw [itemText, itemText, hitem.label]
  cases item'.label with
  | none => exact hitem.expr.text
  | some label =>
    rw [labelled_eq, labelled_eq, hitem.expr.face]
    split
    · exact hitem.expr.text
    · exact hitem.expr.text.spaced " AS " (by decide) (.refl (closed_quoteIdent label))

private theorem optionText_alike {o o' : Option Expr} (opening : String) (hopening : Separates opening)
    (h : Option.Rel Expr.Alike o o') : Alike (optionText opening o "") (optionText opening o' "") := by
  cases h with
  | none => exact .nil
  | some he => simpa [optionText] using he.text.behind opening hopening

private theorem bracketedOptionText_alike {o o' : Option Expr} (opening closing : String)
    (hopening : Separates opening) (hclosing : Separates closing) (h : Option.Rel Expr.Alike o o') :
    Alike (optionText opening o closing) (optionText opening o' closing) := by
  cases h with
  | none => exact .nil
  | some he => exact (he.text.behind opening hopening).ahead closing hclosing

private theorem branchesText_alike {bs bs' : List (Branch Expr)} (h : List.Forall₂ BranchAlike bs bs') :
    Alike (branchesText bs) (branchesText bs') := by
  induction h with
  | nil => exact .nil
  | @cons b b' bs bs' head tail ih =>
    have hwhen := (head.condition.text.behind " WHEN " (by decide)).spaced " THEN " (by decide) head.result.text
    exact hwhen.append_plain ih (head?_branchesText bs)

namespace Expr.Alike

variable {e e' f f' : Expr}

theorem refl (h : Closed e.text.toList) : Expr.Alike e e := ⟨.refl h, rfl⟩

theorem literal (a b : String) : Expr.Alike (.literal (quoteString a)) (.literal (quoteString b)) :=
  ⟨.quoteString a b, rfl⟩

theorem cast (h : Expr.Alike e e') {target : String} (htarget : Closed target.toList) :
    Expr.Alike (.cast e target) (.cast e' target) :=
  ⟨((h.text.behind "CAST(" (by decide)).spaced " AS " (by decide) (.refl htarget)).ahead ")" (by decide), rfl⟩

theorem binary (h : Expr.Alike e e') (op : BinaryOp) (hf : Expr.Alike f f') :
    Expr.Alike (.binary e op.symbol f) (.binary e' op.symbol f') := by
  have hsymbol : Closed op.symbol.toList := by cases op <;> decide
  have hleft := (h.text.behind "(" (by decide)).spaced " " (by decide) (.refl hsymbol)
  exact ⟨(hleft.spaced " " (by decide) hf.text).ahead ")" (by decide), rfl⟩

theorem not (h : Expr.Alike e e') : Expr.Alike (.not e) (.not e') :=
  ⟨(h.text.behind "(NOT " (by decide)).ahead ")" (by decide), rfl⟩

theorem negate (h : Expr.Alike e e') : Expr.Alike (.negate e) (.negate e') :=
  ⟨(h.text.behind "(-" (by decide)).ahead ")" (by decide), rfl⟩

theorem isNull (h : Expr.Alike e e') (negated : Bool) : Expr.Alike (.isNull e negated) (.isNull e' negated) := by
  refine ⟨(h.text.behind "(" (by decide)).ahead _ ?_, rfl⟩
  cases negated <;> decide

theorem subscript (h : Expr.Alike e e') : Expr.Alike (.subscript e 1) (.subscript e' 1) := by
  have hindex : Closed (signedText 1).toList := by decide
  exact ⟨((h.text.behind "(" (by decide)).spaced ")[" (by decide) (.refl hindex)).ahead "]" (by decide), rfl⟩

/-- An interval quotes its value if it is a literal. -/
theorem interval (h : Expr.Alike e e') {unit : String} (hunit : Closed unit.toList) :
    Expr.Alike (.interval e unit) (.interval e' unit) := by
  refine ⟨?_, rfl⟩
  by_cases hliteral : e.face = .literal
  · have hliteral' : e'.face = .literal := h.face ▸ hliteral
    cases e <;> cases hliteral
    cases e' <;> cases hliteral'
    exact ((Sql.Alike.quoteString _ _).behind "INTERVAL " (by decide)).spaced " " (by decide) (.refl hunit)
  · rw [Expr.text, Expr.text, intervalText_eq hliteral, intervalText_eq (h.face ▸ hliteral)]
    exact (h.text.behind "INTERVAL (" (by decide)).spaced ") " (by decide) (.refl hunit)

theorem case {operand operand' default default' : Option Expr} {bs bs' : List (Branch Expr)}
    (hoperand : Option.Rel Expr.Alike operand operand') (hbranches : List.Forall₂ BranchAlike bs bs')
    (hdefault : Option.Rel Expr.Alike default default') :
    Expr.Alike (.case operand bs default) (.case operand' bs' default') := by
  have hcase : Sql.Alike "CASE" "CASE" := .refl (by decide)
  have hoperand := hcase.append_plain (optionText_alike " " (by decide) hoperand)
    (head?_optionText (by rfl : _ = some ' ') (by decide) _ _)
  have hbranches := hoperand.append_plain (branchesText_alike hbranches) (head?_branchesText bs)
  have hdefault := hbranches.append_plain (optionText_alike " ELSE " (by decide) hdefault)
    (head?_optionText (by rfl : _ = some ' ') (by decide) _ _)
  exact ⟨hdefault.ahead " END" (by decide), rfl⟩

end Expr.Alike

/-- Calls of one function that differ in the contents of quoted tokens only. -/
structure CallAlike (f f' : Call Expr) : Prop where
  name : f.name = f'.name
  args : List.Forall₂ Expr.Alike f.args f'.args
  order : List.Forall₂ KeyAlike f.order f'.order
  within : List.Forall₂ KeyAlike f.within f'.within
  filter : Option.Rel Expr.Alike f.filter f'.filter

theorem Expr.Alike.call {f f' : Call Expr} (h : CallAlike f f') (hname : Closed f.name.toList) :
    Expr.Alike (.call f) (.call f') := by
  obtain ⟨name, args, order, within, filter⟩ := f
  obtain ⟨name', args', order', within', filter'⟩ := f'
  obtain ⟨hsame, hargs, horder, hwithin, hfilter⟩ := h
  obtain rfl : name = name' := hsame
  refine ⟨?_, rfl⟩
  have hargs := (Sql.Alike.refl hname).spaced "(" (by decide) (.joined (exprTexts_alike hargs))
  have horder := hargs.append_plain (.clause " ORDER BY " (by decide) (keyTexts_alike horder))
    (head?_clause (by rfl : _ = some ' ') (by decide) _ _)
  have hwithin := (horder.ahead ")" (by decide)).append_plain
    (.bracketedClause " WITHIN GROUP (ORDER BY " ")" (by decide) (by decide) (keyTexts_alike hwithin))
    (head?_clause (by rfl : _ = some ' ') (by decide) _ _)
  exact hwithin.append_plain (bracketedOptionText_alike " FILTER (WHERE " ")" (by decide) (by decide) hfilter)
    (head?_optionText (by rfl : _ = some ' ') (by decide) _ _)

theorem Expr.Alike.apply {es es' : List Expr} (h : List.Forall₂ Expr.Alike es es') {name : String}
    (hname : Closed name.toList) : Expr.Alike (.apply name es) (.apply name es') :=
  .call ⟨rfl, h, .nil, .nil, .none⟩ hname

/-! ### Statements -/

/-- Sources that differ in the contents of quoted tokens only. -/
structure SourceAlike (source source' : Source) : Prop where
  text : Alike source.text source'.text
  depth : Select.sourceDepth source = Select.sourceDepth source'

/-- Two statements that differ in the contents of quoted tokens only. -/
structure Select.Alike (s s' : Select) : Prop where
  projection : List.Forall₂ ItemAlike s.projection s'.projection
  source : SourceAlike s.source s'.source
  selection : Option.Rel Expr.Alike s.selection s'.selection
  groups : List.Forall₂ Expr.Alike s.groups s'.groups
  order : List.Forall₂ KeyAlike s.order s'.order
  limit : s.limit = s'.limit
  offset : s.offset = s'.offset

namespace Select.Alike

variable {s s' : Select}

/-- The texts of statements that differ in quoted contents differ in quoted contents only. -/
theorem text (h : Select.Alike s s') : Sql.Alike s.text s'.text := by
  obtain ⟨projection, source, selection, groups, order, limit, offset⟩ := s
  obtain ⟨projection', source', selection', groups', order', limit', offset'⟩ := s'
  obtain ⟨hprojection, hsource, hselection, hgroups, horder, hlimit, hoffset⟩ := h
  obtain rfl : limit = limit' := hlimit
  obtain rfl : offset = offset' := hoffset
  have hselect := (Sql.Alike.joined (itemTexts_alike hprojection)).behind "SELECT " (by decide)
  have hwhere := (hselect.spaced " FROM " (by decide) hsource.text).append_plain
    (optionText_alike " WHERE " (by decide) hselection) (head?_optionText (by rfl : _ = some ' ') (by decide) _ _)
  have hgroups := hwhere.append_plain (.clause " GROUP BY " (by decide) (exprTexts_alike hgroups))
    (head?_clause (by rfl : _ = some ' ') (by decide) _ _)
  have horder := hgroups.append_plain (.clause " ORDER BY " (by decide) (keyTexts_alike horder))
    (head?_clause (by rfl : _ = some ' ') (by decide) _ _)
  have hlimit := horder.append_plain (.refl (contained_numberClause " LIMIT " (by decide) limit).closed)
    (head?_numberClause (by rfl : _ = some ' ') (by decide) limit)
  exact hlimit.append_plain (.refl (contained_numberClause " OFFSET " (by decide) offset).closed)
    (head?_numberClause (by rfl : _ = some ' ') (by decide) offset)

theorem subquery (h : Select.Alike s s') : Expr.Alike (.subquery s) (.subquery s') :=
  ⟨(h.text.behind "(" (by decide)).ahead ")" (by decide), rfl⟩

private theorem isEmpty_eq_of_forall₂ {α : Type} {R : α → α → Prop} {l l' : List α} (h : List.Forall₂ R l l') :
    l.isEmpty = l'.isEmpty := by
  cases h <;> rfl

private theorem isStar_iff {item : Item Expr} (h : s.projection = [item]) :
    s.isStar = true ↔ item.expr.face = .star ∧ item.label = none := by
  obtain ⟨expr, label⟩ := item
  unfold isStar
  rw [h]
  cases expr <;> cases label <;> simp [Expr.face]

/-- Whether a statement selects all columns does not depend on quoted contents. -/
theorem isStar_eq (h : Select.Alike s s') : s.isStar = s'.isStar := by
  obtain ⟨projection, source, selection, groups, order, limit, offset⟩ := s
  obtain ⟨projection', source', selection', groups', order', limit', offset'⟩ := s'
  have hprojection : List.Forall₂ ItemAlike projection projection' := h.projection
  cases hprojection with
  | nil => rfl
  | cons hitem tail =>
    cases tail with
    | nil => rw [Bool.eq_iff_iff, isStar_iff rfl, isStar_iff rfl, hitem.expr.face, hitem.label]
    | cons _ _ => simp [isStar]

theorem isGrouped_eq (h : Select.Alike s s') : s.isGrouped = s'.isGrouped := by
  rw [isGrouped, isGrouped, isEmpty_eq_of_forall₂ h.groups]

theorem isOrdered_eq (h : Select.Alike s s') : s.isOrdered = s'.isOrdered := by
  rw [isOrdered, isOrdered, isEmpty_eq_of_forall₂ h.order]

theorem isLimited_eq (h : Select.Alike s s') : s.isLimited = s'.isLimited := by
  rw [isLimited, isLimited, h.limit, h.offset]

private theorem star {source source' : Source} (h : SourceAlike source source') :
    Select.Alike (.star source) (.star source') :=
  ⟨.cons ⟨.refl (by decide), rfl⟩ .nil, h, .none, .nil, .nil, rfl, rfl⟩

theorem ofTable (name : String) : Select.Alike (.ofTable name) (.ofTable name) :=
  star ⟨.refl (closed_quoteIdent name), rfl⟩

private theorem wrap (h : Select.Alike s s') : Select.Alike s.wrap s'.wrap := by
  have hsource : ∀ s : Select, s.depth = sourceDepth s.source := by rintro ⟨⟩; rfl
  have hdepth : s.depth = s'.depth := by rw [hsource, hsource, h.source.depth]
  have hlabel : Closed ("t" ++ toString s'.depth).toList := by
    rw [String.toList_append]
    exact (Settled.plain_append (by decide) (contained_toString s'.depth)).closed
  refine star ⟨?_, congrArg (· + 1) hdepth⟩
  rw [Source.text, Source.text, hdepth]
  exact (h.text.behind "(" (by decide)).spaced ") AS " (by decide) (.refl hlabel)

theorem wrapUnless (h : Select.Alike s s') {free free' : Bool} (hfree : free = free') :
    Select.Alike (s.wrapUnless free) (s'.wrapUnless free') := by
  subst hfree
  cases free with
  | false => exact h.wrap
  | true => exact h

theorem project (h : Select.Alike s s') {items items' : List (Item Expr)}
    (hitems : List.Forall₂ ItemAlike items items') :
    Select.Alike { s with projection := items } { s' with projection := items' } :=
  ⟨hitems, h.source, h.selection, h.groups, h.order, h.limit, h.offset⟩

theorem regroup (h : Select.Alike s s') {groups groups' : List Expr}
    (hgroups : List.Forall₂ Expr.Alike groups groups') :
    Select.Alike { s with groups } { s' with groups := groups' } :=
  ⟨h.projection, h.source, h.selection, hgroups, h.order, h.limit, h.offset⟩

theorem orderBy (h : Select.Alike s s') {order order' : List (SortKey Expr)}
    (horder : List.Forall₂ KeyAlike order order') : Select.Alike { s with order } { s' with order := order' } :=
  ⟨h.projection, h.source, h.selection, h.groups, horder, h.limit, h.offset⟩

theorem window (h : Select.Alike s s') (limit offset : Option UInt64) :
    Select.Alike { s with limit, offset } { s' with limit, offset } :=
  ⟨h.projection, h.source, h.selection, h.groups, h.order, rfl, rfl⟩

theorem scalarSource (h : Select.Alike s s') : Select.Alike s.scalarSource s'.scalarSource := by
  unfold Select.scalarSource
  rw [h.isStar_eq, h.isGrouped_eq, h.isLimited_eq]
  split
  · exact h.orderBy .nil
  · exact h.wrap

end Select.Alike

private theorem Expr.Alike.conjunction {es es' : List Expr} (h : List.Forall₂ Expr.Alike es es') :
    Option.Rel Expr.Alike (Expr.conjunction es) (Expr.conjunction es') := by
  have hfold : ∀ {es es' : List Expr}, List.Forall₂ Expr.Alike es es' → ∀ {e e' : Expr}, e.Alike e' →
      (es.foldl (fun left right => .binary left "AND" right) e).Alike
        (es'.foldl (fun left right => .binary left "AND" right) e') := by
    intro es es' h
    induction h with
    | nil => exact id
    | cons next _ ih => exact fun he => ih (he.binary .and next)
  cases h with
  | nil => exact .none
  | cons head tail => exact .some (hfold tail head)

/-- Conditions that differ in quoted contents are added to statements alike. -/
theorem Select.Alike.addSelection {s s' : Select} (h : Select.Alike s s') {es es' : List Expr}
    (hes : List.Forall₂ Expr.Alike es es') : Select.Alike (s.addSelection es) (s'.addSelection es') := by
  have htoList : ∀ {o o' : Option Expr}, Option.Rel Expr.Alike o o' → List.Forall₂ Expr.Alike o.toList o'.toList := by
    intro o o' ho
    cases ho with
    | none => exact .nil
    | some he => exact .cons he .nil
  have hselection := Expr.Alike.conjunction (List.rel_append (htoList h.selection) hes)
  exact ⟨h.projection, h.source, hselection, h.groups, h.order, h.limit, h.offset⟩

end Sql

end SqlPlan
