import SqlPlan.Proofs.Forms

/-!
# Compiled SQL is unambiguous

The text of a tree determines the tree. The form of an expression is known from its start, and each form is read from
left to right: its parts are followed by a blank, a bracket or a comma, and the clauses behind them are told apart by
their first three characters.

* `told_text`: the text of a tree tells the tree apart and where it ends, by induction over the tree.
* `Compiler.text_injective_of_compile`: two compiled queries with the same text are the same.
-/

namespace SqlPlan

open Sql

namespace Sql

/-! ### Literals, casts and intervals -/

/-- The text of an expression tells it apart from all others. -/
abbrev Expr.Reads (N : Expr → Prop) (e : Expr) : Prop := Told Expr.text (Expr.Written N) (isStop · = true) e

/-- The text of a statement tells it apart from all others. -/
abbrev Select.Reads (N : Expr → Prop) (s : Select) : Prop := Told Select.text (Select.Written N) (isEnd · = true) s

section

variable {N : Expr → Prop} {r s : List Char}

private theorem spells_append_inj {form : Form} {a b : String} (ha : form.Spells a) (hb : form.Spells b)
    (hr : isStop r = true) (hs : isStop s = true) (h : a.toList ++ r = b.toList ++ s) : a = b ∧ r = s := by
  have hnumeral : ∀ {x y : List Char}, Numeral x → Numeral y → x ++ r = y ++ s → x = y ∧ r = s := fun hx hy =>
    class_append_inj hx.chars hy.chars (class_of_isStop hr (by decide)) (class_of_isStop hs (by decide))
  cases form with
  | number =>
    obtain ⟨hab, hrest⟩ := hnumeral ha hb h
    exact ⟨String.toList_inj.1 hab, hrest⟩
  | negative =>
    obtain ⟨x, hx, hax⟩ := ha
    obtain ⟨y, hy, hby⟩ := hb
    rw [hx, hy] at h
    obtain ⟨rfl, hrest⟩ := hnumeral hax hby (List.cons.inj h).2
    exact ⟨String.toList_inj.1 (hx.trans hy.symm), hrest⟩
  | string mark =>
    obtain ⟨x, rfl⟩ := ha
    obtain ⟨y, rfl⟩ := hb
    rw [String.toList_append, String.toList_append, List.append_assoc, List.append_assoc] at h
    obtain ⟨rfl, hrest⟩ := quoted_append_inj (head?_ne_of_isStop hr (by decide)) (head?_ne_of_isStop hs (by decide))
      (List.append_cancel_left h)
    exact ⟨rfl, hrest⟩
  | word =>
    have hword : ∀ text ∈ ["NULL", "TRUE", "FALSE"], ∀ c ∈ text.toList, isWordChar c = true := by decide
    obtain ⟨hab, hrest⟩ :=
      class_append_inj (hword a ha) (hword b hb) (isWordChar_of_isStop hr) (isWordChar_of_isStop hs) h
    exact ⟨String.toList_inj.1 hab, hrest⟩
  | array =>
    obtain ⟨x, rfl, hx⟩ := ha
    obtain ⟨y, rfl, hy⟩ := hb
    simp only [String.toList_append, List.append_assoc] at h
    obtain ⟨hxy, hrest⟩ := hx.end_unique hy (d := ']') rfl (List.append_cancel_left h)
    exact ⟨by rw [String.toList_inj.1 hxy], hrest⟩
  | _ => exact ha.elim

private theorem cast_append_inj {k k' : Expr} {target target' : String} (hk : k.Reads N)
    (h : (Expr.cast k target).Written N) (h' : (Expr.cast k' target').Written N)
    (heq : (Expr.cast k target).text.toList ++ r = (Expr.cast k' target').text.toList ++ s) :
    Expr.cast k target = Expr.cast k' target' ∧ r = s := by
  simp only [Expr.text, String.toList_append, List.append_assoc] at heq
  obtain ⟨rfl, hrest⟩ := hk k' (h'.operands k' (by simp [Expr.operands])) _ _ rfl rfl (List.append_cancel_left heq)
  have htarget : Contained target.toList := h.worded
  have htarget' : Contained target'.toList := h'.worded
  obtain ⟨hnames, hrs⟩ := htarget.end_unique htarget' (d := ')') rfl (List.append_cancel_left hrest)
  exact ⟨by rw [String.toList_inj.1 hnames], hrs⟩

private theorem intervalText_cases (k : Expr) (text unit : String) :
    (∃ digits, k = .literal digits ∧ intervalText k text unit = "INTERVAL " ++ quoteString digits ++ " " ++ unit) ∨
      intervalText k text unit = "INTERVAL (" ++ text ++ ") " ++ unit := by
  unfold intervalText
  split
  · exact .inl ⟨_, rfl, rfl⟩
  · exact .inr rfl

private theorem interval_append_inj {k k' : Expr} {unit unit' : String} (hk : k.Reads N)
    (h : (Expr.interval k unit).Written N) (h' : (Expr.interval k' unit').Written N) (hr : isStop r = true)
    (hs : isStop s = true)
    (heq : (Expr.interval k unit).text.toList ++ r = (Expr.interval k' unit').text.toList ++ s) :
    Expr.interval k unit = Expr.interval k' unit' ∧ r = s := by
  have hunits : unit.toList ++ r = unit'.toList ++ s → unit = unit' ∧ r = s := by
    intro hrest
    obtain ⟨hunit, hrs⟩ := class_append_inj h.worded h'.worded (isWordChar_of_isStop hr) (isWordChar_of_isStop hs)
      hrest
    exact ⟨String.toList_inj.1 hunit, hrs⟩
  rw [Expr.text, Expr.text] at heq
  rcases intervalText_cases k k.text unit with ⟨digits, rfl, htext⟩ | htext <;>
    rcases intervalText_cases k' k'.text unit' with ⟨digits', rfl, htext'⟩ | htext' <;>
    rw [htext, htext'] at heq <;>
    simp only [String.toList_append, List.append_assoc] at heq
  · obtain ⟨rfl, hrest⟩ := quoted_append_inj (by simp) (by simp) (List.append_cancel_left heq)
    obtain ⟨rfl, hrs⟩ := hunits (List.append_cancel_left hrest)
    exact ⟨rfl, hrs⟩
  · rw [quoteString, toList_quoted] at heq
    simp at heq
  · rw [quoteString, toList_quoted] at heq
    simp at heq
  · obtain ⟨rfl, hrest⟩ := hk k' (h'.operands k' (by simp [Expr.operands])) _ _ rfl rfl (List.append_cancel_left heq)
    obtain ⟨rfl, hrs⟩ := hunits (List.append_cancel_left hrest)
    exact ⟨rfl, hrs⟩

/-! ### Keys, calls and branches -/

private theorem told_keyText {key : SortKey Expr} (h : key.expr.Reads N) :
    Told keyText (·.expr.Written N) (fun _ => True) key := by
  intro key' h' r s _ _ heq
  obtain ⟨expr, ascending⟩ := key
  obtain ⟨expr', ascending'⟩ := key'
  have hstop : ∀ (ascending : Bool) (r : List Char),
      isStop ((if ascending then " ASC" else " DESC").toList ++ r) = true := by
    intro ascending r
    cases ascending <;> rfl
  simp only [keyText, String.toList_append, List.append_assoc] at heq
  obtain ⟨rfl, hrest⟩ := h expr' h' _ _ (hstop ascending r) (hstop ascending' s) heq
  cases ascending <;> cases ascending' <;> simp at hrest ⊢
  · exact hrest
  · exact hrest

/-- A list of expressions is empty if it does not start as an expression does. -/
private theorem formOf_joined {α : Type} {f : α → String} {K : List Char → Prop} {as : List α}
    (hcomma : ∀ r, K (',' :: r)) (has : ∀ a ∈ as, ∀ r, K r → formOf ((f a).toList ++ r) ≠ .foreign) (hr : K r)
    (hstop : isStop r = true) : formOf ((joined (as.map f)).toList ++ r) = .foreign ↔ as = [] := by
  cases as with
  | nil => simpa [joined] using formOf_stop hstop
  | cons a as =>
    refine iff_of_false ?_ (by simp)
    cases as with
    | nil => simpa [joined] using has a (by simp) r hr
    | cons a' as =>
      simp only [List.map_cons, toList_joined_cons, List.append_assoc, List.cons_append]
      exact has a (by simp) _ (hcomma _)

private theorem isStop_comma (r : List Char) : isStop (',' :: r) = true := rfl

/-- A list of arguments is told by its text and by what comes behind it. -/
theorem args_append_inj {as bs : List Expr} (has : ∀ a ∈ as, a.Written N) (hreads : ∀ a ∈ as, a.Reads N)
    (hbs : ∀ b ∈ bs, b.Written N) (hr : isStop r = true ∧ r.head? ≠ some ',')
    (hs : isStop s = true ∧ s.head? ≠ some ',')
    (h : (joined (as.map Expr.text)).toList ++ r = (joined (bs.map Expr.text)).toList ++ s) : as = bs ∧ r = s := by
  have hempty : ∀ {es : List Expr} {r : List Char}, (∀ e ∈ es, e.Written N) → isStop r = true →
      (formOf ((joined (es.map Expr.text)).toList ++ r) = .foreign ↔ es = []) := fun hes hr =>
    formOf_joined (K := (isStop · = true)) isStop_comma (fun e he _ => (hes e he).not_foreign) hr hr
  refine joined_append_inj isStop_comma hreads hbs ?_ hr hs h
  rw [← hempty has hr.1, ← hempty hbs hs.1, h]

private theorem keys_append_inj {keys keys' : List (SortKey Expr)} {opening closing : String}
    (hopening : 3 ≤ opening.toList.length) (hkeys : ∀ key ∈ keys, key.expr.Reads N)
    (hkeys' : ∀ key ∈ keys', key.expr.Written N) (hr : r.take 3 ≠ opening.toList.take 3)
    (hs : s.take 3 ≠ opening.toList.take 3) (hr' : (closing.toList ++ r).head? ≠ some ',')
    (hs' : (closing.toList ++ s).head? ≠ some ',')
    (h : (clause opening (keyTexts keys) closing).toList ++ r =
      (clause opening (keyTexts keys') closing).toList ++ s) :
    keys = keys' ∧ r = s := by
  rw [keyTexts_eq_map, keyTexts_eq_map] at h
  exact clause_append_inj hopening (fun _ => True.intro) (fun key hkey => told_keyText (hkeys key hkey)) hkeys' hr hs
    ⟨True.intro, hr'⟩ ⟨True.intro, hs'⟩ h

private theorem call_append_inj {function function' : Call Expr}
    (hreads : ∀ k ∈ (Expr.call function).operands, k.Reads N) (h : (Expr.call function).Written N)
    (h' : (Expr.call function').Written N) (hr : isStop r = true) (hs : isStop s = true)
    (heq : (Expr.call function).text.toList ++ r = (Expr.call function').text.toList ++ s) :
    Expr.call function = Expr.call function' ∧ r = s := by
  obtain ⟨name, args, order, within, filter⟩ := function
  obtain ⟨name', args', order', within', filter'⟩ := function'
  obtain ⟨hargs, horder, hwithin, hfilter⟩ := Expr.forall_mem_operands_call.1 hreads
  obtain ⟨hargs', horder', hwithin', hfilter'⟩ := Expr.forall_mem_operands_call.1 h'.operands
  have hname : ∀ name ∈ functionNames ++ aggregateNames, ∀ c ∈ name.toList, isWordChar c = true := by decide
  have hclose : ∀ {order : List (SortKey Expr)} {x : List Char},
      isStop ((clause " ORDER BY " (keyTexts order) "").toList ++ (")".toList ++ x)) = true ∧
        ((clause " ORDER BY " (keyTexts order) "").toList ++ (")".toList ++ x)).head? ≠ some ',' := by
    intro order x
    exact clause_append (K := fun x => isStop x = true ∧ x.head? ≠ some ',') (fun x => ⟨rfl, by simp⟩)
      ⟨rfl, by simp⟩ _ _
  have hfiltered : ∀ {filter : Option Expr} {x : List Char}, isStop x = true →
      ((optionText " FILTER (WHERE " filter ")").toList ++ x).take 3 ≠ [' ', 'W', 'I'] := by
    intro filter x hx
    exact optionText_append (K := fun x => x.take 3 ≠ [' ', 'W', 'I']) (fun x => by simp) (take_of_isStop hx).1 _ _
  -- the parts of the call are compared from the front
  simp only [Expr.text, callText, exprTexts_eq_map, String.toList_append, List.append_assoc] at heq
  obtain ⟨hnames, hlists⟩ :=
    class_append_inj (hname name h.worded) (hname name' h'.worded) (by simp; rfl) (by simp; rfl) heq
  obtain ⟨rfl, horders⟩ := args_append_inj (Expr.forall_mem_operands_call.1 h.operands).1 hargs hargs' hclose hclose
    (List.append_cancel_left hlists)
  obtain ⟨rfl, hwithins⟩ := keys_append_inj (by decide) horder horder' (by simp) (by simp) (by simp) (by simp) horders
  obtain ⟨rfl, hfilters⟩ := keys_append_inj (by decide) hwithin hwithin' (hfiltered hr) (hfiltered hs) (by simp)
    (by simp) (List.append_cancel_left hwithins)
  obtain ⟨rfl, hrs⟩ := optionText_append_inj (by decide) hfilter hfilter' (take_of_isStop hr).2 (take_of_isStop hs).2
    rfl rfl hfilters
  exact ⟨by rw [String.toList_inj.1 hnames], hrs⟩

private theorem branches_append_inj {bs bs' : List (Branch Expr)}
    (hreads : ∀ b ∈ bs, b.condition.Reads N ∧ b.result.Reads N)
    (h' : ∀ b ∈ bs', b.condition.Written N ∧ b.result.Written N) (hr : isStop r = true ∧ r.take 3 ≠ [' ', 'W', 'H'])
    (hs : isStop s = true ∧ s.take 3 ≠ [' ', 'W', 'H'])
    (heq : (branchesText bs).toList ++ r = (branchesText bs').toList ++ s) : bs = bs' ∧ r = s := by
  have hstop : ∀ (bs : List (Branch Expr)) {r : List Char},
      isStop r = true → isStop ((branchesText bs).toList ++ r) = true :=
    fun bs r hr => branchesText_append (K := (isStop · = true)) (fun _ => rfl) hr bs
  induction bs generalizing bs' with
  | nil =>
    cases bs' with
    | nil => exact ⟨rfl, heq⟩
    | cons b bs' =>
      obtain rfl : r = _ := heq
      simp [branchesText] at hr
  | cons b bs ih =>
    cases bs' with
    | nil =>
      obtain rfl : _ = s := heq
      simp [branchesText] at hs
    | cons b' bs' =>
      obtain ⟨condition, result⟩ := b
      obtain ⟨condition', result'⟩ := b'
      obtain ⟨hb, hbs⟩ := List.forall_mem_cons.1 hreads
      obtain ⟨hb', hbs'⟩ := List.forall_mem_cons.1 h'
      simp only [branchesText, String.toList_append, List.append_assoc] at heq
      obtain ⟨rfl, hresults⟩ := hb.1 condition' hb'.1 _ _ rfl rfl (List.append_cancel_left heq)
      obtain ⟨rfl, hrest⟩ := hb.2 result' hb'.2 _ _ (hstop bs hr.1) (hstop bs' hs.1)
        (List.append_cancel_left hresults)
      obtain ⟨rfl, hrs⟩ := ih hbs hbs' hrest
      exact ⟨rfl, hrs⟩

/-- The operand of a `CASE` is told apart from the word that comes if there is none. -/
private theorem operand_append_inj {o o' : Option Expr} (hreads : ∀ k ∈ o, k.Written N ∧ k.Reads N)
    (h' : ∀ k ∈ o', k.Written N) (hr : isStop r = true ∧ formOf r.tail = .foreign)
    (hs : isStop s = true ∧ formOf s.tail = .foreign)
    (heq : (optionText " " o "").toList ++ r = (optionText " " o' "").toList ++ s) : o = o' ∧ r = s := by
  have hsome : ∀ (k : Expr) (x : List Char),
      (optionText " " (some k) "").toList ++ x = ' ' :: (k.text.toList ++ x) := by
    intro k x
    simp [optionText]
  cases o with
  | none =>
    cases o' with
    | none => exact ⟨rfl, heq⟩
    | some k' =>
      rw [hsome] at heq
      obtain rfl : r = _ := heq
      exact absurd hr.2 ((h' k' rfl).not_foreign hs.1)
  | some k =>
    obtain ⟨hk, hkreads⟩ := hreads k rfl
    cases o' with
    | none =>
      rw [hsome] at heq
      obtain rfl : _ = s := heq
      exact absurd hs.2 (hk.not_foreign hr.1)
    | some k' =>
      rw [hsome, hsome] at heq
      obtain ⟨rfl, hrs⟩ := hkreads k' (h' k' rfl) r s hr.1 hs.1 (List.cons.inj heq).2
      exact ⟨rfl, hrs⟩

private theorem case_append_inj {operand operand' default default' : Option Expr} {bs bs' : List (Branch Expr)}
    (hreads : ∀ k ∈ (Expr.case operand bs default).operands, k.Reads N) (h : (Expr.case operand bs default).Written N)
    (h' : (Expr.case operand' bs' default').Written N) (hr : isStop r = true) (hs : isStop s = true)
    (heq : (Expr.case operand bs default).text.toList ++ r = (Expr.case operand' bs' default').text.toList ++ s) :
    Expr.case operand bs default = Expr.case operand' bs' default' ∧ r = s := by
  obtain ⟨hoperand, hbs, hdefault⟩ := Expr.forall_mem_operands_case.1 hreads
  obtain ⟨hoperand', hbs', hdefault'⟩ := Expr.forall_mem_operands_case.1 h'.operands
  have hrest : ∀ (bs : List (Branch Expr)) (default : Option Expr) {r : List Char}, isStop r = true →
      isStop ((branchesText bs).toList ++ ((optionText " ELSE " default "").toList ++ (" END".toList ++ r))) = true ∧
        formOf ((branchesText bs).toList ++ ((optionText " ELSE " default "").toList ++ (" END".toList ++ r))).tail =
          .foreign := by
    intro bs default r hr
    refine caseRest_append (K := fun x => isStop x = true ∧ formOf x.tail = .foreign) (fun x => ⟨rfl, ?_⟩)
      (fun x => ⟨rfl, ?_⟩) ⟨rfl, ?_⟩ bs default
    · exact formOf_foreign (w := "WHEN") (r := ' ' :: x) (by decide) (by simp; rfl)
    · exact formOf_foreign (w := "ELSE") (r := ' ' :: x) (by decide) (by simp; rfl)
    · exact formOf_foreign (w := "END") (r := r) (by decide) (isWordChar_of_isStop hr)
  have hdefaults : ∀ (default : Option Expr) (r : List Char),
      isStop ((optionText " ELSE " default "").toList ++ (" END".toList ++ r)) = true ∧
        ((optionText " ELSE " default "").toList ++ (" END".toList ++ r)).take 3 ≠ [' ', 'W', 'H'] := by
    intro default r
    exact optionText_append (K := fun x => isStop x = true ∧ x.take 3 ≠ [' ', 'W', 'H']) (fun x => ⟨rfl, by simp⟩)
      ⟨rfl, by simp⟩ default ""
  simp only [Expr.text, String.toList_append, List.append_assoc] at heq
  obtain ⟨rfl, hbranches⟩ := operand_append_inj
    (fun k hk => ⟨(Expr.forall_mem_operands_case.1 h.operands).1 k hk, hoperand k hk⟩) hoperand' (hrest bs default hr)
    (hrest bs' default' hs) (List.append_cancel_left heq)
  obtain ⟨rfl, helse⟩ := branches_append_inj hbs hbs' (hdefaults default r) (hdefaults default' s) hbranches
  obtain ⟨rfl, hends⟩ := optionText_append_inj (by decide) hdefault hdefault' (by simp) (by simp) rfl rfl helse
  exact ⟨rfl, List.append_cancel_left hends⟩

/-! ### Brackets -/

/-- An operator is no `IS`. -/
private theorem operator_append_ne {op : String} (hop : ∃ operator : BinaryOp, op = operator.symbol)
    (x y : List Char) : " ".toList ++ (op.toList ++ (" ".toList ++ x)) ≠ " IS ".toList ++ y := by
  obtain ⟨operator, rfl⟩ := hop
  cases operator <;> simp [BinaryOp.symbol]

private theorem opens_append_inj {e e' k k' : Expr} {rest rest' : String} (hreads : ∀ k ∈ e.operands, k.Reads N)
    (h : e.Written N) (h' : e'.Written N) (hopens : e.Opens k rest) (hopens' : e'.Opens k' rest')
    (heq : e.text.toList ++ r = e'.text.toList ++ s) : e = e' ∧ r = s := by
  rw [hopens.toList_text, hopens'.toList_text] at heq
  -- the first operands are the same, and what comes behind them tells which form it is
  obtain ⟨rfl, hrest⟩ := hreads k hopens.mem_operands k' (h'.operands k' hopens'.mem_operands) _ _ (hopens.isStop h r)
    (hopens'.isStop h' s) (List.cons.inj heq).2
  have his : ∀ (negated : Bool) (x : List Char), ∃ y,
      (if negated then " IS NOT NULL)" else " IS NULL)").toList ++ x = " IS ".toList ++ y := by
    intro negated x
    cases negated
    · exact ⟨"NULL)".toList ++ x, rfl⟩
    · exact ⟨"NOT NULL)".toList ++ x, rfl⟩
  cases hopens with
  | binary _ op right =>
    simp only [String.toList_append, List.append_assoc] at hrest
    cases hopens' with
    | binary _ op' right' =>
      simp only [String.toList_append, List.append_assoc] at hrest
      have hchars : ∀ {op : String}, (∃ operator : BinaryOp, op = operator.symbol) →
          ∀ c ∈ op.toList, (c != ' ') = true := by
        rintro op ⟨operator, rfl⟩
        cases operator <;> decide
      obtain ⟨hop, hright⟩ := class_append_inj (hchars h.worded) (hchars h'.worded) (by simp) (by simp)
        (List.append_cancel_left hrest)
      obtain ⟨rfl, hrs⟩ := hreads right (by simp [Expr.operands]) right'
        (h'.operands right' (by simp [Expr.operands])) _ _ rfl rfl (List.append_cancel_left hright)
      exact ⟨by rw [String.toList_inj.1 hop], List.append_cancel_left hrs⟩
    | isNull _ negated' =>
      obtain ⟨y, hy⟩ := his negated' s
      exact absurd (hrest.trans hy) (operator_append_ne h.worded _ y)
    | subscript _ index' => simp at hrest
  | isNull _ negated =>
    obtain ⟨x, hx⟩ := his negated r
    cases hopens' with
    | binary _ op' right' =>
      simp only [String.toList_append, List.append_assoc] at hrest
      exact absurd (hrest.symm.trans hx) (operator_append_ne h'.worded _ x)
    | isNull _ negated' =>
      cases negated <;> cases negated' <;> simp at hrest ⊢
      · exact hrest
      · exact hrest
    | subscript _ index' =>
      rw [hx] at hrest
      simp at hrest
  | subscript _ index =>
    cases hopens' with
    | binary _ op' right' => simp at hrest
    | isNull _ negated' =>
      obtain ⟨y, hy⟩ := his negated' s
      rw [hy] at hrest
      simp at hrest
    | subscript _ index' =>
      obtain ⟨-, rfl⟩ := h.worded
      obtain ⟨-, rfl⟩ := h'.worded
      exact ⟨rfl, List.append_cancel_left hrest⟩

private theorem bracket_append_inj {e e' : Expr} (hreads : ∀ k ∈ e.operands, k.Reads N)
    (hquery : ∀ q, e = .subquery q → q.Reads N) (h : e.Written N) (h' : e'.Written N) (he : e.isBracketed = true)
    (he' : e'.isBracketed = true) (heq : e.text.toList ++ r = e'.text.toList ++ s) : e = e' ∧ r = s := by
  have hshows := openingOf_text h he r
  have hshows' := openingOf_text h' he' s
  rw [heq] at hshows
  generalize openingOf (e'.text.toList ++ s).tail = opening at hshows hshows'
  cases opening with
  | operand =>
    obtain ⟨k, rest, hopens⟩ := hshows
    obtain ⟨k', rest', hopens'⟩ := hshows'
    exact opens_append_inj hreads h h' hopens hopens' heq
  | not =>
    obtain ⟨k, rfl⟩ := hshows
    obtain ⟨k', rfl⟩ := hshows'
    simp only [Expr.text, String.toList_append, List.append_assoc] at heq
    obtain ⟨rfl, hrs⟩ := hreads k (by simp [Expr.operands]) k' (h'.operands k' (by simp [Expr.operands])) _ _ rfl rfl
      (List.append_cancel_left heq)
    exact ⟨rfl, List.append_cancel_left hrs⟩
  | negate =>
    obtain ⟨k, rfl⟩ := hshows
    obtain ⟨k', rfl⟩ := hshows'
    simp only [Expr.text, String.toList_append, List.append_assoc] at heq
    obtain ⟨rfl, hrs⟩ := hreads k (by simp [Expr.operands]) k' (h'.operands k' (by simp [Expr.operands])) _ _ rfl rfl
      (List.append_cancel_left heq)
    exact ⟨rfl, List.append_cancel_left hrs⟩
  | query =>
    obtain ⟨q, rfl⟩ := hshows
    obtain ⟨q', rfl⟩ := hshows'
    simp only [Expr.text, String.toList_append, List.append_assoc] at heq
    obtain ⟨rfl, hrs⟩ := hquery q rfl q' h'.query _ _ rfl rfl (List.append_cancel_left heq)
    exact ⟨rfl, List.append_cancel_left hrs⟩

/-- The text of an expression tells it apart if the texts of its parts do. -/
theorem told_expr {e : Expr} (h : e.Written N) (hreads : ∀ k ∈ e.operands, k.Reads N)
    (hquery : ∀ q, e = .subquery q → q.Reads N) : e.Reads N := by
  intro e' h' r s hr hs heq
  have hshows := formOf_text h hr
  have hshows' := formOf_text h' hs
  rw [heq] at hshows
  -- both expressions are of the form that is seen at the start of the text
  generalize formOf (e'.text.toList ++ s) = form at hshows hshows'
  cases form with
  | star =>
    obtain rfl : e = .star := hshows
    obtain rfl : e' = .star := hshows'
    exact ⟨rfl, List.append_cancel_left heq⟩
  | column =>
    obtain ⟨name, rfl⟩ := hshows
    obtain ⟨name', rfl⟩ := hshows'
    obtain ⟨rfl, hrs⟩ := quoted_append_inj (head?_ne_of_isStop hr (by decide)) (head?_ne_of_isStop hs (by decide)) heq
    exact ⟨rfl, hrs⟩
  | keyword =>
    obtain ⟨text, rfl⟩ := hshows
    obtain ⟨text', rfl⟩ := hshows'
    have hword : ∀ text ∈ ["CURRENT_DATE", "CURRENT_TIMESTAMP"], ∀ c ∈ text.toList, isWordChar c = true := by decide
    obtain ⟨htext, hrs⟩ := class_append_inj (hword text h.worded) (hword text' h'.worded) (isWordChar_of_isStop hr)
      (isWordChar_of_isStop hs) heq
    exact ⟨by rw [String.toList_inj.1 htext], hrs⟩
  | number | negative | string | word | array =>
    obtain ⟨text, rfl, hspells⟩ := hshows
    obtain ⟨text', rfl, hspells'⟩ := hshows'
    obtain ⟨rfl, hrs⟩ := spells_append_inj hspells hspells' hr hs heq
    exact ⟨rfl, hrs⟩
  | cast =>
    obtain ⟨k, target, rfl⟩ := hshows
    obtain ⟨k', target', rfl⟩ := hshows'
    exact cast_append_inj (hreads k (by simp [Expr.operands])) h h' heq
  | call =>
    obtain ⟨function, rfl⟩ := hshows
    obtain ⟨function', rfl⟩ := hshows'
    exact call_append_inj hreads h h' hr hs heq
  | case =>
    obtain ⟨operand, branches, default, rfl⟩ := hshows
    obtain ⟨operand', branches', default', rfl⟩ := hshows'
    exact case_append_inj hreads h h' hr hs heq
  | interval =>
    obtain ⟨k, unit, rfl⟩ := hshows
    obtain ⟨k', unit', rfl⟩ := hshows'
    exact interval_append_inj (hreads k (by simp [Expr.operands])) h h' hr hs heq
  | bracket => exact bracket_append_inj hreads hquery h h' hshows hshows' heq
  | foreign => exact hshows.elim

/-! ### Statements -/

/-- An item is put out under its own name, or with a name behind it. -/
private theorem itemText_cases (item : Item Expr) :
    (itemText item = item.expr.text ∧ ∀ label ∈ item.label, item.expr = .column label) ∨
      ∃ label, item.label = some label ∧ itemText item = item.expr.text ++ " AS " ++ quoteIdent label := by
  obtain ⟨expr, label⟩ := item
  cases label with
  | none => exact .inl ⟨rfl, by simp⟩
  | some label =>
    by_cases hcolumn : expr = .column label
    · subst hcolumn
      exact .inl ⟨if_pos rfl, by simp⟩
    · refine .inr ⟨label, rfl, ?_⟩
      cases expr with
      | column name => exact if_neg fun hname => hcolumn (by rw [hname])
      | _ => rfl

/-- An item that is read back: a column has a name behind it or keeps its own. -/
def Item.Written (N : Expr → Prop) (item : Item Expr) : Prop :=
  item.expr.Written N ∧ (item.label = none → ∀ name, item.expr ≠ .column name)

private theorem told_itemText {item : Item Expr} (h : item.Written N) (hreads : item.expr.Reads N) :
    Told itemText (Item.Written N) (fun r => isStop r = true ∧ r.take 3 ≠ [' ', 'A', 'S']) item := by
  intro item' h' r s hr hs heq
  obtain ⟨expr, label⟩ := item
  obtain ⟨expr', label'⟩ := item'
  rcases itemText_cases ⟨expr, label⟩ with ⟨htext, hlabel⟩ | ⟨name, hname, htext⟩ <;>
    rcases itemText_cases ⟨expr', label'⟩ with ⟨htext', hlabel'⟩ | ⟨name', hname', htext'⟩ <;>
    rw [htext, htext'] at heq <;>
    simp only [String.toList_append, List.append_assoc] at heq
  · obtain ⟨rfl, hrs⟩ := hreads expr' h'.1 r s hr.1 hs.1 heq
    refine ⟨?_, hrs⟩
    cases label with
    | none =>
      cases label' with
      | none => rfl
      | some name' => exact absurd (hlabel' name' rfl) (h.2 rfl name')
    | some name =>
      cases label' with
      | none => exact absurd (hlabel name rfl) (h'.2 rfl name)
      | some name' =>
        obtain rfl := Expr.column.inj ((hlabel name rfl).symm.trans (hlabel' name' rfl))
        rfl
  -- only one of the two is written with a label, which then stands where none may
  · obtain ⟨rfl, hrest⟩ := hreads expr' h'.1 r _ hr.1 rfl heq
    rw [hrest] at hr
    exact absurd rfl hr.2
  · obtain ⟨rfl, hrest⟩ := hreads expr' h'.1 _ s rfl hs.1 heq
    rw [← hrest] at hs
    exact absurd rfl hs.2
  · obtain rfl : label = some name := hname
    obtain rfl : label' = some name' := hname'
    obtain ⟨rfl, hrest⟩ := hreads expr' h'.1 _ _ rfl rfl heq
    obtain ⟨rfl, hrs⟩ := quoted_append_inj (head?_ne_of_isStop hr.1 (by decide)) (head?_ne_of_isStop hs.1 (by decide))
      (List.append_cancel_left hrest)
    exact ⟨rfl, hrs⟩

private theorem formOf_itemText {item : Item Expr} (h : item.expr.Written N) (hr : isStop r = true) :
    formOf ((itemText item).toList ++ r) ≠ .foreign := by
  rcases itemText_cases item with ⟨htext, -⟩ | ⟨label, -, htext⟩
  · rw [htext]
    exact h.not_foreign hr
  · rw [htext]
    simp only [String.toList_append, List.append_assoc]
    exact h.not_foreign rfl

private theorem items_append_inj {items items' : List (Item Expr)} (h : ∀ item ∈ items, item.Written N)
    (hreads : ∀ item ∈ items, item.expr.Reads N) (h' : ∀ item ∈ items', item.Written N)
    (heq : (joined (itemTexts items)).toList ++ (" FROM ".toList ++ r) =
      (joined (itemTexts items')).toList ++ (" FROM ".toList ++ s)) : items = items' ∧ r = s := by
  have hfrom : ∀ r, isStop (" FROM ".toList ++ r) = true ∧ (" FROM ".toList ++ r).take 3 ≠ [' ', 'A', 'S'] :=
    fun r => ⟨rfl, by simp⟩
  have hcomma : ∀ r, isStop (',' :: r) = true ∧ (',' :: r).take 3 ≠ [' ', 'A', 'S'] := fun r => ⟨rfl, by simp⟩
  have hempty : ∀ {items : List (Item Expr)} {r : List Char}, (∀ item ∈ items, item.Written N) →
      (formOf ((joined (items.map itemText)).toList ++ (" FROM ".toList ++ r)) = .foreign ↔ items = []) := fun h =>
    formOf_joined (K := (isStop · = true)) isStop_comma (fun item hitem _ => formOf_itemText (h item hitem).1) rfl rfl
  rw [itemTexts_eq_map, itemTexts_eq_map] at heq
  have hiff : items = [] ↔ items' = [] := by rw [← hempty h, ← hempty h', heq]
  obtain ⟨rfl, hrest⟩ := joined_append_inj hcomma
    (fun item hitem => told_itemText (h item hitem) (hreads item hitem)) h'
    hiff ⟨hfrom r, by simp⟩ ⟨hfrom s, by simp⟩ heq
  exact ⟨rfl, List.append_cancel_left hrest⟩

private theorem source_append_inj {t t' : Select} (h : t.Written N) (h' : t'.Written N)
    (hreads : ∀ q label, t.source = .subquery q label → q.Reads N) (hr : isStop r = true) (hs : isStop s = true)
    (heq : t.source.text.toList ++ r = t'.source.text.toList ++ s) : t.source = t'.source ∧ r = s := by
  obtain ⟨hworded, -, -⟩ := Select.throughout_iff.1 h
  obtain ⟨hworded', -, hqueries'⟩ := Select.throughout_iff.1 h'
  cases hsource : t.source with
  | table name =>
    cases hsource' : t'.source with
    | table name' =>
      rw [hsource, hsource'] at heq
      obtain ⟨rfl, hrs⟩ := quoted_append_inj (head?_ne_of_isStop hr (by decide))
        (head?_ne_of_isStop hs (by decide)) heq
      exact ⟨rfl, hrs⟩
    | subquery q' label' =>
      rw [hsource, hsource', Source.text, Source.text, quoteIdent, toList_quoted] at heq
      simp at heq
  | subquery q label =>
    cases hsource' : t'.source with
    | table name' =>
      rw [hsource, hsource', Source.text, Source.text, quoteIdent, toList_quoted] at heq
      simp at heq
    | subquery q' label' =>
      obtain rfl := hworded.label q label hsource
      obtain rfl := hworded'.label q' label' hsource'
      rw [hsource, hsource', Source.text, Source.text] at heq
      simp only [String.toList_append, List.append_assoc] at heq
      obtain ⟨rfl, hrest⟩ := hreads q _ hsource q' (hqueries' q' _ hsource') _ _ rfl rfl (List.append_cancel_left heq)
      simp only [List.append_cancel_left_eq] at hrest
      exact ⟨rfl, hrest⟩

/-! The clauses behind the source of a statement come in one order, so that each is told apart from what follows it.
-/

private theorem follows_offset (offset : Option UInt64) (hr : isEnd r = true) :
    Follows [[' ', 'O', 'F']] ((numberClause " OFFSET " offset).toList ++ r) :=
  numberClause_append (K := Follows _) (fun x => .inr (by simp)) (.inl hr) offset

private theorem follows_limit (limit : Option UInt64) (hr : Follows [[' ', 'O', 'F']] r) :
    Follows [[' ', 'L', 'I'], [' ', 'O', 'F']] ((numberClause " LIMIT " limit).toList ++ r) :=
  numberClause_append (K := Follows _) (fun x => .inr (by simp)) (hr.mono _) limit

private theorem follows_order (order : List (SortKey Expr)) (hr : Follows [[' ', 'L', 'I'], [' ', 'O', 'F']] r) :
    Follows [[' ', 'O', 'R'], [' ', 'L', 'I'], [' ', 'O', 'F']]
      ((clause " ORDER BY " (keyTexts order) "").toList ++ r) :=
  clause_append (K := Follows _) (fun x => .inr (by simp)) (hr.mono _) _ _

private theorem follows_groups (groups : List Expr)
    (hr : Follows [[' ', 'O', 'R'], [' ', 'L', 'I'], [' ', 'O', 'F']] r) :
    Follows [[' ', 'G', 'R'], [' ', 'O', 'R'], [' ', 'L', 'I'], [' ', 'O', 'F']]
      ((clause " GROUP BY " (exprTexts groups) "").toList ++ r) :=
  clause_append (K := Follows _) (fun x => .inr (by simp)) (hr.mono _) _ _

private theorem limits_append_inj {limit limit' offset offset' : Option UInt64} (hr : isEnd r = true)
    (hs : isEnd s = true)
    (heq : (numberClause " LIMIT " limit).toList ++ ((numberClause " OFFSET " offset).toList ++ r) =
      (numberClause " LIMIT " limit').toList ++ ((numberClause " OFFSET " offset').toList ++ s)) :
    limit = limit' ∧ offset = offset' ∧ r = s := by
  have hdigit : ∀ {r : List Char}, isStop r = true → ∀ c ∈ r.head?, c.isDigit = false := fun hr =>
    class_of_isStop hr (by decide)
  have hoffset := follows_offset offset hr
  have hoffset' := follows_offset offset' hs
  have hend : ∀ {r : List Char}, isEnd r = true → Follows [] r := .inl
  obtain ⟨rfl, hoffsets⟩ := numberClause_append_inj (by decide) (hoffset.take_ne rfl (by decide))
    (hoffset'.take_ne rfl (by decide)) (hdigit (hoffset.isStop (by decide)))
    (hdigit (hoffset'.isStop (by decide))) heq
  obtain ⟨rfl, hrs⟩ := numberClause_append_inj (by decide) ((hend hr).take_ne rfl (by decide))
    ((hend hs).take_ne rfl (by decide)) (hdigit (isStop_of_isEnd hr)) (hdigit (isStop_of_isEnd hs)) hoffsets
  exact ⟨rfl, rfl, hrs⟩

private theorem groups_append_inj {groups groups' : List Expr} (hreads : ∀ e ∈ groups, e.Reads N)
    (h' : ∀ e ∈ groups', e.Written N) (hr : Follows [[' ', 'O', 'R'], [' ', 'L', 'I'], [' ', 'O', 'F']] r)
    (hs : Follows [[' ', 'O', 'R'], [' ', 'L', 'I'], [' ', 'O', 'F']] s)
    (heq : (clause " GROUP BY " (exprTexts groups) "").toList ++ r =
      (clause " GROUP BY " (exprTexts groups') "").toList ++ s) : groups = groups' ∧ r = s := by
  rw [exprTexts_eq_map, exprTexts_eq_map] at heq
  refine clause_append_inj (by decide) isStop_comma hreads h' (hr.take_ne rfl (by decide))
    (hs.take_ne rfl (by decide)) ?_ ?_ heq
  · exact ⟨hr.isStop (by decide), hr.head?_ne_comma (by decide)⟩
  · exact ⟨hs.isStop (by decide), hs.head?_ne_comma (by decide)⟩

private theorem order_append_inj {order order' : List (SortKey Expr)} (hreads : ∀ key ∈ order, key.expr.Reads N)
    (h' : ∀ key ∈ order', key.expr.Written N) (hr : Follows [[' ', 'L', 'I'], [' ', 'O', 'F']] r)
    (hs : Follows [[' ', 'L', 'I'], [' ', 'O', 'F']] s)
    (heq : (clause " ORDER BY " (keyTexts order) "").toList ++ r =
      (clause " ORDER BY " (keyTexts order') "").toList ++ s) : order = order' ∧ r = s := by
  refine keys_append_inj (by decide) hreads h' (hr.take_ne rfl (by decide)) (hs.take_ne rfl (by decide)) ?_ ?_ heq
  · exact hr.head?_ne_comma (by decide)
  · exact hs.head?_ne_comma (by decide)

private theorem selection_append_inj {selection selection' : Option Expr} (hreads : ∀ e ∈ selection, e.Reads N)
    (h' : ∀ e ∈ selection', e.Written N)
    (hr : Follows [[' ', 'G', 'R'], [' ', 'O', 'R'], [' ', 'L', 'I'], [' ', 'O', 'F']] r)
    (hs : Follows [[' ', 'G', 'R'], [' ', 'O', 'R'], [' ', 'L', 'I'], [' ', 'O', 'F']] s)
    (heq : (optionText " WHERE " selection "").toList ++ r = (optionText " WHERE " selection' "").toList ++ s) :
    selection = selection' ∧ r = s := by
  refine optionText_append_inj (by decide) hreads h' (hr.take_ne rfl (by decide)) (hs.take_ne rfl (by decide))
    ?_ ?_ heq
  · exact hr.isStop (by decide)
  · exact hs.isStop (by decide)

/-- The text of a statement tells it apart if the texts of its parts do. -/
theorem told_select {t : Select} (h : t.Written N) (hreads : ∀ e ∈ t.exprs, e.Reads N)
    (hqueries : ∀ q label, t.source = .subquery q label → q.Reads N) : t.Reads N := by
  intro t' h' r s hr hs heq
  obtain ⟨hworded, hwritten, -⟩ := Select.throughout_iff.1 h
  obtain ⟨hworded', hwritten', -⟩ := Select.throughout_iff.1 h'
  obtain ⟨hitems, hselection, hgroups, horder⟩ := Select.forall_mem_exprs.1 hreads
  obtain ⟨hitems', hselection', hgroups', horder'⟩ := Select.forall_mem_exprs.1 hwritten'
  have hitem : ∀ item ∈ t.projection, item.Written N := fun item hitem =>
    ⟨(Select.forall_mem_exprs.1 hwritten).1 item hitem, hworded.unlabelled item hitem⟩
  have hitem' : ∀ item ∈ t'.projection, item.Written N := fun item hitem =>
    ⟨hitems' item hitem, hworded'.unlabelled item hitem⟩
  have hsource : ∀ {r s : List Char}, isStop r = true → isStop s = true →
      t.source.text.toList ++ r = t'.source.text.toList ++ s → t.source = t'.source ∧ r = s :=
    source_append_inj h h' hqueries
  obtain ⟨projection, source, selection, groups, order, limit, offset⟩ := t
  obtain ⟨projection', source', selection', groups', order', limit', offset'⟩ := t'
  -- each clause is followed by one of those that come after it, so they are told apart from the front
  have hlimits := follows_limit limit (follows_offset offset hr)
  have hlimits' := follows_limit limit' (follows_offset offset' hs)
  have horders := follows_order order hlimits
  have horders' := follows_order order' hlimits'
  have hgroupings := follows_groups groups horders
  have hgroupings' := follows_groups groups' horders'
  have hstop : ∀ {selection : Option Expr} {r : List Char}, isStop r = true →
      isStop ((optionText " WHERE " selection "").toList ++ r) = true := fun hr =>
    optionText_append (K := (isStop · = true)) (fun _ => rfl) hr _ _
  simp only [Select.text_mk, String.toList_append, List.append_assoc] at heq
  obtain ⟨hprojections, hfrom⟩ := items_append_inj hitem hitems hitem' (List.append_cancel_left heq)
  obtain ⟨hsources, hwhere⟩ := hsource (hstop (hgroupings.isStop (by decide)))
    (hstop (hgroupings'.isStop (by decide))) hfrom
  obtain ⟨hselections, hgroup⟩ := selection_append_inj hselection hselection' hgroupings hgroupings' hwhere
  obtain ⟨hgroupsEq, hordered⟩ := groups_append_inj hgroups hgroups' horders horders' hgroup
  obtain ⟨horderEq, hlimited⟩ := order_append_inj horder horder' hlimits hlimits' hordered
  obtain ⟨rfl, rfl, hrs⟩ := limits_append_inj hr hs hlimited
  simp only at hprojections hsources hselections hgroupsEq horderEq
  exact ⟨by rw [hprojections, hsources, hselections, hgroupsEq, horderEq], hrs⟩

/-- Every expression and every statement is told by its text and by what comes behind it. -/
theorem told_text : (∀ e : Expr, e.Written N → e.Reads N) ∧ ∀ s : Select, s.Written N → s.Reads N :=
  written_induction (fun _ => told_expr) fun _ => told_select

private theorem Fragment.text_injective {f g : Fragment} (hf : f.Written N) (hg : g.Written N) (h : f.text = g.text) :
    f = g := by
  have hselect : ∀ {e : Expr} {q : Select}, e.Written N → e.text ≠ q.text := by
    intro e q he heq
    obtain ⟨projection, source, selection, groups, order, limit, offset⟩ := q
    refine he.not_foreign (r := []) rfl ?_
    simp only [heq, Select.text_mk, String.toList_append, List.append_assoc]
    exact formOf_foreign (w := "SELECT") (r := ' ' :: _) (by decide) (by simp; rfl)
  have hlist : f.text.toList ++ [] = g.text.toList ++ [] := by rw [h]
  cases f with
  | expr e =>
    cases g with
    | expr d =>
      obtain ⟨rfl, -⟩ := told_text.1 e hf d hg [] [] rfl rfl hlist
      rfl
    | query q => exact absurd h (hselect hf)
  | query q =>
    cases g with
    | expr d => exact absurd h.symm (hselect hg)
    | query p =>
      obtain ⟨rfl, -⟩ := told_text.2 q hf p hg [] [] rfl rfl hlist
      rfl

end

end Sql

namespace Compiler

variable {c d : Compiler}

/-- Two compiled queries with the same text are the same, even if two dialects have compiled them. -/
theorem text_injective_of_compile (hc : c ∈ builtins) (hd : d ∈ builtins) {n m : Node} {f g : Fragment}
    (hf : c.compile n = .ok f) (hg : d.compile m = .ok g) (h : f.text = g.text) : f = g := by
  have hwritten : f.Written fun _ => True :=
    compile_written (c.wordedUnits_of_mem_builtins hc) (c.negates_true n) f hf
  have hwritten' : g.Written fun _ => True :=
    compile_written (d.wordedUnits_of_mem_builtins hd) (d.negates_true m) g hg
  exact Fragment.text_injective hwritten hwritten' h

/-- The number five with its sign changed, as an integer of some width. -/
def negatedFive (width : Width) : Node :=
  ⟨.unary .negate ⟨.literal (.int 5) (.int width), .int width, .scalar⟩, .int width, .scalar⟩

private theorem negatedFive_valid (width : Width) : (negatedFive width).Valid := by
  have hfive : Node.Valid ⟨.literal (.int 5) (.int width), .int width, .scalar⟩ :=
    ⟨by simp [Node.children, Op.children], by cases width <;> rfl⟩
  exact ⟨by simpa [negatedFive, Node.children, Op.children] using hfive, by cases width <;> rfl⟩

/-- Integers of two widths are compiled to the same text by two dialects, and to the same tree. -/
theorem text_injective_of_compile_negatedFive :
    (negatedFive .w32).Valid ∧ (negatedFive .w64).Valid ∧ ∃ f g, base.compile (negatedFive .w32) = .ok f ∧
      duckdb.compile (negatedFive .w64) = .ok g ∧ f.text = "(-5)" ∧ g.text = "(-5)" ∧ f = g := by
  have hbase : base ∈ builtins := by simp [builtins]
  have hduckdb : duckdb ∈ builtins := by simp [builtins]
  exact ⟨negatedFive_valid _, negatedFive_valid _, _, _, rfl, rfl, by decide, by decide,
    text_injective_of_compile hbase hduckdb (n := negatedFive .w32) (m := negatedFive .w64) rfl rfl (by decide)⟩

end Compiler

end SqlPlan
