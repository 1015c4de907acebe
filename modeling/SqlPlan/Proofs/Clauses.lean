import SqlPlan.Compiler.Relation
import SqlPlan.Proofs.Rows

/-!
# What a clause does to the rows

A clause that is added to a statement acts on the rows that the statement had before, provided that the clauses that
are already there do not come in between. A statement that has another one as its source and nothing else is free for
every clause and has the same rows (`rows_wrap`), so that each lemma covers both ways to add a clause.
-/

namespace SqlPlan.Sql

/-! ### Sorting -/

namespace Interpretation

variable {V α β : Type} (I : Interpretation V)

private theorem directed_total (ascending : Bool) (a b : V) :
    I.directed ascending a b = true ∨ I.directed ascending b a = true := by
  cases ascending
  · exact I.le_total b a
  · exact I.le_total a b

private theorem directed_trans {ascending : Bool} {a b c : V} (hab : I.directed ascending a b = true)
    (hbc : I.directed ascending b c = true) : I.directed ascending a c = true := by
  cases ascending
  · exact I.le_trans _ _ _ hbc hab
  · exact I.le_trans _ _ _ hab hbc

/-- Of two elements, one may stand ahead of the other. -/
theorem precedes_total (keys : List ((α → V) × Bool)) (a b : α) :
    I.precedes keys a b = true ∨ I.precedes keys b a = true := by
  induction keys with
  | nil => exact Or.inl rfl
  | cons key keys ih =>
    obtain ⟨key, ascending⟩ := key
    have htotal := I.directed_total ascending (key a) (key b)
    simp only [precedes, Bool.and_eq_true, Bool.or_eq_true, Bool.not_eq_true']
    cases hab : I.directed ascending (key a) (key b) <;> cases hba : I.directed ascending (key b) (key a) <;>
      simp_all

/-- The order by keys is transitive. -/
theorem precedes_trans {keys : List ((α → V) × Bool)} {a b c : α} (hab : I.precedes keys a b = true)
    (hbc : I.precedes keys b c = true) : I.precedes keys a c = true := by
  induction keys with
  | nil => rfl
  | cons key keys ih =>
    obtain ⟨key, ascending⟩ := key
    simp only [precedes, Bool.and_eq_true, Bool.or_eq_true, Bool.not_eq_true'] at hab hbc ⊢
    obtain ⟨hab, hab'⟩ := hab
    obtain ⟨hbc, hbc'⟩ := hbc
    refine ⟨I.directed_trans hab hbc, ?_⟩
    by_cases hca : I.directed ascending (key c) (key a) = true
    · -- all three keys are equal, and the later keys decide
      have hba := I.directed_trans hbc hca
      have hcb := I.directed_trans hca hab
      rw [hba] at hab'
      rw [hcb] at hbc'
      exact Or.inr (ih (hab'.resolve_left (by simp)) (hbc'.resolve_left (by simp)))
    · exact Or.inl (by simpa using hca)

private theorem precedes_comp (keys : List ((β → V) × Bool)) (f : α → β) (a b : α) :
    I.precedes (keys.map fun key => (key.1 ∘ f, key.2)) a b = I.precedes keys (f a) (f b) := by
  induction keys with
  | nil => rfl
  | cons key keys ih => simp only [List.map_cons, precedes, ih, Function.comp_apply]

private theorem arrange_nil (l : List α) : I.arrange [] l = l :=
  List.Pairwise.insertionSort_eq (List.pairwise_of_forall fun _ _ => rfl)

/-- Sorting keeps all elements. -/
theorem arrange_perm (keys : List ((α → V) × Bool)) (l : List α) : (I.arrange keys l).Perm l :=
  List.perm_insertionSort _ l

/-- Sorting the images of a list is sorting the list by the keys of the images. -/
private theorem arrange_map (keys : List ((β → V) × Bool)) (f : α → β) (l : List α) :
    I.arrange keys (l.map f) = (I.arrange (keys.map fun key => (key.1 ∘ f, key.2)) l).map f := by
  unfold arrange
  rw [List.map_insertionSort _ fun a b => I.precedes keys a b = true]
  intro a _ b _
  rw [precedes_comp]

private theorem filter_orderedInsert {r : α → α → Prop} [DecidableRel r] [IsTrans α r] (p : α → Bool) (a : α)
    {l : List α} (h : l.Pairwise r) :
    (l.orderedInsert r a).filter p = if p a then (l.filter p).orderedInsert r a else l.filter p := by
  induction l with
  | nil => cases hp : p a <;> simp [hp]
  | cons b l ih =>
    obtain ⟨hb, hl⟩ := List.pairwise_cons.1 h
    by_cases hab : r a b
    · -- `a` stands ahead of everything that is left after filtering, too
      have hall : ∀ x ∈ (b :: l).filter p, r a x := by
        intro x hx
        rcases List.mem_cons.1 (List.mem_filter.1 hx).1 with rfl | hx
        · exact hab
        · exact IsTrans.trans a b x hab (hb x hx)
      rw [List.orderedInsert_cons_of_le r l hab, List.filter_cons]
      cases hf : (b :: l).filter p with
      | nil => simp
      | cons x xs =>
        rw [List.orderedInsert_cons_of_le r xs (hall x (by simp [hf]))]
    · rw [List.orderedInsert_of_not_le r l hab, List.filter_cons, List.filter_cons, ih hl]
      by_cases hpa : p a = true <;> by_cases hpb : p b = true <;> simp [hpa, hpb, hab]

/-- Keys that have the same values on a list sort it in the same way. -/
private theorem arrange_congr {keys keys' : List ((α → V) × Bool)} {l : List α}
    (h : List.Forall₂ (fun key key' => (∀ a ∈ l, key.1 a = key'.1 a) ∧ key.2 = key'.2) keys keys') :
    I.arrange keys l = I.arrange keys' l := by
  have hprecedes : ∀ a ∈ l, ∀ b ∈ l, I.precedes keys a b = I.precedes keys' a b := by
    intro a ha b hb
    induction h with
    | nil => rfl
    | cons hkey _ ih =>
      obtain ⟨hvalue, hdirection⟩ := hkey
      simp only [precedes, hvalue a ha, hvalue b hb, hdirection, ih]
  have hmap := List.map_insertionSort (fun a b => I.precedes keys a b = true)
    (fun a b => I.precedes keys' a b = true) id l fun a ha b hb => by rw [hprecedes a ha b hb]; rfl
  simpa [arrange] using hmap

/-- A stable sort keeps the order of the elements that pass a filter. -/
theorem arrange_filter (keys : List ((α → V) × Bool)) (p : α → Bool) (l : List α) :
    I.arrange keys (l.filter p) = (I.arrange keys l).filter p := by
  have htotal : Std.Total fun a b => I.precedes keys a b = true := ⟨I.precedes_total keys⟩
  have htrans : IsTrans α fun a b => I.precedes keys a b = true := ⟨fun _ _ _ => I.precedes_trans⟩
  unfold arrange
  induction l with
  | nil => rfl
  | cons a l ih =>
    rw [List.insertionSort_cons, filter_orderedInsert p a (List.pairwise_insertionSort _ l), ← ih, List.filter_cons]
    split
    · rw [List.insertionSort_cons]
    · rfl

end Interpretation

/-! ### Windows -/

section

variable {α β : Type}

private theorem window_none (l : List α) : window none none l = l := rfl

private theorem window_map (limit offset : Option UInt64) (f : α → β) (l : List α) :
    window limit offset (l.map f) = (window limit offset l).map f := by
  cases limit <;> simp [window]

end

/-! ### Conditions -/

section

variable {V : Type} (I : Interpretation V)

private theorem conj_eq_some_true (a b : Option Bool) : conj a b = some true ↔ a = some true ∧ b = some true := by
  rcases a with _ | _ | _ <;> rcases b with _ | _ | _ <;> simp [conj]

private theorem holds_and (a b : V) : I.holds (I.binary "AND" a b) = (I.holds a && I.holds b) := by
  rw [Bool.eq_iff_iff]
  simp [Interpretation.holds, Interpretation.binary, I.truth_ofTruth, conj_eq_some_true]

variable [DecidableEq V] (db : String → List (Row V))

/-- A conjunction is true when all of its parts are. -/
private theorem optionHolds_conjunction (exprs : List Expr) (ctx : Context V) :
    optionHolds I db (Expr.conjunction exprs) ctx = exprs.all fun e => I.holds (e.value I db ctx) := by
  have hfold : ∀ (es : List Expr) (e : Expr),
      I.holds ((es.foldl (fun left right => Expr.binary left "AND" right) e).value I db ctx) =
        (I.holds (e.value I db ctx) && es.all fun e => I.holds (e.value I db ctx)) := by
    intro es
    induction es with
    | nil => simp
    | cons e' es ih =>
      intro e
      rw [List.foldl_cons, ih, Expr.value, holds_and, List.all_cons, Bool.and_assoc]
  cases exprs with
  | nil => simp [Expr.conjunction, optionHolds]
  | cons e es => rw [Expr.conjunction, optionHolds, hfold, List.all_cons]

/-! ### Reductions -/

/-- Whether an expression is the call of an aggregate, or an element of the array that it makes. -/
def Expr.isReduction : Expr → Bool
  | .call function => aggregateNames.contains function.name
  | .subscript (.call function) _ => aggregateNames.contains function.name
  | _ => false

/-- A reduction aggregates rows. -/
theorem Expr.aggregates_of_isReduction {e : Expr} (h : e.isReduction = true) : e.aggregates = true := by
  have hcall : ∀ function : Call Expr, aggregateNames.contains function.name = true →
      callAggregates function = true := by
    rintro ⟨name, args, order, within, filter⟩ hname
    simp only [callAggregates, hname, Bool.true_or]
  unfold isReduction at h
  split at h
  · rw [aggregates, hcall _ h]
  · rw [aggregates, aggregates, hcall _ h]
  · cases h

/-- Aggregates do not depend on the order of the rows. -/
def Interpretation.Unordered (I : Interpretation V) : Prop :=
  ∀ name inputs inputs', inputs.Perm inputs' → I.aggregate name inputs = I.aggregate name inputs'

private theorem callValue_ofGroup_perm (hI : I.Unordered) {function : Call Expr}
    (hname : aggregateNames.contains function.name = true) {rows rows' : List (Row V)} (h : rows.Perm rows') :
    callValue I db function (.ofGroup rows) = callValue I db function (.ofGroup rows') := by
  obtain ⟨name, args, order, within, filter⟩ := function
  simp only [callValue, hname, if_true]
  exact hI name _ _ ((h.filter _).map _)

private theorem value_ofGroup_perm (hI : I.Unordered) {e : Expr} (he : e.isReduction = true)
    {rows rows' : List (Row V)} (h : rows.Perm rows') :
    e.value I db (.ofGroup rows) = e.value I db (.ofGroup rows') := by
  unfold Expr.isReduction at he
  split at he
  · simp only [Expr.value]
    exact callValue_ofGroup_perm I db hI he h
  · simp only [Expr.value]
    rw [callValue_ofGroup_perm I db hI he h]
  · cases he

/-! ### Parts of a statement -/

namespace Select

/-- The rows that pass `WHERE`. -/
def input (s : Select) : List (Row V) :=
  (s.source.rows I db).filter fun row => optionHolds I db s.selection (.ofRow row)

/-- The rows of a statement are those of its source, put through its clauses one after the other. -/
theorem rows_eq (s : Select) :
    s.rows I db = window s.limit s.offset ((I.arrange (orderKeys I db s.order)
      ((contexts (!s.groups.isEmpty) (itemsAggregate s.projection) (fun row => listValues I db s.groups (.ofRow row))
        (s.input I db)).map fun ctx => (ctx, itemsRow I db s.projection ctx))).map (·.2)) := by
  cases s
  rw [rows]
  rfl

/-- The keys of `ORDER BY` over input rows that are put out one by one. -/
def outputKeys (projection : List (Item Expr)) (order : List (SortKey Expr)) : List ((Row V → V) × Bool) :=
  (orderKeys I db order).map fun key =>
    (key.1 ∘ fun row => (.ofRow row, itemsRow I db projection (.ofRow row)), key.2)

/-- The keys of `ORDER BY` over rows that are put out as they are. -/
def rowKeys (order : List (SortKey Expr)) : List ((Row V → V) × Bool) := outputKeys I db [⟨.star, none⟩] order

variable {s : Select}

private theorem projection_of_isStar (h : s.isStar = true) : s.projection = [⟨.star, none⟩] := by
  unfold isStar at h
  split at h
  · assumption
  · cases h

private theorem groups_of_not_isGrouped (h : s.isGrouped = false) : s.groups = [] := by simpa [isGrouped] using h

/-- A statement without an order has no keys. -/
theorem order_of_not_isOrdered (h : s.isOrdered = false) : s.order = [] := by simpa [isOrdered] using h

theorem bounds_of_not_isLimited (h : s.isLimited = false) : s.limit = none ∧ s.offset = none := by
  simpa [isLimited] using h

private theorem itemsRow_star (row : Row V) : itemsRow I db [⟨.star, none⟩] (.ofRow row) = row := by
  simp [itemsRow, itemColumns, Context.ofRow]

/-- The rows of a statement that makes every output row of one input row. -/
private theorem rows_of_rowwise (hgroups : s.isGrouped = false) (hrowwise : itemsAggregate s.projection = false) :
    s.rows I db = window s.limit s.offset ((I.arrange (outputKeys I db s.projection s.order) (s.input I db)).map
      fun row => itemsRow I db s.projection (.ofRow row)) := by
  rw [rows_eq, groups_of_not_isGrouped hgroups, hrowwise]
  simp only [contexts, List.isEmpty_nil, Bool.not_true, Bool.false_eq_true, if_false, List.map_map]
  rw [I.arrange_map, List.map_map]
  rfl

/-- The rows of a statement that puts out its input rows. -/
private theorem rows_of_isStar (hstar : s.isStar = true) (hgroups : s.isGrouped = false) :
    s.rows I db = window s.limit s.offset (I.arrange (rowKeys I db s.order) (s.input I db)) := by
  have hprojection := projection_of_isStar hstar
  rw [rows_of_rowwise I db hgroups (by rw [hprojection]; rfl), hprojection]
  simp only [itemsRow_star, List.map_id']
  rfl

/-- A statement over all rows of another one has the same rows. -/
theorem rows_wrap (s : Select) : s.wrap.rows I db = s.rows I db := by
  have hinput : s.wrap.input I db = s.rows I db := by simp [input, wrap, star, Source.rows, optionHolds]
  rw [rows_of_isStar I db rfl rfl, hinput]
  exact I.arrange_nil _

/-- A wrapped statement has the rows of the statement inside. -/
theorem rows_wrapUnless (free : Bool) (s : Select) : (s.wrapUnless free).rows I db = s.rows I db := by
  cases free
  · exact rows_wrap I db s
  · rfl

/-! ### Grouping and projection -/

/-- What `GROUP BY` and a projection make of rows. -/
def regrouped (groups : List Expr) (projection : List (Item Expr)) (rows : List (Row V)) : List (Row V) :=
  (contexts (!groups.isEmpty) (itemsAggregate projection) (fun row => listValues I db groups (.ofRow row)) rows).map
    (itemsRow I db projection)

private theorem rows_of_plain (hlimit : s.isLimited = false) (horder : s.isOrdered = false) :
    s.rows I db = regrouped I db s.groups s.projection (s.input I db) := by
  obtain ⟨hn, hk⟩ := bounds_of_not_isLimited hlimit
  rw [rows_eq, hn, hk, window_none, order_of_not_isOrdered horder, orderKeys, I.arrange_nil, List.map_map]
  rfl

/-- Groups and a projection can be put on a plain statement as if its rows were those of a table. -/
theorem rows_regrouped (hstar : s.isStar = true) (hgroups : s.isGrouped = false) (hlimit : s.isLimited = false)
    (horder : s.isOrdered = false) (groups : List Expr) (projection : List (Item Expr)) :
    ({ s with groups, projection } : Select).rows I db = regrouped I db groups projection (s.rows I db) := by
  obtain ⟨hn, hk⟩ := bounds_of_not_isLimited hlimit
  have hrows : s.rows I db = s.input I db := by
    rw [rows_of_isStar I db hstar hgroups, hn, hk, window_none, order_of_not_isOrdered horder]
    exact I.arrange_nil _
  rw [hrows, rows_of_plain I db (by simp [isLimited, hn, hk]) (by simpa [isOrdered] using horder)]
  rfl

/-- A projection gives the name of a sort key to no other value than the column of that name. -/
def KeepsKeys (projection : List (Item Expr)) (order : List (SortKey Expr)) : Prop :=
  ∀ key ∈ order, ∀ name, key.expr = .column name →
    ∀ item ∈ projection, columnName item.expr item.label = name → item.expr = .column name ∨ item.expr = .star

omit [DecidableEq V] in
theorem itemColumns_of_ne_star {expr : Expr} (h : expr ≠ .star) (label : Option String) (value : V) (row : Row V) :
    itemColumns expr label value row = [(columnName expr label, value)] := by
  cases expr <;> first | rfl | exact absurd rfl h

private theorem lookup_itemsRow_getD {projection : List (Item Expr)} {name : String} (ctx : Context V)
    (h : ∀ item ∈ projection, columnName item.expr item.label = name → item.expr = .column name ∨ item.expr = .star) :
    ((itemsRow I db projection ctx).lookup name).getD (I.column ctx.row name) = I.column ctx.row name := by
  induction projection with
  | nil => simp [itemsRow]
  | cons item items ih =>
    obtain ⟨expr, label⟩ := item
    have ih := ih fun item hitem => h item (by simp [hitem])
    rw [itemsRow, List.lookup_append]
    by_cases hstar : expr = .star
    · subst hstar
      simp only [itemColumns]
      cases hlookup : ctx.row.lookup name with
      | none => simpa using ih
      | some v => simp [Interpretation.column, hlookup]
    · rw [itemColumns_of_ne_star hstar]
      by_cases hname : columnName expr label = name
      · have hcolumn : expr = .column name := by
          simpa [hstar] using h ⟨expr, label⟩ (by simp) hname
        subst hcolumn
        simp [hname, Expr.value]
      · have hne : (name == columnName expr label) = false := by simpa using Ne.symm hname
        simpa [List.lookup_cons, hne] using ih

private theorem outputKeys_of_keepsKeys {projection : List (Item Expr)} {order : List (SortKey Expr)}
    (h : KeepsKeys projection order) : outputKeys I db projection order = rowKeys I db order := by
  unfold rowKeys outputKeys
  induction order with
  | nil => rfl
  | cons key keys ih =>
    obtain ⟨expr, ascending⟩ := key
    rw [orderKeys, List.map_cons, List.map_cons, ih fun key hkey => h key (by simp [hkey])]
    congr 2
    funext row
    simp only [Function.comp_apply, itemsRow_star]
    cases expr with
    | column name =>
      have hrow := lookup_itemsRow_getD I db (.ofRow row) (h ⟨.column name, ascending⟩ (by simp) name rfl)
      simp only [sortValue, Expr.value]
      rw [hrow]
      simp only [Interpretation.column, Context.ofRow]
      cases List.lookup name row <;> rfl
    | _ => rfl

/-- A projection goes into a statement that puts out its input rows. If it aggregates, no row may have been cut off,
and if the rows are sorted, the keys must keep their meaning. -/
theorem rows_projected (hstar : s.isStar = true) (hgroups : s.isGrouped = false) {projection : List (Item Expr)}
    (haggregate : itemsAggregate projection = true → s.isLimited = false ∧ s.isOrdered = false)
    (hkeys : KeepsKeys projection s.order) :
    ({ s with projection } : Select).rows I db = regrouped I db [] projection (s.rows I db) := by
  cases haggregates : itemsAggregate projection with
  | true =>
    obtain ⟨hlimit, horder⟩ := haggregate haggregates
    have hs : ({ s with projection } : Select) = { s with groups := [], projection } := by
      rw [← groups_of_not_isGrouped hgroups]
    rw [hs, rows_regrouped I db hstar hgroups hlimit horder]
  | false =>
    rw [rows_of_rowwise I db (by simpa [isGrouped] using hgroups) haggregates, window_map,
      rows_of_isStar I db hstar hgroups]
    simp only [outputKeys_of_keepsKeys I db hkeys, regrouped, contexts, haggregates, List.isEmpty_nil, Bool.not_true,
      Bool.false_eq_true, if_false, List.map_map]
    rfl

/-- A projection of its own over the rows of a statement. -/
theorem rows_nestedProjection (s : Select) (projection : List (Item Expr)) :
    ({ s.wrap with projection } : Select).rows I db = regrouped I db [] projection (s.rows I db) := by
  rw [← rows_wrap I db s]
  exact rows_projected I db rfl rfl (fun _ => ⟨rfl, rfl⟩) (by simp [KeepsKeys, wrap, star])

/-! ### Conditions, order and bounds -/

/-- Predicates go into a statement that puts out its input rows. -/
theorem rows_addSelection (hstar : s.isStar = true) (hgroups : s.isGrouped = false) (hlimit : s.isLimited = false)
    (predicates : List Expr) :
    (s.addSelection predicates).rows I db =
      (s.rows I db).filter fun row => predicates.all fun e => I.holds (e.value I db (.ofRow row)) := by
  have hinput : (s.addSelection predicates).input I db =
      (s.input I db).filter fun row => predicates.all fun e => I.holds (e.value I db (.ofRow row)) := by
    unfold input addSelection
    rw [List.filter_filter]
    congr 1
    funext row
    rw [optionHolds_conjunction, List.all_append, Bool.and_comm]
    cases s.selection <;> simp [optionHolds]
  obtain ⟨hn, hk⟩ := bounds_of_not_isLimited hlimit
  rw [rows_of_isStar I db (s := s.addSelection predicates) hstar hgroups, hinput, I.arrange_filter,
    rows_of_isStar I db hstar hgroups]
  simp only [addSelection, hn, hk, window_none]

private theorem exists_lookup_itemsRow {projection : List (Item Expr)} {item : Item Expr} (hitem : item ∈ projection)
    (hstar : item.expr ≠ .star) (ctx : Context V) :
    ∃ v, (itemsRow I db projection ctx).lookup (columnName item.expr item.label) = some v := by
  induction projection with
  | nil => simp at hitem
  | cons first items ih =>
    obtain ⟨expr, label⟩ := first
    rw [itemsRow, List.lookup_append]
    rcases List.mem_cons.1 hitem with rfl | hitem
    · refine ⟨expr.value I db ctx, ?_⟩
      have hcolumns := itemColumns_of_ne_star hstar label (expr.value I db ctx) ctx.row
      simp [hcolumns]
    · obtain ⟨v, hv⟩ := ih hitem
      cases hfirst : List.lookup (columnName item.expr item.label)
          (itemColumns expr label (expr.value I db ctx) ctx.row) with
      | none => exact ⟨v, by simpa using hv⟩
      | some w => exact ⟨w, by simp⟩

/-- An order goes into a statement if its keys are among the output columns, or if the input rows are put out. -/
theorem rows_ordered (hlimit : s.isLimited = false) (horder : s.isOrdered = false) {order : List (SortKey Expr)}
    (hkeys : s.isStar = true ∧ s.isGrouped = false ∨ ∀ key ∈ order, ∃ item ∈ s.projection, item.expr ≠ .star ∧
      key.expr = .column (columnName item.expr item.label)) :
    ({ s with order } : Select).rows I db = I.arrange (rowKeys I db order) (s.rows I db) := by
  obtain ⟨hn, hk⟩ := bounds_of_not_isLimited hlimit
  rcases hkeys with ⟨hstar, hgroups⟩ | hkeys
  · rw [rows_of_isStar I db (s := { s with order }) hstar hgroups, rows_of_isStar I db hstar hgroups,
      order_of_not_isOrdered horder]
    simp only [hn, hk, window_none]
    exact congrArg _ (I.arrange_nil _).symm
  · rw [rows_eq, rows_eq I db s, order_of_not_isOrdered horder, orderKeys, I.arrange_nil]
    simp only [hn, hk, window_none]
    rw [I.arrange_map (rowKeys I db order)]
    refine congrArg _ (I.arrange_congr ?_)
    -- the value of a key is that of an output column and does not depend on what the row was made of
    unfold rowKeys outputKeys
    induction order with
    | nil => exact .nil
    | cons key keys ih =>
      obtain ⟨expr, ascending⟩ := key
      obtain ⟨item, hitem, hstar, hexpr⟩ := hkeys ⟨expr, ascending⟩ (by simp)
      refine .cons ⟨?_, rfl⟩ (ih fun key hkey => hkeys key (by simp [hkey]))
      intro output houtput
      obtain ⟨ctx, _, rfl⟩ := List.mem_map.1 houtput
      obtain ⟨v, hv⟩ := exists_lookup_itemsRow I db hitem hstar ctx
      have hexpr : expr = .column (columnName item.expr item.label) := hexpr
      simp only [Function.comp_apply, itemsRow_star, hexpr, sortValue, hv, Option.getD_some]

/-- Bounds go into a statement that has none. -/
theorem rows_window (hlimit : s.isLimited = false) (limit offset : Option UInt64) :
    ({ s with limit, offset } : Select).rows I db = window limit offset (s.rows I db) := by
  obtain ⟨hn, hk⟩ := bounds_of_not_isLimited hlimit
  rw [rows_eq, rows_eq, hn, hk, window_none]
  rfl

/-! ### Reductions over all rows -/

/-- A single value of all rows, which the order of the rows does not matter for. -/
private theorem regrouped_perm (hI : I.Unordered) {e : Expr} (he : e.isReduction = true) {rows rows' : List (Row V)}
    (h : rows.Perm rows') : regrouped I db [] [⟨e, none⟩] rows = regrouped I db [] [⟨e, none⟩] rows' := by
  have hstar : e ≠ .star := by rintro rfl; simp [Expr.isReduction] at he
  have haggregates : itemsAggregate [⟨e, none⟩] = true := by
    simp [itemsAggregate, e.aggregates_of_isReduction he]
  have hvalue := value_ofGroup_perm I db hI he h
  simp [regrouped, contexts, haggregates, itemsRow, itemColumns_of_ne_star hstar, hvalue]

/-- A reduction over the source for single values is the reduction over the rows of the statement. -/
theorem rows_scalarSource (hI : s.isOrdered = false ∨ I.Unordered) {e : Expr} (he : e.isReduction = true) :
    ({ s.scalarSource with projection := [⟨e, none⟩] } : Select).rows I db =
      regrouped I db [] [⟨e, none⟩] (s.rows I db) := by
  unfold scalarSource
  split
  · rename_i hfree
    simp only [Bool.and_eq_true, Bool.not_eq_true'] at hfree
    obtain ⟨⟨hstar, hgroups⟩, hlimit⟩ := hfree
    obtain ⟨hn, hk⟩ := bounds_of_not_isLimited hlimit
    have hplain : ({ s with projection := [⟨e, none⟩], order := [] } : Select).rows I db =
        regrouped I db [] [⟨e, none⟩] (({ s with order := [] } : Select).rows I db) :=
      rows_projected I db (s := { s with order := [] }) hstar hgroups (fun _ => ⟨hlimit, rfl⟩) (by simp [KeepsKeys])
    rw [hplain]
    have hperm : (({ s with order := [] } : Select).rows I db).Perm (s.rows I db) := by
      rw [rows_of_isStar I db (s := { s with order := [] }) hstar hgroups, rows_of_isStar I db hstar hgroups, hn, hk]
      exact ((I.arrange_perm _ _).trans (I.arrange_perm _ _).symm)
    rcases hI with horder | hI
    · have hs : ({ s with order := [] } : Select) = s := by
        rw [← order_of_not_isOrdered horder]
        cases s
        rfl
      rw [hs]
    · exact regrouped_perm I db hI he hperm
  · exact rows_nestedProjection I db s _

end Select

end

end SqlPlan.Sql
