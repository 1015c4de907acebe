import SqlPlan.Proofs.Picks

/-!
# Aggregates without `FILTER`

Where a dialect has no `FILTER`, the arguments of an aggregate are null in the rows that a condition rejects.

* `value_aggregate_filtering`: an aggregate that skips nulls does not see these rows, and so has the same value.
* `value_pick_guarded`: a first or last value is null if the row that it is read from is rejected, and the same
  otherwise.
-/

namespace SqlPlan

open Sql

/-! ### Nulls in place of rows -/

/-- The aggregate for a first or last value, in plain SQL. -/
def Pick.ansiName : Pick → String
  | .first => "FIRST"
  | .last => "LAST"

namespace Sql

/-- The aggregates for which a row with a null argument does not count. -/
def nullSkipping : List String := ["COUNT", "SUM", "AVG", "MIN", "MAX", "ANY_VALUE", "MODE", "CORR"]

/-- The argument in the rows for which a condition is true, and null in all others. -/
def Expr.guarded (arg condition : Expr) : Expr := .case none [⟨condition, arg⟩] none

section

variable {V : Type} [DecidableEq V] (I : Interpretation V) (db : String → List (Row V))

/-- Whether no argument of an input is null. -/
def Interpretation.isFull (input : Input V) : Bool := input.args.all (· ≠ I.null)

/-- A case has the result of its first true condition. Aggregates skip nulls, but a first or last value may be
null. -/
structure Interpretation.ReadsAggregates : Prop where
  case : ∀ branches default,
    I.case none branches default = ((branches.find? (I.holds ·.1)).map (·.2)).getD (default.getD I.null)
  skips : ∀ name ∈ nullSkipping, ∀ inputs, I.aggregate name inputs = I.aggregate name (inputs.filter I.isFull)
  pick : ∀ func inputs,
    I.aggregate (Pick.ansiName func) inputs = ((func.among (I.sorted inputs)).map I.argument).getD I.null

variable {I db} (hI : I.ReadsAggregates)

include hI

private theorem value_guarded (arg condition : Expr) (ctx : Context V) :
    (arg.guarded condition).value I db ctx =
      if optionHolds I db (some condition) ctx then arg.value I db ctx else I.null := by
  rw [Expr.guarded, Expr.value, optionValue, hI.case, branchValues, branchValues, optionHolds]
  cases hholds : I.holds (condition.value I db ctx) <;> simp [hholds]

private theorem listValues_guarded (args : List Expr) (condition : Expr) (ctx : Context V) :
    listValues I db (args.map (·.guarded condition)) ctx =
      if optionHolds I db (some condition) ctx then listValues I db args ctx else args.map fun _ => I.null := by
  induction args with
  | nil => simp [listValues]
  | cons arg args ih =>
    rw [List.map_cons, listValues, ih, value_guarded hI, listValues]
    cases optionHolds I db (some condition) ctx <;> rfl

/-- Without the inputs that have a null in them, it is the same to reject rows and to guard the arguments. -/
private theorem filter_inputs_guarded (name : String) {args : List Expr} (hargs : args ≠ []) (condition : Expr)
    (rows : List (Row V)) :
    ((kept I db (some condition) rows).map
        (Call.input I db { name, args, filter := some condition })).filter I.isFull =
      (rows.map (Call.input I db { name, args := args.map (·.guarded condition) })).filter I.isFull := by
  induction rows with
  | nil => rfl
  | cons row rows ih =>
    rw [List.map_cons, List.filter_cons, ← ih, kept, List.filter_cons]
    by_cases hholds : optionHolds I db (some condition) (.ofRow row) = true
    · rw [if_pos hholds, List.map_cons, List.filter_cons]
      simp only [Call.input, listValues_guarded hI, hholds, if_true]
      rfl
    · -- all arguments of the rejected row are null, and there is one
      have hnull : ¬I.isFull (Call.input I db { name, args := args.map (·.guarded condition) } row) = true := by
        simp only [Call.input, listValues_guarded hI, if_neg hholds, Interpretation.isFull]
        obtain ⟨arg, args, rfl⟩ := List.exists_cons_of_ne_nil hargs
        simp
      rw [if_neg hholds, if_neg hnull]
      rfl

end

end Sql

/-! ### The same calls in both ways -/

/-- The dialect with `FILTER`, or without it. -/
def Dialect.filtering (d : Dialect) (supported : Bool) : Dialect := { d with aggregateFilter := supported }

/-- The compiler with `FILTER`, or without it. -/
def Compiler.filtering (c : Compiler) (supported : Bool) : Compiler :=
  { c with dialect := c.dialect.filtering supported }

section

variable {V : Type} [DecidableEq V] {I : Interpretation V} {db : String → List (Row V)} (hI : I.ReadsAggregates)

private theorem Dialect.aggregate_guarded (d : Dialect) (name : String) (args : List Expr) (condition : Expr) :
    (d.filtering false).aggregate name args (some condition) = { name, args := args.map (·.guarded condition) } :=
  rfl

include hI

/-- An aggregate that skips nulls has the same value with and without `FILTER`. -/
theorem value_aggregate_filtering (d : Dialect) {name : String} (hname : name ∈ nullSkipping) {args : List Expr}
    (hargs : args ≠ []) (condition : Option Expr) (ctx : Context V) :
    (Expr.call ((d.filtering true).aggregate name args condition)).value I db ctx =
      (Expr.call ((d.filtering false).aggregate name args condition)).value I db ctx := by
  have haggregate : ∀ name ∈ nullSkipping, aggregateNames.contains name = true := by decide
  cases condition with
  | none => rfl
  | some condition =>
    rw [Dialect.aggregate_of_filter (.inr rfl), Dialect.aggregate_guarded, value_call I db (haggregate name hname),
      value_call I db (haggregate name hname), hI.skips name hname, filter_inputs_guarded hI name hargs, kept_none,
      ← hI.skips name hname]

/-- The value of a pick, with its rows in order. -/
private theorem value_pick (func : Pick) (arg : Expr) (order : List (SortKey Expr)) (condition : Option Expr)
    (ctx : Context V) :
    (Expr.call { name := func.ansiName, args := [arg], order, filter := condition }).value I db ctx =
      ((func.among (I.arrange (callKeys I db order) (kept I db condition ctx.group))).map
        fun row => arg.value I db (.ofRow row)).getD I.null := by
  have hname : aggregateNames.contains func.ansiName = true := by cases func <;> decide
  rw [value_call I db hname, hI.pick, sorted_inputs, func.among_map, Option.map_map]
  rfl

/-- Without `FILTER`, a pick reads the row at the end of all rows, and is null if that row is rejected. -/
theorem value_pick_guarded (func : Pick) (arg condition : Expr) (order : List (SortKey Expr)) (ctx : Context V) :
    (Expr.call { name := func.ansiName, args := [arg.guarded condition], order }).value I db ctx =
      ((func.among (I.arrange (callKeys I db order) ctx.group)).map fun row =>
        if optionHolds I db (some condition) (.ofRow row) then arg.value I db (.ofRow row)
        else I.null).getD I.null := by
  rw [value_pick hI, kept_none]
  simp only [value_guarded hI]

/-- Without `FILTER`, a first or last value is the same if and only if it is null or read from a row that is kept. -/
private theorem value_pick_eq_iff (func : Pick) (arg condition : Expr) (order : List (SortKey Expr))
    (ctx : Context V) :
    let filtered := Expr.call { name := func.ansiName, args := [arg], order, filter := some condition }
    filtered.value I db ctx =
        (Expr.call { name := func.ansiName, args := [arg.guarded condition], order }).value I db ctx ↔
      (∀ row, func.among (I.arrange (callKeys I db order) ctx.group) = some row →
        optionHolds I db (some condition) (.ofRow row) = true) ∨ filtered.value I db ctx = I.null := by
  intro filtered
  have hfiltered : filtered.value I db ctx = ((func.among ((I.arrange (callKeys I db order) ctx.group).filter
      fun row => optionHolds I db (some condition) (.ofRow row))).map fun row => arg.value I db (.ofRow row)).getD
        I.null := by
    rw [value_pick hI, kept, I.arrange_filter]
  rw [value_pick_guarded hI]
  cases hend : func.among (I.arrange (callKeys I db order) ctx.group) with
  | none =>
    have hnil := func.among_eq_none_iff.1 hend
    rw [hnil, List.filter_nil, func.among_eq_none_iff.2 rfl] at hfiltered
    simp [hfiltered]
  | some row =>
    by_cases hholds : optionHolds I db (some condition) (.ofRow row) = true
    · rw [func.among_filter hend hholds] at hfiltered
      simp [hfiltered, hholds]
    · simp [hholds]

end

/-- Cells are an example of such values. -/
private theorem Sql.Interpretation.cells_readsAggregates : cells.ReadsAggregates where
  case _ _ := rfl
  skips name hname inputs := by
    have hpick : ¬name = "FIRST" ∧ ¬name = "LAST" ∧ ¬name = "ARRAY_AGG" := by
      revert name
      decide
    have hcombine : ∀ inputs, cells.aggregate name inputs =
        .combine name ((inputs.filter cells.isFull).map comparedCells.argument) := by
      intro inputs
      simp only [cells, if_neg hpick.1, if_neg hpick.2.1, if_neg hpick.2.2]
      rfl
    rw [hcombine, hcombine, List.filter_filter]
    simp only [Bool.and_self]
  pick func inputs := by
    rw [cells_sorted]
    cases func <;> rfl

namespace Compiler

section

variable {V : Type} [DecidableEq V] {I : Interpretation V} {db : String → List (Row V)}

private theorem pickAs_ansi (c : Compiler) (func : Pick) (arg : Expr) (condition : Option Expr)
    (order : List (SortKey Expr)) :
    c.pickAs .ansi func arg condition order =
      .call { c.dialect.aggregate func.ansiName [arg] condition with order } := by
  cases func <;> rfl

/-- A reduction has the same argument with and without `FILTER`. -/
private theorem exists_reductionAs_ansi (c : Compiler) (func : Reduction) (arg : Expr) (type : DataType)
    (condition : Option Expr) :
    ∃ arg', ∀ supported, (c.filtering supported).reductionAs .ansi func arg type condition =
      .ok (.call ((c.dialect.filtering supported).aggregate func.sqlName [arg'] condition)) := by
  have hname : ∀ supported, (c.filtering supported).typeName (.int .w32) = .ok "INTEGER" := by
    intro supported
    obtain ⟨dialect, family⟩ := c
    cases family <;> rfl
  have hplain : ∀ supported, (c.filtering supported).reductionAs .ansi func arg type condition =
      (c.filtering supported).plainReduction func arg type condition := by
    intro supported
    cases func <;> rfl
  by_cases hcast : (type.isBoolean && (func == .sum || func == .mean)) = true
  · refine ⟨.cast arg "INTEGER", fun supported => ?_⟩
    rw [hplain, plainReduction, if_pos hcast, hname]
    rfl
  · refine ⟨arg, fun supported => ?_⟩
    rw [hplain, plainReduction, if_neg hcast]
    rfl

/-- With and without `FILTER`, all reductions and correlations over the rows that a condition keeps have the same
value. A first or last value has the same value if and only if its row among all rows is kept, or the value is
null. -/
theorem value_filtering (hI : I.ReadsAggregates) (c : Compiler) (condition : Option Expr) (ctx : Context V) :
    (∀ func arg type, ∃ e e', (c.filtering true).reductionAs .ansi func arg type condition = .ok e ∧
        (c.filtering false).reductionAs .ansi func arg type condition = .ok e' ∧
          e.value I db ctx = e'.value I db ctx) ∧
      (∀ left right, ((c.filtering true).correlation left right condition).value I db ctx =
        ((c.filtering false).correlation left right condition).value I db ctx) ∧
      ∀ func arg order, ((c.filtering true).pickAs .ansi func arg condition order).value I db ctx =
          ((c.filtering false).pickAs .ansi func arg condition order).value I db ctx ↔
        (∀ row, func.among (I.arrange (callKeys I db order) ctx.group) = some row →
            optionHolds I db condition (.ofRow row) = true) ∨
          ((c.filtering true).pickAs .ansi func arg condition order).value I db ctx = I.null := by
  refine ⟨fun func arg type => ?_, fun left right => ?_, fun func arg order => ?_⟩
  · obtain ⟨arg', harg'⟩ := c.exists_reductionAs_ansi func arg type condition
    have hname : func.sqlName ∈ nullSkipping := by cases func <;> decide
    exact ⟨_, _, harg' true, harg' false, value_aggregate_filtering hI c.dialect hname (by simp) condition ctx⟩
  · exact value_aggregate_filtering hI c.dialect (by decide) (by simp) condition ctx
  · cases condition with
    | none => exact iff_of_true rfl (.inl fun _ _ => rfl)
    | some condition =>
      rw [pickAs_ansi, pickAs_ansi]
      exact value_pick_eq_iff hI func arg condition order ctx

end

/-- Without `FILTER`, the `x` below their bound have the sum 6, and 3 is the last one of them by `z`. -/
theorem value_filtering_bounded :
    (∃ e, (base.filtering false).reductionAs .ansi .sum (.column "x") (.int .w64) (some Cell.isBounded) = .ok e ∧
        e.value .cells (fun _ => []) Cell.boundedPairs = .number 6) ∧
      ((base.filtering false).pickAs .ansi .last (.column "x") (some Cell.isBounded) [⟨.column "z", true⟩]).value
        .cells (fun _ => []) Cell.boundedPairs = .number 3 := by
  obtain ⟨hreduction, -, hpick⟩ := value_filtering Interpretation.cells_readsAggregates base (some Cell.isBounded)
    Cell.boundedPairs
  obtain ⟨e, e', he, he', hvalue⟩ := hreduction .sum (.column "x") (.int .w64)
  have he : Except.ok _ = Except.ok e := he
  obtain rfl := Except.ok.inj he
  have hlast := (hpick .last (.column "x") [⟨.column "z", true⟩]).2 (.inl fun row hrow => ?_)
  · exact ⟨⟨e', he', hvalue.symm.trans (by decide)⟩, hlast.symm.trans (by decide)⟩
  · have hrow : some row = some (Cell.triple 3 1 (.number 5)) := hrow.symm.trans (by decide)
    rw [Option.some.inj hrow]
    decide

/-- The first `x` by `y` is in a row without a bound. Below the bounds it is 3, but null without `FILTER`. -/
theorem value_filtering_first :
    ((base.filtering true).pickAs .ansi .first (.column "x") (some Cell.isBounded) [⟨.column "y", true⟩]).value
        .cells (fun _ => []) Cell.boundedPairs = .number 3 ∧
      ((base.filtering false).pickAs .ansi .first (.column "x") (some Cell.isBounded) [⟨.column "y", true⟩]).value
        .cells (fun _ => []) Cell.boundedPairs = .null := by
  decide

end Compiler

end SqlPlan
