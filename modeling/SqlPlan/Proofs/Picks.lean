import Mathlib.Data.List.Pairwise
import SqlPlan.Proofs.Clauses

/-!
# First and last values

The call of an aggregate makes one input of every row that its filter keeps, and the keys of its order sort these
inputs (`sorted_inputs`). Where there is no aggregate for the first or the last value, it is the first element of an
array of all values, and all keys are reversed for the last one.

* `arrange_reversed`: if no two elements are equal by the keys, reversing the keys reverses the sorted list.
* `value_pickAs_postgres`: the first element is the right end of the sorted rows, unless the last value is to be
  picked without any key.
-/

namespace SqlPlan

/-- The element at the end of a list from which is picked. -/
def Pick.among {α : Type} : Pick → List α → Option α
  | .first, l => l.head?
  | .last, l => l.getLast?

namespace Pick

variable {α β : Type} (func : Pick)

/-- A function of the picked element is picked among the results. -/
theorem among_map (f : α → β) (l : List α) : func.among (l.map f) = (func.among l).map f := by
  cases func <;> simp [among]

/-- Something is picked unless there is nothing. -/
theorem among_eq_none_iff {l : List α} : func.among l = none ↔ l = [] := by
  cases func <;> simp [among]

/-- What is at the end of a list stays there if it passes a filter. -/
theorem among_filter {l : List α} {a : α} (h : func.among l = some a) {p : α → Bool} (hp : p a = true) :
    func.among (l.filter p) = some a := by
  cases func with
  | first =>
    obtain ⟨l, rfl⟩ := List.head?_eq_some_iff.1 h
    simp [among, hp]
  | last =>
    obtain ⟨l, rfl⟩ := List.getLast?_eq_some_iff.1 h
    simp [among, hp]

end Pick

namespace Sql

/-! ### Inputs in order -/

namespace Interpretation

variable {V α : Type} (I : Interpretation V)

/-- Whether an input with the first keys may stand ahead of one with the second keys. -/
def inOrder : List (V × Bool) → List (V × Bool) → Bool
  | (a, ascending) :: keys, (b, _) :: keys' =>
    I.directed ascending a b && (!I.directed ascending b a || inOrder keys keys')
  | _, _ => true

/-- The inputs of an aggregate, sorted by their keys; inputs with equal keys stay in their order. -/
def sorted (inputs : List (Input V)) : List (Input V) :=
  inputs.insertionSort fun a b => I.inOrder a.order b.order = true

private theorem sorted_congr {I J : Interpretation V} (hle : I.le = J.le) (inputs : List (Input V)) :
    I.sorted inputs = J.sorted inputs := by
  have hdirected : I.directed = J.directed := by
    funext ascending a b
    rw [directed, directed, hle]
  have horder : ∀ keys keys', I.inOrder keys keys' = J.inOrder keys keys' := by
    intro keys
    induction keys with
    | nil => intro keys'; rfl
    | cons key keys ih =>
      rintro (_ | ⟨key', keys'⟩)
      · rfl
      · rw [inOrder, inOrder, hdirected, ih]
  simp only [sorted, horder]

/-- The single argument of an aggregate. -/
def argument (input : Input V) : V := input.args.headD I.null

private theorem inOrder_map (keys : List ((α → V) × Bool)) (a b : α) :
    I.inOrder (keys.map fun key => (key.1 a, key.2)) (keys.map fun key => (key.1 b, key.2)) =
      I.precedes keys a b := by
  induction keys with
  | nil => rfl
  | cons key keys ih => simp only [List.map_cons, inOrder, precedes, ih]

/-- The keys with the other directions. -/
def reversed (keys : List ((α → V) × Bool)) : List ((α → V) × Bool) := keys.map fun key => (key.1, !key.2)

private theorem precedes_reversed (keys : List ((α → V) × Bool)) (a b : α) :
    I.precedes (reversed keys) a b = I.precedes keys b a := by
  have hdirected : ∀ ascending (v w : V), I.directed (!ascending) v w = I.directed ascending w v := by
    intro ascending v w
    cases ascending <;> rfl
  induction keys with
  | nil => rfl
  | cons key keys ih =>
    have ih : I.precedes (keys.map fun key => (key.1, !key.2)) a b = I.precedes keys b a := ih
    simp only [reversed, List.map_cons, precedes, hdirected, ih]

/-- No two elements of a list are equal by the keys. -/
def Distinguishes (keys : List ((α → V) × Bool)) (l : List α) : Prop :=
  l.Pairwise fun a b => ¬(I.precedes keys a b = true ∧ I.precedes keys b a = true)

instance (keys : List ((α → V) × Bool)) (l : List α) : Decidable (I.Distinguishes keys l) :=
  inferInstanceAs (Decidable (l.Pairwise _))

/-- Reversing the direction of every key reverses the order, if no two elements are equal by the keys. -/
theorem arrange_reversed {keys : List ((α → V) × Bool)} {l : List α} (h : I.Distinguishes keys l) :
    I.arrange (reversed keys) l = (I.arrange keys l).reverse := by
  have htotal : ∀ keys : List ((α → V) × Bool), Std.Total fun a b => I.precedes keys a b = true :=
    fun keys => ⟨I.precedes_total keys⟩
  have htrans : ∀ keys : List ((α → V) × Bool), IsTrans α fun a b => I.precedes keys a b = true :=
    fun keys => ⟨fun _ _ _ => I.precedes_trans⟩
  have hsorted : ∀ keys, (I.arrange keys l).Pairwise fun a b => I.precedes keys a b = true :=
    fun keys => @List.pairwise_insertionSort _ _ _ (htotal keys) (htrans keys) l
  have hsymm : Std.Symm fun a b => ¬(I.precedes keys a b = true ∧ I.precedes keys b a = true) :=
    ⟨fun a b hne hba => hne hba.symm⟩
  have hanti : ∀ a b, a ∈ I.arrange (reversed keys) l → b ∈ (I.arrange keys l).reverse →
      I.precedes (reversed keys) a b = true → I.precedes (reversed keys) b a = true → a = b := by
    intro a b ha hb hab hba
    rw [precedes_reversed] at hab hba
    have ha : a ∈ l := (I.arrange_perm _ l).subset ha
    have hb : b ∈ l := (I.arrange_perm keys l).subset (List.mem_reverse.1 hb)
    by_contra hne
    exact h.forall ha hb hne ⟨hba, hab⟩
  have hreverse : (I.arrange keys l).reverse.Pairwise fun a b => I.precedes (reversed keys) a b = true := by
    rw [List.pairwise_reverse]
    exact (hsorted keys).imp fun hab => by rwa [precedes_reversed]
  -- both lists are sorted permutations of `l`, and there is only one
  have hperm : (I.arrange (reversed keys) l).Perm (I.arrange keys l).reverse :=
    (I.arrange_perm _ l).trans ((List.reverse_perm _).trans (I.arrange_perm keys l)).symm
  exact hperm.eq_of_pairwise hanti (hsorted _) hreverse

end Interpretation

/-! ### Inputs of a call -/

section

variable {V : Type} [DecidableEq V] (I : Interpretation V) (db : String → List (Row V))

/-- The rows for which a condition is true, if there is one. -/
def kept (condition : Option Expr) (rows : List (Row V)) : List (Row V) :=
  rows.filter fun row => optionHolds I db condition (.ofRow row)

/-- The keys of an order, read from single rows. -/
def callKeys (order : List (SortKey Expr)) : List ((Row V → V) × Bool) :=
  order.map fun key => (fun row => key.expr.value I db (.ofRow row), key.ascending)

/-- What the call of an aggregate takes from a row. -/
def Call.input (function : Call Expr) (row : Row V) : Input V where
  args := listValues I db function.args (.ofRow row)
  order := keyValues I db function.order (.ofRow row)
  within := keyValues I db function.within (.ofRow row)

/-- Without a condition all rows are kept. -/
theorem kept_none (rows : List (Row V)) : kept I db none rows = rows := by simp [kept, optionHolds]

private theorem keyValues_eq_map (order : List (SortKey Expr)) (row : Row V) :
    keyValues I db order (.ofRow row) = (callKeys I db order).map fun key => (key.1 row, key.2) := by
  induction order with
  | nil => rfl
  | cons key keys ih =>
    rw [keyValues, ih]
    rfl

private theorem callKeys_reversed (order : List (SortKey Expr)) :
    callKeys I db (order.map (·.reversed)) = Interpretation.reversed (callKeys I db order) := by
  rw [callKeys, callKeys, Interpretation.reversed, List.map_map, List.map_map]
  rfl

/-- The value of an aggregate is taken over the rows that its condition keeps. -/
theorem value_call {function : Call Expr} (hname : aggregateNames.contains function.name = true) (ctx : Context V) :
    (Expr.call function).value I db ctx =
      I.aggregate function.name ((kept I db function.filter ctx.group).map (function.input I db)) := by
  obtain ⟨name, args, order, within, filter⟩ := function
  have hname : aggregateNames.contains name = true := hname
  rw [Expr.value, callValue, if_pos hname]
  rfl

/-- The sorted inputs of a call are those of the sorted rows. -/
theorem sorted_inputs (function : Call Expr) (rows : List (Row V)) :
    I.sorted (rows.map (function.input I db)) =
      (I.arrange (callKeys I db function.order) rows).map (function.input I db) := by
  have hinput : ∀ a b, I.inOrder (function.input I db a).order (function.input I db b).order =
      I.precedes (callKeys I db function.order) a b := by
    intro a b
    simp only [Call.input, keyValues_eq_map, I.inOrder_map]
  refine (List.map_insertionSort _ _ _ _ fun a _ b _ => ?_).symm
  rw [hinput]

/-! ### Arrays -/

/-- `ARRAY_AGG` makes an array of its arguments in order, and `[1]` is the first element of an array. -/
structure Interpretation.ReadsArrays (array : List V → V) : Prop where
  arrayAgg : ∀ inputs, I.aggregate "ARRAY_AGG" inputs = array ((I.sorted inputs).map I.argument)
  first : ∀ vs, I.subscript (array vs) 1 = vs.headD I.null

/-- An expression has the value that `arg` has in the row at one end of a list. -/
def Expr.Picks (e : Expr) (ctx : Context V) (func : Pick) (arg : Expr) (rows : List (Row V)) : Prop :=
  ∃ row, func.among rows = some row ∧ e.value I db ctx = arg.value I db (.ofRow row)

variable {I db}

/-- The first element of an ordered array is the value of the first row in that order. -/
private theorem value_firstElement {array : List V → V} (hI : I.ReadsArrays array) (arg : Expr)
    (order : List (SortKey Expr)) (condition : Option Expr) {ctx : Context V} {row : Row V}
    (hrow : (I.arrange (callKeys I db order) (kept I db condition ctx.group)).head? = some row) :
    (Expr.subscript (.call { name := "ARRAY_AGG", args := [arg], order, filter := condition }) 1).value I db ctx =
      arg.value I db (.ofRow row) := by
  obtain ⟨rows, hrows⟩ := List.head?_eq_some_iff.1 hrow
  rw [Expr.value, value_call I db (by simp [aggregateNames]), hI.arrayAgg, hI.first, sorted_inputs, hrows]
  rfl

end

end Sql

open Sql

/-- With `FILTER`, an aggregate takes its arguments as they are. -/
theorem Dialect.aggregate_of_filter {d : Dialect} {condition : Option Expr}
    (h : condition = none ∨ d.aggregateFilter = true) (name : String) (args : List Expr) :
    d.aggregate name args condition = { name, args, filter := condition } := by
  cases condition with
  | none => rfl
  | some condition =>
    have hfilter := h.resolve_left (by simp)
    rw [aggregate, if_pos hfilter]

/-! ### A small database -/

/-- Values of a database. A list has its first element and the rest of it, which is null behind the last one. -/
inductive Cell where
  | null
  | truth (b : Bool)
  | number (n : Int)
  | list (head rest : Cell)
deriving DecidableEq

namespace Cell

def ofList (cells : List Cell) : Cell := cells.foldr .list .null

/-- An element of a list, counted from zero. -/
def get : Cell → Nat → Cell
  | .list head _, 0 => head
  | .list _ rest, n + 1 => rest.get n
  | _, _ => .null

def truth? : Cell → Option Bool
  | .truth b => some b
  | _ => none

def number? : Cell → Option Int
  | .number n => some n
  | _ => none

/-- A number is sorted by its value, and all else like zero. -/
def rank (cell : Cell) : Int := cell.number?.getD 0

/-- A comparison of numbers, which is null if there is none. -/
def less (a b : Cell) : Cell :=
  match a.number?, b.number? with
  | some m, some n => .truth (m < n)
  | _, _ => .null

/-- Cells are counted or added up; every other aggregate takes the first one. -/
def combine (name : String) (cells : List Cell) : Cell :=
  if name = "COUNT" then .number cells.length
  else if name = "SUM" ∧ cells ≠ [] then .number (cells.foldr (·.rank + ·) 0)
  else cells.headD .null

private theorem get_ofList (cells : List Cell) : (ofList cells).get 0 = cells.headD .null := by
  cases cells <;> rfl

end Cell

namespace Sql.Interpretation

/-- Numbers are compared, sorted and chosen in a case; all aggregates are null. -/
def comparedCells : Interpretation Cell where
  null := .null
  truth := Cell.truth?
  ofTruth t := t.elim .null .truth
  truth_ofTruth := by rintro (_ | _) <;> rfl
  literal _ := .null
  keyword _ := .null
  cast cell _ := cell
  operator op a b := if op = "<" then a.less b else .null
  not cell := (cell.truth?.map (Cell.truth !·)).getD .null
  negate cell := (cell.number?.map (Cell.number <| -·)).getD .null
  isNull cell negated := .truth (decide (cell = .null) != negated)
  apply _ _ := .null
  aggregate _ _ := .null
  case _ branches default := ((branches.find? (·.1.truth? == some true)).map (·.2)).getD (default.getD .null)
  interval cell _ := cell
  subscript cell index := cell.get (index.toInt.toNat - 1)
  le a b := a.rank ≤ b.rank
  le_total a b := by simpa using Int.le_total a.rank b.rank
  le_trans a b c := by simpa using Int.le_trans

/-- Cells are also picked, put into lists and combined. -/
def cells : Interpretation Cell :=
  { comparedCells with
    aggregate := fun name inputs =>
      let sorted := comparedCells.sorted inputs
      if name = "FIRST" then ((Pick.first.among sorted).map comparedCells.argument).getD .null
      else if name = "LAST" then ((Pick.last.among sorted).map comparedCells.argument).getD .null
      else if name = "ARRAY_AGG" then .ofList (sorted.map comparedCells.argument)
      else .combine name ((inputs.filter (·.args.all (· ≠ .null))).map comparedCells.argument) }

/-- Both interpretations of cells sort their inputs in the same way. -/
theorem cells_sorted (inputs : List (Input Cell)) : cells.sorted inputs = comparedCells.sorted inputs := by
  have hle : cells.le = comparedCells.le := rfl
  rw [sorted_congr hle]

private theorem cells_readsArrays : cells.ReadsArrays Cell.ofList where
  arrayAgg inputs := by
    rw [cells_sorted]
    simp only [cells, String.reduceEq, if_false, if_true]
    rfl
  first := Cell.get_ofList

end Sql.Interpretation

/-! ### Elements of arrays -/

section

variable {V : Type} [DecidableEq V] {I : Interpretation V} {db : String → List (Row V)}

/-- Where a first or last value is an element of an array, it is the value of the first row in the order, and of the
last row if the keys tell all rows apart. Without keys, the last value is written like the first one. -/
theorem Compiler.value_pickAs_postgres {array : List V → V} (hI : I.ReadsArrays array) (c : Compiler) (arg : Expr)
    {condition : Option Expr} (hfilter : condition = none ∨ c.dialect.aggregateFilter = true)
    (order : List (SortKey Expr)) {ctx : Context V} (hrows : kept I db condition ctx.group ≠ []) :
    (c.pickAs .postgres .first arg condition order).Picks I db ctx .first arg
        (I.arrange (callKeys I db order) (kept I db condition ctx.group)) ∧
      (I.Distinguishes (callKeys I db order) (kept I db condition ctx.group) →
        (c.pickAs .postgres .last arg condition order).Picks I db ctx .last arg
          (I.arrange (callKeys I db order) (kept I db condition ctx.group))) ∧
      (order = [] →
        c.pickAs .postgres .last arg condition order = c.pickAs .postgres .first arg condition order) := by
  have hpicked : ∀ func : Pick, ∃ row,
      func.among (I.arrange (callKeys I db order) (kept I db condition ctx.group)) = some row := by
    intro func
    refine Option.ne_none_iff_exists'.1 fun hnone => hrows (List.perm_nil.1 ?_)
    rw [← func.among_eq_none_iff.1 hnone]
    exact (I.arrange_perm _ _).symm
  refine ⟨?_, fun hdistinct => ?_, ?_⟩
  · obtain ⟨row, hrow⟩ := hpicked .first
    refine ⟨row, hrow, ?_⟩
    simp only [pickAs, Dialect.aggregate_of_filter hfilter]
    exact value_firstElement hI arg order condition hrow
  · obtain ⟨row, hrow⟩ := hpicked .last
    refine ⟨row, hrow, ?_⟩
    simp only [pickAs, Dialect.aggregate_of_filter hfilter]
    refine value_firstElement hI arg _ condition ?_
    rw [callKeys_reversed, I.arrange_reversed hdistinct, List.head?_reverse]
    exact hrow
  · rintro rfl
    rfl

end

namespace Cell

/-- The row with the given values of `x`, `y` and `z`. -/
def triple (x y : Int) (z : Cell) : Row Cell := [("x", .number x), ("y", .number y), ("z", z)]

/-- Five rows with bounds for `x`, one of them exceeded and one of them unknown. -/
def boundedPairs : Context Cell :=
  .ofGroup [triple 1 2 (.number 5), triple 9 3 (.number 5), triple 2 2 (.number 5), triple 3 1 (.number 5),
    triple 0 0 .null]

/-- Whether `x` is less than its bound. -/
def isBounded : Expr := .binary (.column "x") "<" (.column "z")

end Cell

/-- Of the `x` below their bound, in the order of `y` and then backwards, 3 is the first one and 1 is the last one. -/
theorem Compiler.value_pickAs_postgres_bounded :
    let order : List (SortKey Expr) := [⟨.column "y", true⟩, ⟨.column "x", false⟩]
    let pick func := Compiler.postgres.pickAs .postgres func (.column "x") (some Cell.isBounded) order
    (pick .first).value .cells (fun _ => []) Cell.boundedPairs = .number 3 ∧
      (pick .last).value .cells (fun _ => []) Cell.boundedPairs = .number 1 := by
  intro order pick
  have hrows : kept .cells (fun _ => []) (some Cell.isBounded) Cell.boundedPairs.group ≠ [] := by decide
  obtain ⟨⟨_, hfirst, hvalue⟩, hlast, -⟩ := Compiler.postgres.value_pickAs_postgres Interpretation.cells_readsArrays
    (.column "x") (.inr rfl) order hrows
  obtain ⟨_, hlast, hvalue'⟩ := hlast (by decide)
  have hfirst : some _ = some (Cell.triple 3 1 (.number 5)) := hfirst.symm.trans (by decide)
  have hlast : some _ = some (Cell.triple 1 2 (.number 5)) := hlast.symm.trans (by decide)
  rw [Option.some.inj hfirst] at hvalue
  rw [Option.some.inj hlast] at hvalue'
  exact ⟨hvalue, hvalue'⟩

/-- Without keys, the last of two values is the first one. -/
theorem Compiler.value_pickAs_postgres_unordered :
    let pick := Compiler.postgres.pickAs .postgres .last (.column "x") none []
    pick.text = "(ARRAY_AGG(\"x\"))[1]" ∧
      pick.value .cells (fun _ => []) (.ofGroup [Cell.triple 1 0 .null, Cell.triple 2 0 .null]) = .number 1 := by
  decide

end SqlPlan
