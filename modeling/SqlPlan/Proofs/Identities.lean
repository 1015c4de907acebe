import SqlPlan.Proofs.Columns

/-!
# Operations with nothing to do

A filter without predicates and a limit without bounds leave the rows of a relation as they are, in whatever statement
they come. A sort without keys takes the place of the order that the statement has: the rows stay in their order only
if there is none, or if it stands below bounds.
-/

namespace SqlPlan

open Sql

namespace Sql.Select

/-- Two statements have the same rows in the same order in every database. -/
def SameRows (s t : Select) : Prop :=
  ∀ (V : Type) [DecidableEq V] (I : Interpretation V) (db : String → List (Row V)), s.rows I db = t.rows I db

/-- Two statements have the same rows in every database, each in an order of its own. -/
def PermRows (s t : Select) : Prop :=
  ∀ (V : Type) [DecidableEq V] (I : Interpretation V) (db : String → List (Row V)), (s.rows I db).Perm (t.rows I db)

variable {s t : Select}

private theorem SameRows.permRows (h : s.SameRows t) : s.PermRows t := fun V _ I db => .of_eq (h V I db)

private theorem sameRows_wrap (s : Select) : s.wrap.SameRows s := fun _ _ I db => rows_wrap I db s

/-- Bounds that cut off nothing go into a statement without bounds, and else into one over it. -/
private theorem sameRows_unbounded (s : Select) :
    ({ s.wrapUnless (!s.isLimited) with limit := none, offset := none } : Select).SameRows s := by
  cases hlimit : s.isLimited with
  | true => exact sameRows_wrap s
  | false => exact fun _ _ I db => rows_window I db hlimit none none

private theorem unordered_eq_self (horder : s.isOrdered = false) : ({ s with order := [] } : Select) = s := by
  have horder := order_of_not_isOrdered horder
  cases s
  cases horder
  rfl

/-- If no row is cut off, an order only permutes the rows. -/
private theorem permRows_unordered (hlimit : s.isLimited = false) : ({ s with order := [] } : Select).PermRows s := by
  intro V _ I db
  obtain ⟨hcount, hoffset⟩ := bounds_of_not_isLimited hlimit
  rw [rows_eq, rows_eq I db s, hcount, hoffset]
  exact ((I.arrange_perm _ _).trans (I.arrange_perm _ _).symm).map _

end Sql.Select

namespace Node

variable {p : Node}

/-- The operations over a relation that have nothing to do. -/
def idle (p : Node) : List (Op Node) := [.filter p [], .limit p none 0, .sort p []]

private theorem mem_idle {op : Op Node} :
    op ∈ p.idle ↔ op = .filter p [] ∨ op = .limit p none 0 ∨ op = .sort p [] := by
  simp only [idle, List.mem_cons, List.not_mem_nil, or_false]

private theorem new?_idle (hrelation : p.isRelation = true) {op : Op Node} (hop : op ∈ p.idle) :
    new? op = .ok ⟨op, p.type, .tabular⟩ := by
  have hexpect : ∀ kind : Kind, kind.expectRelation p = .ok () := by
    intro kind
    rw [Kind.expectRelation, if_pos hrelation]
  rcases mem_idle.1 hop with rfl | rfl | rfl <;>
  · rw [new?, Op.type?, hexpect]
    rfl

end Node

namespace Compiler

variable {c : Compiler} {p : Node} {s : Select}

private theorem ensureSupported_of_supports {kind : Kind} (h : c.dialect.supports kind = true) :
    c.dialect.ensureSupported kind = .ok () := by
  rw [Dialect.ensureSupported, if_pos h]

/-- Without keys, a sort takes the order away from a statement that has no bounds. -/
theorem lowerRelation_sort_nil (hsupports : c.dialect.supports .sort = true) (hs : c.lowerRelation p = .ok s)
    (type : DataType) (shape : Shape) :
    c.lowerRelation ⟨.sort p [], type, shape⟩ = .ok { s.wrapUnless (!s.isLimited) with order := [] } := by
  have hfree : (!s.isLimited && (s.isStar || true)) = !s.isLimited := by rw [Bool.or_true, Bool.and_true]
  rw [lowerRelation, ensureSupported_of_supports hsupports, hs, ← hfree]
  rfl

private theorem lowerRelation_limit_none (hsupports : c.dialect.supports .limit = true)
    (hs : c.lowerRelation p = .ok s) (type : DataType) (shape : Shape) :
    c.lowerRelation ⟨.limit p none 0, type, shape⟩ =
      .ok { s.wrapUnless (!s.isLimited) with limit := none, offset := none } := by
  rw [lowerRelation, ensureSupported_of_supports hsupports, hs]
  rfl

private theorem lowerRelation_filter_nil (hsupports : c.dialect.supports .filter = true)
    (hs : c.lowerRelation p = .ok s) (type : DataType) (shape : Shape) :
    c.lowerRelation ⟨.filter p [], type, shape⟩ = .ok s := by
  rw [lowerRelation, ensureSupported_of_supports hsupports, hs]
  rfl

/-- An operation with nothing to do may be put on every relation that is compiled, and keeps its rows. They stay in
their order unless the operation is a sort, and the statement has an order and no bounds: then it loses this order. -/
theorem rows_idle (hp : p.Valid) (hs : c.lowerRelation p = .ok s) {op : Op Node} (hop : op ∈ p.idle)
    (hsupports : c.dialect.supports op.kind = true) :
    ∃ n t, Node.new? op = .ok n ∧ c.lowerRelation n = .ok t ∧ t.PermRows s ∧
      (t.SameRows s ∨
        op = .sort p [] ∧ s.isLimited = false ∧ s.isOrdered = true ∧ t = { s with order := [] }) := by
  have hrelation : p.isRelation = true := isRelation_of_lowers (c.lowers_of_lowerRelation hs) hp
  refine ⟨⟨op, p.type, .tabular⟩, ?_⟩
  have hnew := Node.new?_idle hrelation hop
  rcases Node.mem_idle.1 hop with rfl | rfl | rfl
  · have hsame : s.SameRows s := fun _ _ _ _ => rfl
    exact ⟨s, hnew, lowerRelation_filter_nil hsupports hs _ _, hsame.permRows, .inl hsame⟩
  · have hsame := s.sameRows_unbounded
    exact ⟨_, hnew, lowerRelation_limit_none hsupports hs _ _, hsame.permRows, .inl hsame⟩
  · refine ⟨_, hnew, lowerRelation_sort_nil hsupports hs _ _, ?_⟩
    cases hlimit : s.isLimited with
    | true =>
      have hsame := s.sameRows_wrap
      exact ⟨hsame.permRows, .inl hsame⟩
    | false =>
      refine ⟨Select.permRows_unordered hlimit, ?_⟩
      cases horder : s.isOrdered with
      | true => exact .inr ⟨rfl, rfl, rfl, rfl⟩
      | false =>
        exact .inl fun _ _ I db => congrArg (·.rows I db) (Select.unordered_eq_self horder)

end Compiler

namespace Node

/-- The first row of `pairs` in the order of `x`. -/
def firstSorted : Node := ⟨.limit sortedPairs (some 1) 0, pairs.type, .tabular⟩

private theorem firstSorted_valid : firstSorted.Valid :=
  ⟨by simp [children, firstSorted, Op.children, sortedPairs_valid], rfl⟩

end Node

namespace Compiler

/-- A sort without keys, on the first row of a sorted table. -/
theorem rows_idle_firstSorted :
    Node.firstSorted.Valid ∧ ∃ s n t, base.lowerRelation Node.firstSorted = .ok s ∧ s.isLimited = true ∧
      s.isOrdered = true ∧ Node.new? (.sort Node.firstSorted []) = .ok n ∧ base.lowerRelation n = .ok t ∧
        t.SameRows s := by
  have hs : base.lowerRelation Node.firstSorted =
      .ok { Select.ofTable "t" with order := [⟨.column "x", true⟩], limit := some 1 } := rfl
  obtain ⟨n, t, hn, ht, -, hrows⟩ := rows_idle Node.firstSorted_valid hs (Node.mem_idle.2 (.inr (.inr rfl))) rfl
  refine ⟨Node.firstSorted_valid, _, n, t, hs, rfl, rfl, hn, ht, hrows.resolve_right ?_⟩
  rintro ⟨-, hlimit, -⟩
  cases hlimit

/-- A sort without keys on a sorted table leaves the rows of the table in the order that they have there. -/
theorem rows_idle_sortedPairs :
    let db name := (Node.pairRows name).reverse
    Node.sortedPairs.Valid ∧
      (base.lowerRelation Node.sortedPairs).map (·.rows .numbers db) =
        .ok [[("x", 1), ("y", 2)], [("x", 2), ("y", 1)]] ∧
        (base.lowerRelation ⟨.sort Node.sortedPairs [], Node.pairs.type, .tabular⟩).map (·.rows .numbers db) =
          .ok [[("x", 2), ("y", 1)], [("x", 1), ("y", 2)]] :=
  ⟨Node.sortedPairs_valid, rfl, rfl⟩

end Compiler

end SqlPlan
