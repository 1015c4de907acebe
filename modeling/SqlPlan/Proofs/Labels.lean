import SqlPlan.Proofs.Aggregates
import SqlPlan.Proofs.Numerals

/-!
# Labels of nested statements

A statement becomes the source of another one by wrapping, and is then labelled with its depth. Later operations
replace clauses of the outer statement, and copies of both stand in statements for single values, but a nested
statement and its label stay together. So the labels along the sources count from the inside out.

* `Select.AllLabelled.labels_eq`: the labels along the sources, if every label is that of the depth below it.
* `Lowers.allLabelled`: operations keep the labels, or label their parent.
* `labels_lowerRelation`: the labels in compiled relations, at every depth.
-/

namespace SqlPlan

open Sql

namespace Sql

/-! ### Labels along the sources -/

/-- The label of a statement over so many others. -/
def depthLabel (depth : Nat) : String := "t" ++ toString depth

private theorem depthLabel_injective : Function.Injective depthLabel := by
  intro m n h
  have htext : toString m = toString n := (String.append_right_inj "t").1 h
  refine toDigits_injective ?_
  simpa [Nat.toList_repr] using congrArg String.toList htext

namespace Select

mutual

/-- The labels of the statements along the sources, from the inside out. -/
def labels : Select → List String
  | ⟨_, source, _, _, _, _, _⟩ => sourceLabels source

def sourceLabels : Source → List String
  | .table _ => []
  | .subquery query label => labels query ++ [label]

end

/-- All labels of nested statements, in the statement and in all statements in it, are those of their depths. -/
abbrev AllLabelled (s : Select) : Prop := s.Throughout (fun _ => True) Labelled

/-- The labels count the statements, by induction along the sources. -/
theorem AllLabelled.labels_eq {s : Select} (h : s.AllLabelled) : s.labels = (List.range s.depth).map depthLabel := by
  refine (throughout_induction (M := fun _ => True) (N := fun s => s.labels = (List.range s.depth).map depthLabel)
    (fun _ _ _ _ => True.intro) fun s hs _ ih => ?_).2 s h
  obtain ⟨projection, source, selection, groups, order, limit, offset⟩ := s
  cases source with
  | table name => rfl
  | subquery q label =>
    obtain rfl : label = depthLabel q.depth := hs.here q label rfl
    rw [labels, sourceLabels, ih q _ rfl, depth, sourceDepth, List.range_succ, List.map_append, List.map_singleton]

private theorem AllLabelled.nodup_labels {s : Select} (h : s.AllLabelled) : s.labels.Nodup := by
  rw [h.labels_eq]
  exact List.nodup_range.map depthLabel_injective

end Select

end Sql

/-! ### Compiled relations -/

namespace Compiler

variable {c : Compiler} {n : Node} {s : Select}

/-- All labels in a compiled relation are those of the depths, by induction over the operations. -/
theorem Lowers.allLabelled (h : c.Lowers n s) : s.AllLabelled := by
  refine h.parent_induction (motive := fun _ s => s.AllLabelled) fun h hparent => ?_
  refine (h.throughout_iff_here Select.labelled_wrap (fun t ht => ht.of_source rfl)
    (fun t _ _ ht => ht.of_source rfl) hparent).2 (h.labelled fun parent t hrelation ht => ?_)
  exact (hparent parent t hrelation ht).here

/-- In every statement of a compiled relation, at every depth, a statement in the source has the label `t` with its
depth. So the labels along the sources are `t0`, `t1` and so on from the inside out, and no two of them are the
same. -/
theorem labels_lowerRelation {t : Select} (hs : c.lowerRelation n = .ok s) (ht : s.Contains t) :
    (∀ q label, t.source = .subquery q label → label = "t" ++ toString q.depth) ∧
      t.labels = (List.range t.depth).map (fun depth => "t" ++ toString depth) ∧ t.labels.Nodup := by
  have hall : t.AllLabelled := fun u hu => (c.lowers_of_lowerRelation hs).allLabelled u (ht.trans hu)
  exact ⟨hall.here, hall.labels_eq, hall.nodup_labels⟩

end Compiler

namespace Node

/-- The first two of the first five rows of `rankedBelowSum`. -/
def rankedBelowSumCutTwice : Node :=
  let five : Node := ⟨.limit rankedBelowSum (some 5) 0, rankedBelowSum.type, .tabular⟩
  ⟨.limit five (some 2) 0, rankedBelowSum.type, .tabular⟩

end Node

/-- The first row is read by the statement inside and by the statement for the sum, both times as `t0`. -/
theorem Compiler.labels_lowerRelation_rankedBelowSumCutTwice :
    ∃ s, base.lowerRelation Node.rankedBelowSumCutTwice = .ok s ∧
      s.text = "SELECT * FROM (SELECT \"y\" AS \"z\" FROM (SELECT * FROM \"t\" LIMIT 1) AS t0 WHERE (\"x\" < " ++
        "(SELECT SUM(\"x\") FROM (SELECT * FROM \"t\" LIMIT 1) AS t0)) ORDER BY \"z\" ASC LIMIT 5) AS t1 LIMIT 2" ∧
      s.labels = ["t0", "t1"] ∧ ∀ t, s.Contains t → t.Labelled ∧ t.labels.Nodup := by
  refine ⟨_, rfl, by decide +kernel, by decide +kernel, fun t ht => ?_⟩
  have hlabels := labels_lowerRelation (c := base) (n := .rankedBelowSumCutTwice) rfl ht
  exact ⟨hlabels.1, hlabels.2.2⟩

end SqlPlan
