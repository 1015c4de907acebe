import SqlPlan.Proofs.Texts

/-!
# Texts that tell where they end

Two texts are put in front of something each. If the results are the same, so are the two texts, provided that the end
of a text can be seen: words and numbers end where their class of characters does, quoted tokens end at a quote that
is not doubled, and clauses are told apart by the three characters in front of them.

* `class_append_inj`, `quoted_append_inj`: for words and quoted tokens.
* `Told`: the text of an item tells the item apart and where it ends, and so do the texts of lists and clauses.
-/

namespace SqlPlan

open Sql

namespace Sql

/-! ### Words and tokens -/

section

variable {a b r s : List Char}

/-- A text out of one class of characters ends where the class does. -/
theorem class_append_inj {p : Char → Bool} (ha : ∀ c ∈ a, p c = true) (hb : ∀ c ∈ b, p c = true)
    (hr : ∀ c ∈ r.head?, p c = false) (hs : ∀ c ∈ s.head?, p c = false) (h : a ++ r = b ++ s) : a = b ∧ r = s := by
  have hnil : ∀ {c : Char} {cs r : List Char}, p c = true → (∀ c ∈ r.head?, p c = false) → r ≠ c :: cs := by
    rintro c cs r hc hr rfl
    have hfalse := hr c (by simp)
    rw [hc] at hfalse
    cases hfalse
  induction a generalizing b with
  | nil =>
    cases b with
    | nil => exact ⟨rfl, h⟩
    | cons c b => exact absurd h (hnil (hb c (by simp)) hr)
  | cons c a ih =>
    cases b with
    | nil => exact absurd h.symm (hnil (ha c (by simp)) hs)
    | cons d b =>
      obtain ⟨rfl, hrest⟩ := List.cons.inj h
      obtain ⟨rfl, hrs⟩ := ih (fun c hc => ha c (by simp [hc])) (fun c hc => hb c (by simp [hc])) hrest
      exact ⟨rfl, hrs⟩

private theorem doubled_append_inj {q : Char} (hr : r.head? ≠ some q) (hs : s.head? ≠ some q)
    (h : doubled q a ++ q :: r = doubled q b ++ q :: s) : a = b ∧ r = s := by
  -- the quote that ends a token is not doubled, since no quote comes behind it
  have hend : ∀ {c : Char} {cs r x : List Char}, r.head? ≠ some q → q :: r ≠ doubled q (c :: cs) ++ x := by
    intro c cs r x hr h
    rw [doubled_cons] at h
    split at h
    · obtain ⟨-, rfl⟩ := List.cons.inj h
      exact hr rfl
    · rename_i hc
      exact hc (List.cons.inj h).1.symm
  induction a generalizing b with
  | nil =>
    cases b with
    | nil => exact ⟨rfl, (List.cons.inj h).2⟩
    | cons c b => exact absurd h (hend hr)
  | cons c a ih =>
    cases b with
    | nil => exact absurd h.symm (hend hs)
    | cons d b =>
      rw [doubled_cons, doubled_cons] at h
      have hcd : c = d ∧ doubled q a ++ q :: r = doubled q b ++ q :: s := by
        split at h <;> split at h <;> simp_all
      obtain ⟨rfl, hrest⟩ := hcd
      obtain ⟨rfl, hrs⟩ := ih hrest
      exact ⟨rfl, hrs⟩

/-- A quoted token ends at a quote that is not doubled. -/
theorem quoted_append_inj {q : Char} {x y : String} (hr : r.head? ≠ some q) (hs : s.head? ≠ some q)
    (h : (quoted q x).toList ++ r = (quoted q y).toList ++ s) : x = y ∧ r = s := by
  rw [toList_quoted, toList_quoted] at h
  simp only [List.cons_append, List.append_assoc, List.cons.injEq, true_and, List.nil_append] at h
  obtain ⟨hxy, hrest⟩ := doubled_append_inj hr hs h
  exact ⟨String.toList_inj.1 hxy, hrest⟩

/-- Numbers are told apart by their digits, which end where something else comes. -/
private theorem number_append_inj {m n : Nat} (hr : ∀ c ∈ r.head?, c.isDigit = false)
    (hs : ∀ c ∈ s.head?, c.isDigit = false) (h : (toString m).toList ++ r = (toString n).toList ++ s) :
    m = n ∧ r = s := by
  rw [Nat.toString_eq_repr, Nat.toString_eq_repr, Nat.toList_repr, Nat.toList_repr] at h
  have hdigits : ∀ n, ∀ c ∈ Nat.toDigits 10 n, c.isDigit = true := fun _ _ => isDigit_of_mem_toDigits
  obtain ⟨hmn, hrest⟩ := class_append_inj (hdigits m) (hdigits n) hr hs h
  exact ⟨toDigits_injective hmn, hrest⟩

end

/-! ### What comes behind an expression -/

/-- Whether a text may come behind an expression: it is at its end, or goes on with a blank, a bracket or a comma, but
not with one of the clauses `WITHIN GROUP` and `FILTER` that belong to a call. -/
def isStop (r : List Char) : Bool :=
  r.head?.all (fun c => c == ' ' || c == ')' || c == ',') && r.take 3 != [' ', 'W', 'I'] &&
    r.take 3 != [' ', 'F', 'I']

/-- Whether a text may come behind a statement: it is at its end, or goes on with a bracket. -/
def isEnd (r : List Char) : Bool := r.head?.all (· == ')')

/-- A text may come behind a statement, or starts with one of some three characters. -/
def Follows (marks : List (List Char)) (r : List Char) : Prop := isEnd r = true ∨ r.take 3 ∈ marks

section

variable {r : List Char}

/-- What may come behind an expression starts with a blank, a bracket or a comma. -/
theorem head?_of_isStop (h : isStop r = true) : ∀ c ∈ r.head?, c = ' ' ∨ c = ')' ∨ c = ',' := by
  intro c hc
  simp only [isStop, Bool.and_eq_true] at h
  have hhead := h.1.1
  rw [Option.mem_def.1 hc] at hhead
  simpa [or_assoc] using hhead

theorem take_of_isStop (h : isStop r = true) : r.take 3 ≠ [' ', 'W', 'I'] ∧ r.take 3 ≠ [' ', 'F', 'I'] := by
  simp only [isStop, Bool.and_eq_true, bne_iff_ne] at h
  exact ⟨h.1.2, h.2⟩

/-- Nothing that stops an expression is in one of the classes of characters. -/
theorem class_of_isStop (h : isStop r = true) {p : Char → Bool} (hp : ∀ c ∈ [' ', ')', ','], p c = false) :
    ∀ c ∈ r.head?, p c = false := by
  intro c hc
  exact hp c (by simpa using head?_of_isStop h c hc)

theorem head?_ne_of_isStop (h : isStop r = true) {d : Char} (hd : d ∉ [' ', ')', ',']) : r.head? ≠ some d := by
  intro hc
  exact hd (by simpa using head?_of_isStop h d hc)

/-- What may come behind a statement may come behind an expression. -/
theorem isStop_of_isEnd (h : isEnd r = true) : isStop r = true := by
  cases r with
  | nil => rfl
  | cons c r =>
    obtain rfl : c = ')' := by simpa [isEnd] using h
    rfl

variable {marks : List (List Char)}

/-- What comes behind a clause may come behind an expression, if this is so for the clauses that may follow. -/
theorem Follows.isStop (h : Follows marks r) (hmarks : ∀ m ∈ marks, Sql.isStop m = true) : Sql.isStop r = true := by
  rcases h with h | h
  · exact isStop_of_isEnd h
  · have htake : (r.take 3).head? = r.head? := by cases r <;> rfl
    have hstop := hmarks _ h
    rwa [Sql.isStop, htake, List.take_take] at hstop

/-- A clause that may not follow does not. -/
theorem Follows.take_ne (h : Follows marks r) {m : List Char} (hhead : m.head? = some ' ') (hm : m ∉ marks) :
    r.take 3 ≠ m := by
  rintro rfl
  rcases h with h | h
  · cases r with
    | nil => cases hhead
    | cons c r =>
      obtain rfl : c = ')' := by simpa [isEnd] using h
      cases hhead
  · exact hm h

theorem Follows.head?_ne_comma (h : Follows marks r) (hmarks : ∀ m ∈ marks, m.head? ≠ some ',') :
    r.head? ≠ some ',' := by
  rcases h with h | h
  · intro hcomma
    rw [isEnd, hcomma] at h
    cases h
  · have htake : (r.take 3).head? = r.head? := by cases r <;> rfl
    rw [← htake]
    exact hmarks _ h

theorem Follows.mono (h : Follows marks r) (m : List Char) : Follows (m :: marks) r :=
  h.imp id (List.mem_cons_of_mem m)

end

/-! ### Lists and clauses -/

section

variable {α : Type} {f : α → String} {V : α → Prop} {K : List Char → Prop}

/-- The text of an item tells the item apart, and where it ends, if the items of `V` may stand in its place and the
texts of `K` behind it. -/
def Told (f : α → String) (V : α → Prop) (K : List Char → Prop) (a : α) : Prop :=
  ∀ b, V b → ∀ r s, K r → K s → (f a).toList ++ r = (f b).toList ++ s → a = b ∧ r = s

variable {as bs : List α} {r s : List Char}

/-- Texts are joined by a comma and a blank. -/
theorem toList_joined_cons (a b : String) (texts : List String) :
    (joined (a :: b :: texts)).toList = a.toList ++ ',' :: ' ' :: (joined (b :: texts)).toList := by
  simp [joined, String.intercalate_cons_cons]

/-- A list with commas between its items ends where no comma comes. -/
theorem joined_append_inj (hcomma : ∀ r, K (',' :: r)) (has : ∀ a ∈ as, Told f V K a) (hbs : ∀ b ∈ bs, V b)
    (hempty : as = [] ↔ bs = []) (hr : K r ∧ r.head? ≠ some ',') (hs : K s ∧ s.head? ≠ some ',')
    (h : (joined (as.map f)).toList ++ r = (joined (bs.map f)).toList ++ s) : as = bs ∧ r = s := by
  induction as generalizing bs with
  | nil =>
    obtain rfl := hempty.1 rfl
    exact ⟨rfl, h⟩
  | cons a as ih =>
    cases bs with
    | nil => cases hempty.2 rfl
    | cons b bs =>
      obtain ⟨ha, has⟩ := List.forall_mem_cons.1 has
      obtain ⟨hb, hbs⟩ := List.forall_mem_cons.1 hbs
      cases as with
      | nil =>
        cases bs with
        | nil =>
          obtain ⟨rfl, hrest⟩ := ha b hb r s hr.1 hs.1 (by simpa [joined] using h)
          exact ⟨rfl, hrest⟩
        | cons b' bs =>
          simp only [List.map_cons, toList_joined_cons, List.append_assoc, List.cons_append] at h
          obtain ⟨-, hrest⟩ := ha b hb r _ hr.1 (hcomma _) (by simpa [joined] using h)
          -- the second list goes on with a comma where the first one ends
          exact absurd (congrArg List.head? hrest) hr.2
      | cons a' as =>
        cases bs with
        | nil =>
          simp only [List.map_cons, toList_joined_cons, List.append_assoc, List.cons_append] at h
          obtain ⟨-, hrest⟩ := ha b hb _ s (hcomma _) hs.1 (by simpa [joined] using h)
          exact absurd (congrArg List.head? hrest).symm hs.2
        | cons b' bs =>
          simp only [List.map_cons, toList_joined_cons, List.append_assoc, List.cons_append] at h
          obtain ⟨hab, hrest⟩ := ha b hb _ _ (hcomma _) (hcomma _) h
          obtain ⟨hlists, hrs⟩ := ih has hbs (by simp) (List.cons.inj (List.cons.inj hrest).2).2
          exact ⟨by rw [hab, hlists], hrs⟩

/-- A clause is not there if what comes does not start as it opens. -/
private theorem not_opened {opening : String} (hopening : 3 ≤ opening.toList.length)
    (hr : r.take 3 ≠ opening.toList.take 3) {x : List Char} (h : r = opening.toList ++ x) : False := by
  rw [h, List.take_append_of_le_length hopening] at hr
  exact hr rfl

/-- A clause is there if what comes starts as it opens. -/
theorem clause_append_inj {opening closing : String} (hopening : 3 ≤ opening.toList.length)
    (hcomma : ∀ r, K (',' :: r)) (has : ∀ a ∈ as, Told f V K a) (hbs : ∀ b ∈ bs, V b)
    (hr : r.take 3 ≠ opening.toList.take 3) (hs : s.take 3 ≠ opening.toList.take 3)
    (hr' : K (closing.toList ++ r) ∧ (closing.toList ++ r).head? ≠ some ',')
    (hs' : K (closing.toList ++ s) ∧ (closing.toList ++ s).head? ≠ some ',')
    (h : (clause opening (as.map f) closing).toList ++ r = (clause opening (bs.map f) closing).toList ++ s) :
    as = bs ∧ r = s := by
  cases as with
  | nil =>
    cases bs with
    | nil => exact ⟨rfl, by simpa [clause] using h⟩
    | cons b bs =>
      exact (not_opened hopening hr (show r = opening.toList ++ _ by simpa [clause] using h)).elim
  | cons a as =>
    cases bs with
    | nil =>
      exact (not_opened hopening hs (show s = opening.toList ++ _ by simpa [clause] using h.symm)).elim
    | cons b bs =>
      obtain ⟨hlists, hrest⟩ := joined_append_inj hcomma has hbs (by simp) hr' hs' (by simpa [clause] using h)
      exact ⟨hlists, List.append_cancel_left hrest⟩

/-- An optional clause is told by its opening, which is not what comes behind it. -/
theorem optionText_append_inj {V : Expr → Prop} {o o' : Option Expr} {opening closing : String}
    (hopening : 3 ≤ opening.toList.length) (ho : ∀ e ∈ o, Told Expr.text V K e) (ho' : ∀ e ∈ o', V e)
    (hr : r.take 3 ≠ opening.toList.take 3) (hs : s.take 3 ≠ opening.toList.take 3) (hr' : K (closing.toList ++ r))
    (hs' : K (closing.toList ++ s))
    (h : (optionText opening o closing).toList ++ r = (optionText opening o' closing).toList ++ s) :
    o = o' ∧ r = s := by
  cases o with
  | none =>
    cases o' with
    | none => exact ⟨rfl, by simpa [optionText] using h⟩
    | some e =>
      exact (not_opened hopening hr (show r = opening.toList ++ _ by simpa [optionText] using h)).elim
  | some e =>
    cases o' with
    | none =>
      exact (not_opened hopening hs (show s = opening.toList ++ _ by simpa [optionText] using h.symm)).elim
    | some e' =>
      obtain ⟨rfl, hrest⟩ := ho e rfl e' (ho' e' rfl) _ _ hr' hs' (by simpa [optionText] using h)
      exact ⟨rfl, List.append_cancel_left hrest⟩

/-- A clause with a number is told by its opening, and the number by the end of its digits. -/
theorem numberClause_append_inj {n n' : Option UInt64} {opening : String} (hopening : 3 ≤ opening.toList.length)
    (hr : r.take 3 ≠ opening.toList.take 3) (hs : s.take 3 ≠ opening.toList.take 3)
    (hr' : ∀ c ∈ r.head?, c.isDigit = false) (hs' : ∀ c ∈ s.head?, c.isDigit = false)
    (h : (numberClause opening n).toList ++ r = (numberClause opening n').toList ++ s) : n = n' ∧ r = s := by
  cases n with
  | none =>
    cases n' with
    | none => exact ⟨rfl, by simpa [numberClause] using h⟩
    | some n =>
      exact (not_opened hopening hr (show r = opening.toList ++ _ by simpa [numberClause] using h)).elim
  | some n =>
    cases n' with
    | none =>
      exact (not_opened hopening hs (show s = opening.toList ++ _ by simpa [numberClause] using h.symm)).elim
    | some n' =>
      rw [numberClause, numberClause, String.toList_append, String.toList_append, List.append_assoc,
        List.append_assoc] at h
      obtain ⟨hn, hrest⟩ := number_append_inj hr' hs' (List.append_cancel_left h)
      exact ⟨congrArg some (UInt64.toNat_inj.1 hn), hrest⟩

end

/-! ### What starts with a clause -/

section

variable {K : List Char → Prop} {r : List Char} {opening : String}

/-- `K` holds with a clause in front if it holds of everything that the clause opens, and without it. -/
theorem clause_append (hopening : ∀ x, K (opening.toList ++ x)) (hr : K r) (texts : List String) (closing : String) :
    K ((clause opening texts closing).toList ++ r) := by
  unfold clause
  split
  · exact hr
  · simpa using hopening _

theorem optionText_append (hopening : ∀ x, K (opening.toList ++ x)) (hr : K r) (o : Option Expr) (closing : String) :
    K ((optionText opening o closing).toList ++ r) := by
  cases o with
  | none => exact hr
  | some e => simpa [optionText] using hopening _

theorem branchesText_append (hopening : ∀ x, K (" WHEN ".toList ++ x)) (hr : K r) (branches : List (Branch Expr)) :
    K ((branchesText branches).toList ++ r) := by
  cases branches with
  | nil => exact hr
  | cons b branches => simpa [branchesText] using hopening _

/-- What comes behind the operand of a `CASE`. -/
theorem caseRest_append (hwhen : ∀ x, K (" WHEN ".toList ++ x)) (helse : ∀ x, K (" ELSE ".toList ++ x))
    (hend : K (" END".toList ++ r)) (branches : List (Branch Expr)) (default : Option Expr) :
    K ((branchesText branches).toList ++ ((optionText " ELSE " default "").toList ++ (" END".toList ++ r))) :=
  branchesText_append hwhen (optionText_append helse hend default "") branches

theorem numberClause_append (hopening : ∀ x, K (opening.toList ++ x)) (hr : K r) (n : Option UInt64) :
    K ((numberClause opening n).toList ++ r) := by
  cases n with
  | none => exact hr
  | some n => simpa [numberClause] using hopening _

end

end Sql

end SqlPlan
