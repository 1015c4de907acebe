import Mathlib.Data.List.Forall2
import SqlPlan.Compiler.Value

/-!
# The results of compilation

A step of compilation returns a value or an error. `Tracks` compares two such results, with `Agree` and `KeptBy` as
its two cases. `Returns P` speaks about the value if there is one, `Succeeds` says that there is one, and
`Decided P A` says when there is one and what the error is otherwise. All of them pass through a sequence of steps, so
that a statement about a compiled node is put together from statements about its steps.
-/

namespace SqlPlan

variable {ε α β γ δ : Type}

/-- A sequence succeeds if its steps do. -/
theorem bind_eq_ok {x : Except ε α} {f : α → Except ε β} {b : β} :
    (x >>= f) = .ok b ↔ ∃ a, x = .ok a ∧ f a = .ok b := by
  cases x <;> simp [bind, Except.bind]

theorem map_eq_ok {x : Except ε α} {f : α → β} {b : β} : x.map f = .ok b ↔ ∃ a, x = .ok a ∧ f a = b := by
  cases x <;> simp [Except.map]

theorem mapError_eq_ok {ε' : Type} {x : Except ε α} {f : ε → ε'} {a : α} : x.mapError f = .ok a ↔ x = .ok a := by
  cases x <;> simp [Except.mapError]

theorem map_bind_eq {x : Except ε α} {f : α → Except ε β} {g : β → γ} :
    (x >>= f).map g = x >>= fun a => (f a).map g := by
  cases x <;> rfl

theorem pure_eq_ok {a b : α} : (pure a : Except ε α) = .ok b ↔ a = b := by simp [pure, Except.pure]

/-- What holds of the elements of one list if and only if something holds of those of another one does so of all of
them together. -/
theorem forall_mem_iff_of_forall₂ {P : α → Prop} {Q : β → Prop} {as : List α} {bs : List β}
    (h : List.Forall₂ (fun a b => Q b ↔ P a) as bs) : (∀ b ∈ bs, Q b) ↔ ∀ a ∈ as, P a := by
  induction h with
  | nil => simp
  | cons head _ ih => rw [List.forall_mem_cons, List.forall_mem_cons, head, ih]

/-- What holds of the second entries of all pairs holds of the second list. -/
theorem forall_mem_of_forall₂ {Q : β → Prop} {as : List α} {bs : List β} (h : List.Forall₂ (fun _ b => Q b) as bs) :
    ∀ b ∈ bs, Q b := by
  induction h with
  | nil => simp
  | cons head _ ih => exact List.forall_mem_cons.2 ⟨head, ih⟩

/-- A check succeeds if its condition holds. -/
theorem ite_ok_eq_ok {p : Prop} [Decidable p] {a b : α} {e : ε} :
    (if p then .ok a else .error e : Except ε α) = .ok b ↔ p ∧ a = b := by
  split <;> simp_all

/-- What comes behind a check succeeds if the check and itself do. -/
theorem ite_error_eq_ok {p : Prop} [Decidable p] {x : Except ε α} {b : α} {e : ε} :
    (if p then .error e else x) = .ok b ↔ ¬p ∧ x = .ok b := by
  split <;> simp_all

/-! ### Two results -/

/-- The second result tracks the first one: values are related by `R`, and errors are the same. If `lenient`, anything
tracks an error. -/
inductive Tracks (lenient : Prop) (R : α → β → Prop) : Except ε α → Except ε β → Prop
  | ok {a : α} {b : β} (related : R a b) : Tracks lenient R (.ok a) (.ok b)
  | error (e : ε) : Tracks lenient R (.error e) (.error e)
  | lost (h : lenient) (e : ε) (y : Except ε β) : Tracks lenient R (.error e) y

/-- The two results are the same error, or values in the relation `R`. -/
abbrev Agree (R : α → β → Prop) : Except ε α → Except ε β → Prop := Tracks False R

/-- The value that the first result returns, if any, is returned by the second one as well. -/
abbrev KeptBy : Except ε α → Except ε α → Prop := Tracks True Eq

namespace Tracks

variable {lenient : Prop} {R : α → β → Prop} {S : γ → δ → Prop} {x : Except ε α} {y : Except ε β}

/-- A sequence tracks another one if its steps do. -/
theorem bind {f : α → Except ε γ} {g : β → Except ε δ} (h : Tracks lenient R x y)
    (next : ∀ a b, x = .ok a → y = .ok b → R a b → Tracks lenient S (f a) (g b)) :
    Tracks lenient S (x >>= f) (y >>= g) := by
  cases h with
  | ok related => exact next _ _ rfl rfl related
  | error e => exact .error e
  | lost h e y => exact .lost h e _

theorem map {f : α → γ} {g : β → δ} (h : Tracks lenient R x y) (next : ∀ a b, R a b → S (f a) (g b)) :
    Tracks lenient S (x.map f) (y.map g) := by
  cases h with
  | ok related => exact .ok (next _ _ related)
  | error e => exact .error e
  | lost h e y => exact .lost h e _

theorem mono {R' : α → β → Prop} (h : Tracks lenient R x y) (weaker : ∀ a b, R a b → R' a b) :
    Tracks lenient R' x y := by
  cases h with
  | ok related => exact .ok (weaker _ _ related)
  | error e => exact .error e
  | lost h e y => exact .lost h e y

theorem refl {R : α → α → Prop} (h : ∀ a, R a a) (x : Except ε α) : Tracks lenient R x x := by
  cases x with
  | ok a => exact .ok (h a)
  | error e => exact .error e

/-- Lists of results that track each other one by one do so as a whole. -/
theorem collect {xs : List (Except ε α)} {ys : List (Except ε β)} (h : List.Forall₂ (Tracks lenient R) xs ys) :
    Tracks lenient (List.Forall₂ R) (collect xs) (collect ys) := by
  induction h with
  | nil => exact .ok .nil
  | cons head _ ih =>
    refine head.bind fun a b _ _ hab => ?_
    refine ih.bind fun as bs _ _ htail => ?_
    exact .ok (.cons hab htail)

/-- Lists of steps track each other if their steps do. The second list may be over other items. -/
theorem collect_map {σ τ : Type} {f : σ → Except ε α} {g : τ → Except ε β} {k : σ → τ} {as : List σ}
    (h : ∀ a ∈ as, Tracks lenient R (f a) (g (k a))) :
    Tracks lenient (List.Forall₂ R) (SqlPlan.collect (as.map f)) (SqlPlan.collect ((as.map k).map g)) := by
  refine collect ?_
  rw [List.map_map, List.forall₂_map_left_iff, List.forall₂_map_right_iff, List.forall₂_same]
  exact h

end Tracks

namespace Agree

variable {R : α → β → Prop} {x : Except ε α} {y : Except ε β}

/-- Results that agree are the same under functions that do not tell related values apart. -/
theorem map_eq {f : α → γ} {g : β → γ} (h : Agree R x y) (same : ∀ a b, R a b → f a = g b) : x.map f = y.map g := by
  cases h with
  | ok related => exact congrArg Except.ok (same _ _ related)
  | error e => rfl
  | lost h => exact h.elim

theorem map_eq_right {f : α → β} (h : Agree (fun a b => f a = b) x y) : x.map f = y := by
  cases h with
  | ok related => exact congrArg Except.ok related
  | error e => rfl
  | lost h => exact h.elim

/-- A step that returns a value in one of two results returns a related one in the other. -/
theorem exists_of_eq_ok {b : β} (h : Agree R x y) (hy : y = .ok b) : ∃ a, x = .ok a ∧ R a b := by
  subst hy
  cases h with
  | ok related => exact ⟨_, rfl, related⟩
  | lost h => exact h.elim

end Agree

namespace KeptBy

variable {x y : Except ε α}

/-- A result that is kept is the result of both. -/
theorem eq_ok {a : α} (h : KeptBy x y) (hx : x = .ok a) : y = .ok a := by
  subst hx
  cases h with
  | ok related => rw [related]

theorem refl (x : Except ε α) : KeptBy x x := Tracks.refl (fun _ => rfl) x

theorem error (e : ε) (y : Except ε α) : KeptBy (.error e) y := .lost True.intro e y

theorem of_eq (h : x = y) : KeptBy x y := h ▸ refl x

/-- A sequence is kept by another one if its steps are. -/
theorem bind {f g : α → Except ε β} (h : KeptBy x y) (next : ∀ a, KeptBy (f a) (g a)) :
    KeptBy (x >>= f) (y >>= g) := by
  refine Tracks.bind h fun a b _ _ hab => ?_
  subst hab
  exact next a

/-- A step that only puts the value of another one into something keeps what that one keeps. -/
theorem bind_pure {f : α → β} (h : KeptBy x y) :
    KeptBy (x >>= fun a => (pure (f a) : Except ε β)) (y >>= fun a => pure (f a)) :=
  h.bind fun _ => refl _

theorem map {f : α → β} (h : KeptBy x y) : KeptBy (x.map f) (y.map f) :=
  Tracks.map h fun _ _ hab => congrArg f hab

theorem collect_map {f g : β → Except ε α} {bs : List β} (h : ∀ b ∈ bs, KeptBy (f b) (g b)) :
    KeptBy (collect (bs.map f)) (collect (bs.map g)) := by
  have htracks := Tracks.collect_map (k := id) h
  rw [List.map_id] at htracks
  exact htracks.mono fun _ _ hall => List.forall₂_eq_eq_eq ▸ hall

theorem ite {p : Prop} [Decidable p] {x' y' : Except ε α} (h : KeptBy x y) (h' : KeptBy x' y') :
    KeptBy (if p then x else x') (if p then y else y') := by
  split
  · exact h
  · exact h'

end KeptBy

/-! ### Returned values -/

/-- The value that is returned, if any, satisfies `P`. -/
def Returns (P : α → Prop) (x : Except ε α) : Prop := ∀ a, x = .ok a → P a

namespace Returns

variable {P : α → Prop} {Q : β → Prop} {x : Except ε α}

theorem ok {a : α} (h : P a) : Returns P (.ok a : Except ε α) := by
  intro b hb
  cases hb
  exact h

theorem error (e : ε) : Returns P (.error e) := by
  intro a ha
  cases ha

/-- A postcondition of a sequence is one of its last step. -/
theorem bind {f : α → Except ε β} (h : Returns P x) (next : ∀ a, P a → Returns Q (f a)) :
    Returns Q (x >>= f) := by
  intro b hb
  obtain ⟨a, ha, hfa⟩ := bind_eq_ok.1 hb
  exact next a (h a ha) b hfa

theorem map {f : α → β} (h : Returns P x) (next : ∀ a, P a → Q (f a)) : Returns Q (x.map f) := by
  cases x with
  | error e => exact error e
  | ok a => exact ok (next a (h a rfl))

theorem mono {P' : α → Prop} (h : Returns P x) (weaker : ∀ a, P a → P' a) : Returns P' x :=
  fun a ha => weaker a (h a ha)

theorem trivial (x : Except ε α) : Returns (fun _ => True) x := fun _ _ => True.intro

/-- The results of a list come from its elements one by one. -/
theorem collect_map {Q : α → β → Prop} {f : α → Except ε β} {as : List α} (h : ∀ a ∈ as, Returns (Q a) (f a)) :
    Returns (List.Forall₂ Q as) (collect (as.map f)) := by
  induction as with
  | nil => exact ok .nil
  | cons a as ih =>
    obtain ⟨ha, has⟩ := List.forall_mem_cons.1 h
    exact ha.bind fun b hb => (ih has).bind fun bs hbs => ok (.cons hb hbs)

end Returns

/-- A run tracks itself if its result is related to itself. -/
theorem Tracks.of_returns {lenient : Prop} {R : α → α → Prop} {x : Except ε α} (h : Returns (fun a => R a a) x) :
    Tracks lenient R x x := by
  cases x with
  | ok a => exact .ok (h a rfl)
  | error e => exact .error e

/-! ### Success -/

/-- A value is returned. -/
def Succeeds (x : Except ε α) : Prop := ∃ a, x = .ok a

section

variable {x : Except ε α} {P : Prop}

@[simp] theorem succeeds_ok (a : α) : Succeeds (.ok a : Except ε α) := ⟨a, rfl⟩

@[simp] theorem not_succeeds_error (e : ε) : ¬Succeeds (.error e : Except ε α) := by simp [Succeeds]

/-- A sequence of steps succeeds if all of them do. -/
theorem succeeds_bind {f : α → Except ε β} (h : ∀ a, x = .ok a → (Succeeds (f a) ↔ P)) :
    Succeeds (x >>= f) ↔ Succeeds x ∧ P := by
  cases x with
  | ok a => exact (h a rfl).trans (by simp)
  | error e => exact iff_of_false (not_succeeds_error e) fun h => not_succeeds_error e h.1

/-- A last step that cannot fail does not matter. -/
theorem succeeds_bind_pure {f : α → β} : Succeeds (x >>= fun a => (pure (f a) : Except ε β)) ↔ Succeeds x := by
  cases x with
  | ok a => exact iff_of_true (succeeds_ok (f a)) (succeeds_ok a)
  | error e => exact iff_of_false (not_succeeds_error e) (not_succeeds_error e)

end

/-! ### Conditions -/

/-- A value is returned if `A`, and an error out of `P` otherwise. -/
inductive Decided (P : ε → Prop) (A : Prop) : Except ε α → Prop
  | ok (h : A) (a : α) : Decided P A (.ok a)
  | error (h : ¬A) {e : ε} (he : P e) : Decided P A (.error e)

namespace Decided

variable {P : ε → Prop} {A B : Prop} {x : Except ε α}

theorem pure (a : α) : Decided P True (.ok a : Except ε α) := .ok True.intro a

theorem congr (h : Decided P A x) (hAB : A ↔ B) : Decided P B x := by
  cases h with
  | ok h a => exact .ok (hAB.1 h) a
  | error h he => exact .error (mt hAB.2 h) he

/-- A step that is decided by a condition succeeds just if it holds. -/
theorem succeeds_iff (h : Decided P A x) : Succeeds x ↔ A := by
  cases h with
  | ok h a => exact iff_of_true (succeeds_ok a) h
  | error h => exact iff_of_false (not_succeeds_error _) h

/-- A step that is decided fails with one of the errors only. -/
theorem of_eq_error {e : ε} (h : Decided P A x) (he : x = .error e) : P e := by
  subst he
  cases h with
  | error _ he => exact he

/-- A sequence is decided by the conditions of its steps. -/
theorem bind {f : α → Except ε β} (h : Decided P A x) (next : ∀ a, x = .ok a → Decided P B (f a)) :
    Decided P (A ∧ B) (x >>= f) := by
  cases h with
  | ok h a => exact (next a rfl).congr (and_iff_right h).symm
  | error h he => exact .error (fun hAB => h hAB.1) he

theorem bind_pure {f : α → β} (h : Decided P A x) : Decided P A (x >>= fun a => (Pure.pure (f a) : Except ε β)) :=
  (h.bind fun a _ => pure (f a)).congr (and_iff_left True.intro)

theorem map {f : α → β} (h : Decided P A x) : Decided P A (x.map f) := by
  cases h with
  | ok h a => exact .ok h _
  | error h he => exact .error h he

/-- The steps of a list are decided by the conditions of all of them. -/
theorem collect_map {A : β → Prop} {f : β → Except ε α} {bs : List β} (h : ∀ b ∈ bs, Decided P (A b) (f b)) :
    Decided P (∀ b ∈ bs, A b) (collect (bs.map f)) := by
  induction bs with
  | nil => exact .ok (by simp) []
  | cons b bs ih =>
    obtain ⟨hb, hbs⟩ := List.forall_mem_cons.1 h
    exact (hb.bind fun _ _ => (ih hbs).bind_pure).congr List.forall_mem_cons.symm

end Decided

end SqlPlan
