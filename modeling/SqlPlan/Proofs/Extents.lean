import Mathlib.Data.List.Perm.Basic
import Mathlib.Order.Lattice
import SqlPlan.Proofs.Promotion

/-!
# Common types of primitive types

The common type of a list of primitive types is joined from the left. For integers alone and for types other than
numbers the order does not matter. Beside a float or a decimal it may: two integers with and without a sign can need
more room together than each of them, and they are seen together only when they are joined first.

* `join?_of_not_isInteger`: the common type beside a float or a decimal is the least one with room for both.
* `foldlM_join?_between`: the common type of numbers lies between those for the two extreme orders.
* `Settled.eq_of_perm`: if the two extreme orders agree, all orders do.
-/

namespace SqlPlan

/-! ### The room that numbers need -/

namespace Primitive

/-- Precisions fit into a byte. -/
theorem toNat_precision (n : Nat) : (UInt8.ofNat (min n maxPrecision)).toNat = min n maxPrecision :=
  UInt8.toNat_ofNat_of_lt (Nat.lt_of_le_of_lt (Nat.min_le_right ..) (by decide))

private theorem decimalFor_eq_iff {i j : Nat} {s t : UInt8} :
    decimalFor i s = decimalFor j t ↔
      min (i + s.toNat) maxPrecision = min (j + t.toNat) maxPrecision ∧ s = t := by
  rw [decimalFor, decimalFor, decimal.injEq, ← UInt8.toNat_inj, toNat_precision,
    toNat_precision]

end Primitive

/-- What a type of numbers has room for: whether it is a float, whether a float for its values takes 64 bits, and its
digits before and after the point. -/
@[ext] structure Extent where
  floating : Bool
  wide : Bool
  integral : Nat
  places : UInt8
deriving DecidableEq

namespace Extent

instance : Max Extent :=
  ⟨fun e f => ⟨e.floating || f.floating, e.wide || f.wide, max e.integral f.integral, max e.places f.places⟩⟩

instance : SemilatticeSup Extent :=
  SemilatticeSup.mk'
    (fun _ _ => Extent.ext (Bool.or_comm ..) (Bool.or_comm ..) (Nat.max_comm ..)
      (UInt8.toNat_inj.1 ((UInt8.toNat_max ..).trans ((Nat.max_comm ..).trans (UInt8.toNat_max ..).symm))))
    (fun e f g => Extent.ext (Bool.or_assoc ..) (Bool.or_assoc ..) (Nat.max_assoc ..)
      (UInt8.toNat_inj.1 (by
        change (max (max e.places f.places) g.places).toNat = (max e.places (max f.places g.places)).toNat
        simp only [UInt8.toNat_max, Nat.max_assoc])))
    (fun _ => Extent.ext (Bool.or_self _) (Bool.or_self _) (Nat.max_self _)
      (UInt8.toNat_inj.1 ((UInt8.toNat_max ..).trans (Nat.max_self _))))

instance : OrderBot Extent where
  bot := ⟨false, false, 0, 0⟩
  bot_le _ := Extent.ext (Bool.false_or _) (Bool.false_or _) (Nat.zero_max _)
    (UInt8.toNat_inj.1 ((UInt8.toNat_max ..).trans (Nat.zero_max _)))

variable {e f g : Extent}

instance : Decidable (e ≤ f) := decidable_of_iff (e ⊔ f = f) sup_eq_right

@[simp] theorem floating_sup : (e ⊔ f).floating = (e.floating || f.floating) := rfl

@[simp] theorem wide_sup : (e ⊔ f).wide = (e.wide || f.wide) := rfl

@[simp] theorem integral_sup : (e ⊔ f).integral = max e.integral f.integral := rfl

@[simp] theorem toNat_places_sup : (e ⊔ f).places.toNat = max e.places.toNat f.places.toNat := UInt8.toNat_max ..

private theorem floating_of_le (h : e ≤ f) (he : e.floating = true) : f.floating = true := by
  rw [← sup_eq_right.2 h, floating_sup, he, Bool.true_or]

private theorem wide_of_le (h : e ≤ f) (he : e.wide = true) : f.wide = true := by
  rw [← sup_eq_right.2 h, wide_sup, he, Bool.true_or]

private theorem integral_le (h : e ≤ f) : e.integral ≤ f.integral := by
  rw [← sup_eq_right.2 h, integral_sup]
  exact Nat.le_max_left ..

private theorem places_le (h : e ≤ f) : e.places.toNat ≤ f.places.toNat := by
  rw [← sup_eq_right.2 h, toNat_places_sup]
  exact Nat.le_max_left ..

/-- The least float, or else decimal, with the room. -/
def type (e : Extent) : Primitive :=
  if e.floating then if e.wide then .float64 else .float32 else Primitive.decimalFor e.integral e.places

/-- Floats have one of two types. -/
theorem type_of_floating (h : e.floating = true) : e.type = if e.wide then .float64 else .float32 := if_pos h

theorem type_of_not_floating (h : e.floating = false) : e.type = Primitive.decimalFor e.integral e.places := by
  rw [type, h]
  rfl

private theorem type_eq_float64_iff : e.type = .float64 ↔ e.floating = true ∧ e.wide = true := by
  cases hfloating : e.floating with
  | true => cases hwide : e.wide <;> simp [type_of_floating hfloating, hwide]
  | false => simp [type_of_not_floating hfloating, Primitive.decimalFor]

private theorem type_eq_float32_iff : e.type = .float32 ↔ e.floating = true ∧ e.wide = false := by
  cases hfloating : e.floating with
  | true => cases hwide : e.wide <;> simp [type_of_floating hfloating, hwide]
  | false => simp [type_of_not_floating hfloating, Primitive.decimalFor]

/-- What lies between two extents of one type has that type as well. -/
private theorem type_eq_of_between (hef : e ≤ f) (hfg : f ≤ g) (h : e.type = g.type) : f.type = e.type := by
  cases he : e.floating with
  | true =>
    have hf := floating_of_le hef he
    cases hwide : e.wide with
    | true => rw [type_eq_float64_iff.2 ⟨he, hwide⟩, type_eq_float64_iff.2 ⟨hf, wide_of_le hef hwide⟩]
    | false =>
      rw [type_eq_float32_iff.2 ⟨he, hwide⟩] at h ⊢
      have hg := type_eq_float32_iff.1 h.symm
      refine type_eq_float32_iff.2 ⟨hf, Bool.eq_false_iff.2 fun hfwide => ?_⟩
      exact Bool.false_ne_true (hg.2.symm.trans (wide_of_le hfg hfwide))
  | false =>
    have hg : g.floating = false := by
      rw [Bool.eq_false_iff]
      intro hg
      rw [type_of_not_floating he, type_of_floating hg] at h
      cases hwide : g.wide <;> simp [hwide, Primitive.decimalFor] at h
    have hf : f.floating = false := by
      rw [Bool.eq_false_iff]
      intro hf
      exact Bool.false_ne_true (hg.symm.trans (floating_of_le hfg hf))
    rw [type_of_not_floating he, type_of_not_floating hg, Primitive.decimalFor_eq_iff] at h
    rw [type_of_not_floating he, type_of_not_floating hf, Primitive.decimalFor_eq_iff, ← UInt8.toNat_inj]
    rw [← UInt8.toNat_inj] at h
    have hplaces := places_le hef
    have hplaces' := places_le hfg
    have hintegral := integral_le hef
    have hintegral' := integral_le hfg
    omega

end Extent

namespace Primitive

variable {p q r : Primitive} {e f : Extent}

def isFloating : Primitive → Bool
  | .float32 | .float64 => true
  | _ => false

/-- Whether a float for the values of the type takes 64 bits. -/
def isWide : Primitive → Bool
  | .int w | .uint w => decide (32 ≤ w.bits)
  | .float64 | .decimal _ _ => true
  | _ => false

/-- The digits before the point. -/
def integral : Primitive → Nat
  | .decimal precision scale => precision.toNat - scale.toNat
  | p => p.integerDigits?.getD 0

/-- The digits after the point. -/
def places : Primitive → UInt8
  | .decimal _ scale => scale
  | _ => 0

def extent (p : Primitive) : Extent := ⟨p.isFloating, p.isWide, p.integral, p.places⟩

private theorem zero_max (s : UInt8) : max 0 s = s := UInt8.toNat_inj.1 ((UInt8.toNat_max ..).trans (Nat.zero_max _))

/-- Beside a float or a decimal, the common type of two numbers is the least float or decimal with room for both. -/
theorem join?_of_not_isInteger (hp : p.isNumeric = true) (hq : q.isNumeric = true) (hne : p ≠ q)
    (hinteger : q.isInteger = false) : p.join? q = some (p.extent ⊔ q.extent).type := by
  rw [join?, if_neg hne]
  cases q with
  | float32 =>
    cases p with
    | int w | uint w => cases w <;> rfl
    | float32 => exact absurd rfl hne
    | float64 | decimal => rfl
    | _ => cases hp
  | float64 =>
    cases p with
    | int w | uint w => cases w <;> rfl
    | float64 => exact absurd rfl hne
    | float32 | decimal => rfl
    | _ => cases hp
  | decimal precision scale =>
    cases p with
    | int w | uint w =>
      cases w <;> exact congrArg some (congrArg₂ decimalFor (Nat.max_comm ..) (zero_max scale).symm)
    | float32 | float64 | decimal => rfl
    | _ => cases hp
  | int | uint => cases hinteger
  | _ => cases hq

/-- Only the type of an extent counts when it is joined with another, unless it is the extent of a small integer. -/
private theorem type_extent_sup (he : e.floating = true ∨ e.wide = true) :
    (e.type.extent ⊔ f).type = (e ⊔ f).type := by
  cases hfloating : e.floating with
  | true =>
    cases hwide : e.wide with
    | true =>
      rw [Extent.type_eq_float64_iff.2 ⟨hfloating, hwide⟩]
      rw [Extent.type_eq_float64_iff.2 ⟨rfl, rfl⟩, Extent.type_eq_float64_iff.2 (by simp [hfloating, hwide])]
    | false =>
      rw [Extent.type_eq_float32_iff.2 ⟨hfloating, hwide⟩]
      rw [Extent.type_of_floating rfl, Extent.type_of_floating (by simp [hfloating])]
      simp [hwide, extent, isWide]
  | false =>
    have hwide : e.wide = true := by simpa [hfloating] using he
    rw [Extent.type_of_not_floating hfloating]
    cases hf : f.floating with
    | true =>
      rw [Extent.type_eq_float64_iff.2 (by simp [decimalFor, extent, isWide, hf])]
      rw [Extent.type_eq_float64_iff.2 (by simp [hwide, hf])]
    | false =>
      rw [Extent.type_of_not_floating (by simp [decimalFor, extent, isFloating, hf]),
        Extent.type_of_not_floating (by simp [hfloating, hf]), decimalFor_eq_iff]
      refine ⟨?_, rfl⟩
      simp only [Extent.integral_sup, Extent.toNat_places_sup]
      simp only [decimalFor, extent, integral, places, toNat_precision]
      unfold maxPrecision
      omega

@[simp] theorem isNumeric_type (e : Extent) : e.type.isNumeric = true := by
  unfold Extent.type
  split
  · split <;> rfl
  · rfl

@[simp] theorem isInteger_type (e : Extent) : e.type.isInteger = false := by
  unfold Extent.type
  split
  · split <;> rfl
  · rfl

/-- The common type with the type of an extent is the type of the least extent with room for both. -/
theorem join?_type (he : e.floating = true ∨ e.wide = true) (hr : r.isNumeric = true) :
    e.type.join? r = some (e ⊔ r.extent).type := by
  by_cases h : r = e.type
  · rw [h, join?_self, sup_comm, type_extent_sup he, sup_idem]
  · rw [join?_comm, join?_of_not_isInteger hr (isNumeric_type e) h (isInteger_type e), sup_comm, type_extent_sup he]

/-! ### The common type of primitive types -/

/-- The common type of a list of primitive types, joined from the left. -/
def common? (ps : List Primitive) : Option Primitive := ps.foldlM join? .null

/-- The room that a list of numbers needs. -/
def total (ps : List Primitive) : Extent := (ps.map extent).foldr (· ⊔ ·) ⊥

variable {ps qs : List Primitive} {t : Primitive}

@[simp] theorem total_nil : total [] = ⊥ := rfl

@[simp] theorem total_cons : total (p :: ps) = p.extent ⊔ total ps := rfl

private theorem total_append : total (ps ++ qs) = total ps ⊔ total qs := by
  induction ps with
  | nil => simp
  | cons p ps ih => simp [ih, sup_assoc]

private theorem total_perm (h : ps.Perm qs) : total ps = total qs := (h.map extent).foldr_eq ⊥

@[simp] theorem common?_cons : common? (p :: ps) = ps.foldlM join? p := by
  rw [common?, List.foldlM_cons, join?_null_left]
  rfl

private theorem foldlM_join?_type (he : e.floating = true ∨ e.wide = true) (hps : ∀ p ∈ ps, p.isNumeric = true) :
    ps.foldlM join? e.type = some (e ⊔ total ps).type := by
  induction ps generalizing e with
  | nil => simp
  | cons p ps ih =>
    obtain ⟨hp, hps⟩ := List.forall_mem_cons.1 hps
    have hloose : (e ⊔ p.extent).floating = true ∨ (e ⊔ p.extent).wide = true := by
      rcases he with he | he <;> simp [he]
    rw [List.foldlM_cons, join?_type he hp, total_cons, ← sup_assoc]
    exact ih hloose hps

/-- The extent of a type of numbers other than integers is that of a float, or wide. -/
theorem isLoose_of_not_isInteger (hp : p.isNumeric = true) (h : p.isInteger = false) :
    p.extent.floating = true ∨ p.extent.wide = true := by
  cases p with
  | float32 => exact .inl rfl
  | float64 | decimal => exact .inr rfl
  | int | uint => cases h
  | _ => cases hp

private theorem foldlM_join?_self (h : ∀ q ∈ ps, q = p) : ps.foldlM join? p = some p := by
  induction ps with
  | nil => rfl
  | cons q ps ih =>
    obtain ⟨rfl, hps⟩ := List.forall_mem_cons.1 h
    rw [List.foldlM_cons, join?_self]
    exact ih hps

private theorem common?_self (hnil : ps ≠ []) (h : ∀ q ∈ ps, q = p) : common? ps = some p := by
  cases ps with
  | nil => exact absurd rfl hnil
  | cons q ps =>
    obtain ⟨rfl, hps⟩ := List.forall_mem_cons.1 h
    rw [common?_cons, foldlM_join?_self hps]

/-- After a float or a decimal, the common type is the least float or decimal with room for all. -/
private theorem foldlM_join?_of_not_isInteger (hp : p.isNumeric = true) (hinteger : p.isInteger = false)
    (hps : ∀ q ∈ ps, q.isNumeric = true) (hne : ∃ q ∈ ps, q ≠ p) :
    ps.foldlM join? p = some (p.extent ⊔ total ps).type := by
  induction ps with
  | nil => simp at hne
  | cons q ps ih =>
    obtain ⟨hq, hps⟩ := List.forall_mem_cons.1 hps
    rw [List.foldlM_cons, total_cons]
    by_cases h : q = p
    · obtain rfl := h
      rw [join?_self, ← sup_assoc, sup_idem]
      exact ih hps (by simpa using hne)
    · have hloose : (q.extent ⊔ p.extent).floating = true ∨ (q.extent ⊔ p.extent).wide = true := by
        rcases isLoose_of_not_isInteger hp hinteger with he | he <;> simp [he]
      rw [join?_comm, join?_of_not_isInteger hq hp h hinteger, ← sup_assoc, sup_comm p.extent]
      exact foldlM_join?_type hloose hps

private theorem foldlM_join?_float64 (hps : ∀ p ∈ ps, p.isNumeric = true) :
    ps.foldlM join? .float64 = some .float64 := by
  have h := foldlM_join?_type (isLoose_of_not_isInteger (p := .float64) rfl rfl) hps
  rwa [Extent.type_eq_float64_iff.2 (by simp [extent, isFloating, isWide]),
    Extent.type_eq_float64_iff.2 ⟨rfl, rfl⟩] at h

private theorem join?_float64 (hp : p.isNumeric = true) : float64.join? p = some .float64 := by
  simpa using foldlM_join?_float64 (List.forall_mem_singleton.2 hp)

/-! ### Integers -/

private theorem isNumeric_of_isInteger (h : p.isInteger = true) : p.isNumeric = true := by
  cases p with
  | int | uint => rfl
  | _ => cases h

private theorem isInteger_of_mem_filter (ps : List Primitive) : ∀ p ∈ ps.filter isInteger, p.isInteger = true :=
  fun _ => List.of_mem_filter

/-- Two integers have room in their common type, which is an integer unless one of 64 bits has no sign. -/
theorem join?_of_isInteger (hp : p.isInteger = true) (hq : q.isInteger = true) :
    ∃ r, p.join? q = some r ∧ (r = .float64 ∨ r.isInteger = true ∧ p.extent ⊔ q.extent ≤ r.extent) := by
  cases p with
  | int a | uint a =>
    cases q with
    | int b | uint b =>
      cases a <;> cases b <;> exact ⟨_, rfl, by decide⟩
    | _ => cases hq
  | _ => cases hp

private theorem foldlM_join?_of_isInteger (hp : p.isInteger = true) (hps : ∀ q ∈ ps, q.isInteger = true) :
    ∃ k, ps.foldlM join? p = some k ∧ (k = .float64 ∨ k.isInteger = true ∧ p.extent ⊔ total ps ≤ k.extent) := by
  induction ps generalizing p with
  | nil => exact ⟨p, rfl, .inr ⟨hp, by simp⟩⟩
  | cons q ps ih =>
    obtain ⟨hq, hps⟩ := List.forall_mem_cons.1 hps
    obtain ⟨r, hr, rfl | ⟨hinteger, hle⟩⟩ := join?_of_isInteger hp hq
    · refine ⟨.float64, ?_, .inl rfl⟩
      rw [List.foldlM_cons, hr]
      exact foldlM_join?_float64 fun q hq => isNumeric_of_isInteger (hps q hq)
    · obtain ⟨k, hk, hbound⟩ := ih hinteger hps
      refine ⟨k, by rw [List.foldlM_cons, hr]; exact hk, hbound.imp_right fun ⟨hkinteger, hkle⟩ => ⟨hkinteger, ?_⟩⟩
      calc
        p.extent ⊔ total (q :: ps) = (p.extent ⊔ q.extent) ⊔ total ps := (sup_assoc ..).symm
        _ ≤ r.extent ⊔ total ps := sup_le_sup_right hle _
        _ ≤ k.extent := hkle

private theorem common?_of_isInteger (hps : ∀ p ∈ ps, p.isInteger = true) :
    ∃ k, common? ps = some k ∧ (k = .float64 ∨ k = .null ∨ k.isInteger = true ∧ total ps ≤ k.extent) := by
  cases ps with
  | nil => exact ⟨.null, rfl, .inr (.inl rfl)⟩
  | cons p ps =>
    obtain ⟨hp, hps⟩ := List.forall_mem_cons.1 hps
    obtain ⟨k, hk, hbound⟩ := foldlM_join?_of_isInteger hp hps
    exact ⟨k, by rw [common?_cons, hk], hbound.imp_right .inr⟩

/-- The types that integers come to. -/
def Collects (p : Primitive) : Prop := p.isInteger = true ∨ p = .float64 ∨ p = .null

private theorem Collects.join? (h : r.Collects) (hp : p.isInteger = true) : ∃ t, r.join? p = some t ∧ t.Collects := by
  rcases h with hr | rfl | rfl
  · obtain ⟨t, ht, htype⟩ := join?_of_isInteger hr hp
    exact ⟨t, ht, htype.elim (fun h => .inr (.inl h)) fun h => .inl h.1⟩
  · exact ⟨_, join?_float64 (isNumeric_of_isInteger hp), .inr (.inl rfl)⟩
  · exact ⟨p, join?_null_left p, .inl hp⟩

/-- Two integers can be joined to a type in any order. -/
theorem Collects.join?_right_comm (h : r.Collects) (hp : p.isInteger = true) (hq : q.isInteger = true) :
    (r.join? p).bind (·.join? q) = (r.join? q).bind (·.join? p) := by
  rcases h with hr | rfl | rfl
  · cases r with
    | int a | uint a =>
      cases p with
      | int b | uint b =>
        cases q with
        | int c | uint c => cases a <;> cases b <;> cases c <;> rfl
        | _ => cases hq
      | _ => cases hp
    | _ => cases hr
  · simp [join?_float64, isNumeric_of_isInteger hp, isNumeric_of_isInteger hq]
  · simpa using join?_comm p q

/-- The order of integers does not matter. -/
private theorem Collects.foldlM_perm (h : r.Collects) (hperm : ps.Perm qs) (hps : ∀ p ∈ ps, p.isInteger = true) :
    ps.foldlM Primitive.join? r = qs.foldlM Primitive.join? r := by
  induction hperm generalizing r with
  | nil => rfl
  | cons p _ ih =>
    obtain ⟨hp, hps⟩ := List.forall_mem_cons.1 hps
    obtain ⟨t, ht, htype⟩ := h.join? hp
    rw [List.foldlM_cons, List.foldlM_cons, ht]
    exact ih htype hps
  | swap p q ps =>
    simp only [List.forall_mem_cons] at hps
    have hcomm := h.join?_right_comm hps.1 hps.2.1
    simp only [List.foldlM_cons, Option.bind_eq_bind, ← Option.bind_assoc, hcomm]
  | trans hperm _ ih ih' => exact (ih h hps).trans (ih' h fun p hp => hps p (hperm.mem_iff.2 hp))

/-! ### Numbers -/

/-- The common type of integers and other numbers lies between what the others need and what they need when the
integers are joined first. -/
theorem foldlM_join?_between {k : Primitive} (hp : p.isInteger = true) (hps : ∀ q ∈ ps, q.isNumeric = true)
    (hother : ∃ q ∈ ps, q.isInteger = false) (hk : (ps.filter isInteger).foldlM join? p = some k) :
    ∃ e : Extent, ps.foldlM join? p = some e.type ∧ p.extent ⊔ total ps ≤ e ∧
      (k ≠ .float64 → e ≤ k.extent ⊔ total ps) := by
  induction ps generalizing p with
  | nil => simp at hother
  | cons q ps ih =>
    obtain ⟨hq, hps⟩ := List.forall_mem_cons.1 hps
    cases hqinteger : q.isInteger with
    | true =>
      obtain ⟨r, hr, hbound⟩ := join?_of_isInteger hp hqinteger
      rw [List.filter_cons_of_pos hqinteger, List.foldlM_cons, hr] at hk
      rw [List.foldlM_cons, hr]
      -- integers without a common integer type come to a float, and this float to everything behind it
      rcases hbound with rfl | ⟨hinteger, hle⟩
      · obtain rfl : Primitive.float64 = k := by
          have hfloat := foldlM_join?_float64 fun s hs => isNumeric_of_isInteger (isInteger_of_mem_filter ps s hs)
          exact Option.some.inj (hfloat.symm.trans hk)
        refine ⟨float64.extent ⊔ (p.extent ⊔ total (q :: ps)), ?_, le_sup_right, fun h => absurd rfl h⟩
        rw [Extent.type_eq_float64_iff.2 (by simp [extent, isFloating, isWide])]
        exact foldlM_join?_float64 hps
      · obtain ⟨e, he, hlower, hupper⟩ := ih hinteger hps (by simpa [hqinteger] using hother) hk
        refine ⟨e, he, ?_, fun h => (hupper h).trans (sup_le_sup_left le_sup_right _)⟩
        calc
          p.extent ⊔ total (q :: ps) = (p.extent ⊔ q.extent) ⊔ total ps := (sup_assoc ..).symm
          _ ≤ r.extent ⊔ total ps := sup_le_sup_right hle _
          _ ≤ e := hlower
    | false =>
      rw [List.filter_cons_of_neg (by simp [hqinteger])] at hk
      -- from the first other number on, extents are joined and nothing is lost
      have hne : p ≠ q := by
        rintro rfl
        exact Bool.false_ne_true (hqinteger.symm.trans hp)
      have hloose : (p.extent ⊔ q.extent).floating = true ∨ (p.extent ⊔ q.extent).wide = true := by
        rcases isLoose_of_not_isInteger hq hqinteger with he | he <;> simp [he]
      refine ⟨p.extent ⊔ total (q :: ps), ?_, le_rfl, fun h => ?_⟩
      · rw [List.foldlM_cons, join?_of_not_isInteger (isNumeric_of_isInteger hp) hq hne hqinteger, total_cons,
          ← sup_assoc]
        exact foldlM_join?_type hloose hps
      · obtain ⟨k', hk', hbound⟩ := foldlM_join?_of_isInteger hp (isInteger_of_mem_filter ps)
        obtain rfl : k' = k := Option.some.inj (hk'.symm.trans hk)
        exact sup_le_sup_right (le_sup_left.trans (hbound.resolve_left h).2) _

private theorem common?_cons_of_not_isInteger (hps : ∀ q ∈ p :: ps, q.isNumeric = true)
    (hinteger : p.isInteger = false) (hne : ∃ q ∈ p :: ps, ∃ r ∈ p :: ps, q ≠ r) :
    common? (p :: ps) = some (total (p :: ps)).type := by
  obtain ⟨hp, hps⟩ := List.forall_mem_cons.1 hps
  have hne : ∃ q ∈ ps, q ≠ p := by
    by_contra hself
    simp only [not_exists, not_and, not_not] at hself
    obtain ⟨q, hq, r, hr, hqr⟩ := hne
    have hall : ∀ q ∈ p :: ps, q = p := List.forall_mem_cons.2 ⟨rfl, hself⟩
    exact hqr ((hall q hq).trans (hall r hr).symm)
  rw [common?_cons]
  exact foldlM_join?_of_not_isInteger hp hinteger hps hne

private theorem common?_between {k : Primitive} (hps : ∀ q ∈ ps, q.isNumeric = true)
    (hother : ∃ q ∈ ps, q.isInteger = false) (hne : ∃ p ∈ ps, ∃ q ∈ ps, p ≠ q)
    (hk : common? (ps.filter isInteger) = some k) :
    ∃ e : Extent, common? ps = some e.type ∧ total ps ≤ e ∧ (k ≠ .float64 → e ≤ k.extent ⊔ total ps) := by
  cases ps with
  | nil => simp at hother
  | cons p ps =>
    cases hinteger : p.isInteger with
    | true =>
      rw [List.filter_cons_of_pos hinteger, common?_cons] at hk
      obtain ⟨e, he, hlower, hupper⟩ :=
        foldlM_join?_between hinteger (List.forall_mem_cons.1 hps).2 (by simpa [hinteger] using hother) hk
      refine ⟨e, ?_, hlower, fun h => (hupper h).trans (sup_le_sup_left le_sup_right _)⟩
      rw [common?_cons, he]
    | false => exact ⟨_, common?_cons_of_not_isInteger hps hinteger hne, le_rfl, fun _ => le_sup_right⟩

/-- The integers of a list come to the same type with the others whether they are joined first or last. -/
def Settled (ps : List Primitive) : Prop :=
  common? (ps.filter isInteger ++ ps.filter fun p => !p.isInteger) =
    common? ((ps.filter fun p => !p.isInteger) ++ ps.filter isInteger)

instance : Decidable (Settled ps) := inferInstanceAs (Decidable (_ = _))

section

variable {k : Primitive} (hps : ∀ q ∈ ps, q.isNumeric = true) (hother : ∃ q ∈ ps, q.isInteger = false)
  (hne : ∃ p ∈ ps, ∃ q ∈ ps, p ≠ q)

include hps hother hne in
private theorem common?_integers_last :
    common? ((ps.filter fun p => !p.isInteger) ++ ps.filter isInteger) = some (total ps).type := by
  have hperm : ((ps.filter fun p => !p.isInteger) ++ ps.filter isInteger).Perm ps :=
    List.perm_append_comm.trans (List.filter_append_perm isInteger ps)
  have hmem : ∀ q ∈ ps.filter fun p => !p.isInteger, q.isInteger = false := fun q hq => by
    simpa using List.of_mem_filter hq
  rw [← total_perm hperm]
  simp only [← hperm.mem_iff] at hps hne
  cases h : ps.filter fun p => !p.isInteger with
  | nil =>
    obtain ⟨q, hq, hinteger⟩ := hother
    have hq := List.filter_eq_nil_iff.1 h q hq
    simp [hinteger] at hq
  | cons q others =>
    rw [h] at hps hne hmem
    exact common?_cons_of_not_isInteger hps (hmem q List.mem_cons_self) hne

include hps hother in
private theorem common?_integers_first (hk : common? (ps.filter isInteger) = some k) (hinteger : k.isInteger = true)
    (hle : total (ps.filter isInteger) ≤ k.extent) :
    common? (ps.filter isInteger ++ ps.filter fun p => !p.isInteger) = some (k.extent ⊔ total ps).type := by
  have hnone : (ps.filter fun p => !p.isInteger).filter isInteger = [] := by simp [List.filter_filter]
  obtain ⟨q, hq, hqinteger⟩ := hother
  have hq : q ∈ ps.filter fun p => !p.isInteger := List.mem_filter.2 ⟨hq, by simp [hqinteger]⟩
  obtain ⟨e, he, hlower, hupper⟩ := foldlM_join?_between hinteger
    (fun q hq => hps q (List.mem_of_mem_filter hq)) ⟨q, hq, hqinteger⟩ (by rw [hnone]; rfl)
  have hkfloat : k ≠ .float64 := by
    rintro rfl
    cases hinteger
  have htotal : k.extent ⊔ total ps = k.extent ⊔ total (ps.filter fun p => !p.isInteger) := by
    rw [← total_perm (List.filter_append_perm isInteger ps), total_append, ← sup_assoc, sup_eq_left.2 hle]
  rw [common?, List.foldlM_append, ← common?, hk, htotal, le_antisymm hlower (hupper hkfloat)]
  exact he

include hps hother hne in
/-- When a list is settled, what its integers come to needs no more room beside the others. -/
private theorem Settled.type_eq (h : Settled ps) (hk : common? (ps.filter isInteger) = some k) :
    (k = .float64 → (total ps).type = .float64) ∧
      (k ≠ .float64 → (k.extent ⊔ total ps).type = (total ps).type) := by
  rw [Settled, common?_integers_last hps hother hne] at h
  constructor
  · rintro rfl
    have hfloat : (ps.filter fun p => !p.isInteger).foldlM join? .float64 = some .float64 :=
      foldlM_join?_float64 fun q hq => hps q (List.mem_of_mem_filter hq)
    rw [common?, List.foldlM_append, ← common?, hk] at h
    exact Option.some.inj (h.symm.trans hfloat)
  · intro hkfloat
    obtain ⟨k', hk', hbound⟩ := common?_of_isInteger (isInteger_of_mem_filter ps)
    obtain rfl : k' = k := Option.some.inj (hk'.symm.trans hk)
    rcases hbound.resolve_left hkfloat with rfl | ⟨hinteger, hle⟩
    · exact congrArg Extent.type (bot_sup_eq _)
    · rw [common?_integers_first hps hother hk hinteger hle] at h
      exact Option.some.inj h

include hps hother hne in
/-- The common type of a settled list of numbers is the least float or decimal with room for all of them, in whatever
order they come. -/
private theorem Settled.common?_eq (h : Settled ps) (hperm : ps.Perm qs) : common? qs = some (total ps).type := by
  obtain ⟨k, hk, -⟩ := common?_of_isInteger (isInteger_of_mem_filter ps)
  obtain ⟨hfloat, hroom⟩ := h.type_eq hps hother hne hk
  have hkqs : common? (qs.filter isInteger) = some k := by
    rw [← hk, common?, common?]
    exact (Collects.foldlM_perm (.inr (.inr rfl)) (hperm.filter isInteger) (isInteger_of_mem_filter ps)).symm
  simp only [hperm.mem_iff] at hps hother hne
  obtain ⟨e, he, hlower, hupper⟩ := common?_between hps hother hne hkqs
  rw [← total_perm hperm] at hlower hupper
  rw [he]
  by_cases hkfloat : k = .float64
  · have htotal := Extent.type_eq_float64_iff.1 (hfloat hkfloat)
    rw [hfloat hkfloat, Extent.type_eq_float64_iff.2
      ⟨Extent.floating_of_le hlower htotal.1, Extent.wide_of_le hlower htotal.2⟩]
  · rw [Extent.type_eq_of_between hlower (hupper hkfloat) (hroom hkfloat).symm]

end

/-! ### Types other than numbers -/

/-- Equal types, or a date and a timestamp. -/
def Below (p q : Primitive) : Prop := p = q ∨ p = .date ∧ ∃ zone, q = .timestamp zone

private theorem Below.antisymm (h : p.Below q) (h' : q.Below p) : p = q := by
  rcases h with rfl | ⟨rfl, zone, rfl⟩
  · rfl
  · rcases h' with h' | ⟨h', -⟩ <;> cases h'

/-- Either all types of a list with a common type are numbers, or their common type is one of them and above them. -/
private theorem foldlM_join?_cases (hps : ∀ q ∈ p :: ps, q ≠ .null) (h : ps.foldlM join? p = some t) :
    (∀ q ∈ p :: ps, q.isNumeric = true) ∨ t.isNumeric = false ∧ t ∈ p :: ps ∧ ∀ q ∈ p :: ps, q.Below t := by
  induction ps generalizing p with
  | nil =>
    obtain rfl : p = t := Option.some.inj h
    cases hp : p.isNumeric with
    | true => exact .inl (by simpa using hp)
    | false => exact .inr ⟨rfl, by simp, by simp [Below]⟩
  | cons q ps ih =>
    simp only [List.forall_mem_cons] at hps
    obtain ⟨hp, hq, hps⟩ := hps
    rw [List.foldlM_cons] at h
    obtain ⟨r, hr, h⟩ := Option.bind_eq_some_iff.1 h
    have hrnull : r ≠ .null := fun hnull => hp ((eq_null_iff_of_join? hr).1 hnull).1
    have hcases := ih (List.forall_mem_cons.2 ⟨hrnull, hps⟩) h
    simp only [List.forall_mem_cons] at hcases ⊢
    -- unless both are numbers, the common type of the first two is one of them
    cases joins_of_join? hr with
    | nullLeft => exact absurd rfl hp
    | nullRight => exact absurd rfl hq
    | self =>
      refine hcases.imp (fun h => ⟨h.1, h⟩) fun ⟨ht, hmem, hbelow⟩ => ⟨ht, .tail _ hmem, hbelow.1, hbelow⟩
    | dateLeft zone =>
      obtain ⟨hnumeric, -⟩ | ⟨ht, hmem, hzone, hbelow⟩ := hcases
      · cases hnumeric
      · obtain rfl | ⟨hdate, -⟩ := hzone
        · exact .inr ⟨ht, .tail _ hmem, .inr ⟨rfl, zone, rfl⟩, .inl rfl, hbelow⟩
        · cases hdate
    | dateRight zone =>
      obtain ⟨hnumeric, -⟩ | ⟨ht, hmem, hzone, hbelow⟩ := hcases
      · cases hnumeric
      · obtain rfl | ⟨hdate, -⟩ := hzone
        · exact .inr ⟨ht, List.mem_cons_self, .inl rfl, .inr ⟨rfl, zone, rfl⟩, hbelow⟩
        · cases hdate
    | number hpnumeric hqnumeric hrnumeric =>
      obtain ⟨-, hpsnumeric⟩ | ⟨ht, -, hbelow, -⟩ := hcases
      · exact .inl ⟨hpnumeric, hqnumeric, hpsnumeric⟩
      · obtain rfl | ⟨rfl, -⟩ := hbelow
        · exact absurd (ht.symm.trans hrnumeric) Bool.false_ne_true
        · cases hrnumeric

private theorem common?_cases (hps : .null ∉ ps) (hnil : ps ≠ []) (h : common? ps = some t) :
    (∀ q ∈ ps, q.isNumeric = true) ∨ t.isNumeric = false ∧ t ∈ ps ∧ ∀ q ∈ ps, q.Below t := by
  cases ps with
  | nil => exact absurd rfl hnil
  | cons p ps =>
    rw [common?_cons] at h
    exact foldlM_join?_cases (fun q hq hnull => hps (hnull ▸ hq)) h

/-- A settled list has one common type in all orders. -/
theorem Settled.eq_of_perm {u : Primitive} (hsettled : Settled ps) (hps : .null ∉ ps) (hperm : ps.Perm qs)
    (ht : common? ps = some t) (hu : common? qs = some u) : t = u := by
  by_cases hnil : ps = []
  · subst hnil
    obtain rfl := List.nil_perm.1 hperm
    exact Option.some.inj (ht.symm.trans hu)
  have hqs : .null ∉ qs := fun h => hps (hperm.mem_iff.2 h)
  have hqsnil : qs ≠ [] := fun h => hnil (h ▸ hperm).eq_nil
  rcases common?_cases hps hnil ht with hnumeric | ⟨htnumeric, htmem, htbelow⟩
  · by_cases hother : ∃ q ∈ ps, q.isInteger = false
    · by_cases hne : ∃ p ∈ ps, ∃ q ∈ ps, p ≠ q
      · have hps := hsettled.common?_eq hnumeric hother hne (.refl ps)
        have hqs := hsettled.common?_eq hnumeric hother hne hperm
        exact Option.some.inj ((ht.symm.trans hps).trans (hqs.symm.trans hu))
      · push Not at hne
        obtain ⟨p, hp, -⟩ := hother
        have hself := common?_self hnil (hne · · p hp)
        have hself' := common?_self hqsnil fun q hq => hne q (hperm.mem_iff.2 hq) p hp
        exact Option.some.inj ((ht.symm.trans hself).trans (hself'.symm.trans hu))
    · push Not at hother
      have hsame := Collects.foldlM_perm (.inr (.inr rfl)) hperm fun q hq => by simpa using hother q hq
      exact Option.some.inj (ht.symm.trans (hsame.trans hu))
  · rcases common?_cases hqs hqsnil hu with hnumeric | ⟨-, humem, hubelow⟩
    · exact absurd (htnumeric.symm.trans (hnumeric t (hperm.mem_iff.1 htmem))) Bool.false_ne_true
    · exact (hubelow t (hperm.mem_iff.1 htmem)).antisymm (htbelow u (hperm.mem_iff.2 humem))

end Primitive

end SqlPlan
