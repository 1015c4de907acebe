import Mathlib.Algebra.Order.Ring.Int
import SqlPlan.Calendar.Number
import SqlPlan.Json.Number

/-!
# Reading back numerals

A numeral ends where the digits end. A padded number that fills the width of its field is read back whatever follows
it; a JSON number is read back before all that cannot continue it.

* `Calendar.digits?_append`, `Calendar.number?_padded`: the numbers of dates and times.
* `Json.number?_append`: text that cannot continue a JSON number has no influence on its reading.
* `Json.number?_int`: an integer of 64 bits is read back from its text.
-/

namespace SqlPlan

/-! ### Decimal digits -/

/-- The digits of a number are digit characters. -/
theorem isDigit_of_mem_toDigits {c : Char} {n : Nat} (h : c ∈ Nat.toDigits 10 n) : c.isDigit = true :=
  Nat.isDigit_of_mem_toDigits (by decide) (by decide) h

/-- Different numbers have different digits. -/
theorem toDigits_injective : Function.Injective (Nat.toDigits 10) := by
  intro m n h
  have hvalue := congrArg (fun cs => Nat.ofDigitChars 10 cs 0) h
  simpa using hvalue

theorem toList_toString_ofNat (m : Nat) : (toString (Int.ofNat m)).toList = Nat.toDigits 10 m := Nat.toList_repr

theorem toList_toString_negSucc (m : Nat) : (toString (Int.negSucc m)).toList = '-' :: Nat.toDigits 10 (m + 1) := by
  have hrepr : toString (Int.negSucc m) = "-" ++ (m + 1).repr := rfl
  rw [hrepr, String.toList_append, Nat.toList_repr]
  rfl

/-- The text does not start with a digit. -/
def NoDigit (cs : List Char) : Prop := ∀ c ∈ cs.head?, c.isDigit = false

theorem NoDigit.nil : NoDigit [] := by simp [NoDigit]

private theorem NoDigit.digitRun_eq {cs : List Char} (h : NoDigit cs) : digitRun cs = ([], cs) := by
  cases cs with
  | nil => rfl
  | cons c cs =>
    have hc := h c (by simp)
    simp [digitRun, hc]

private theorem NoDigit.take {cs : List Char} (h : NoDigit cs) (k : Nat) : NoDigit (cs.take k) := by
  intro c hc
  refine h c ?_
  cases cs <;> cases k <;> simp_all

private theorem digitRun_digits {ds : List Char} (hds : ∀ c ∈ ds, c.isDigit = true) : digitRun ds = (ds, []) := by
  rw [digitRun, ← List.append_nil ds, List.takeWhile_append_of_pos hds, List.dropWhile_append_of_pos hds]
  rfl

private theorem digitRun_append {rest : List Char} (hrest : NoDigit rest) (cs : List Char) :
    digitRun (cs ++ rest) = ((digitRun cs).1, (digitRun cs).2 ++ rest) := by
  induction cs with
  | nil => simpa [digitRun] using hrest.digitRun_eq
  | cons c cs ih =>
    simp only [digitRun, Prod.mk.injEq] at ih
    cases hc : c.isDigit <;> simp [digitRun, hc, ih]

namespace Calendar

/-! ### Numbers and marks -/

private theorem isBlank_of_isDigit {c : Char} (h : c.isDigit = true) : isBlank c = false := by
  have hbounds : 48 ≤ c.toNat ∧ c.toNat ≤ 57 := by
    simp only [Char.isDigit, Bool.and_eq_true, decide_eq_true_eq] at h
    exact h
  simp only [isBlank, blankCodes, List.contains_eq_mem, List.mem_cons, List.not_mem_nil, or_false,
    decide_eq_false_iff_not]
  omega

theorem skipBlanks_nil : skipBlanks [] = [] := rfl

/-- Nothing is skipped where no blank stands. -/
theorem skipBlanks_of_head {cs : List Char} (h : ∀ c ∈ cs.head?, isBlank c = false) : skipBlanks cs = cs := by
  cases cs with
  | nil => rfl
  | cons c cs =>
    have hc := h c (by simp)
    simp [skipBlanks, hc]

/-- Digits are read back if they fill the width or nothing that follows is a digit. -/
theorem digits?_append {width : Nat} {ds rest : List Char} (hne : ds ≠ []) (hds : ∀ c ∈ ds, c.isDigit = true)
    (hend : ds.length = width ∨ ds.length ≤ width ∧ NoDigit rest) :
    digits? width (ds ++ rest) = some (digitsValue ds, rest) := by
  have hrun : ((ds ++ rest).take width).takeWhile Char.isDigit = ds := by
    rcases hend with rfl | ⟨hle, hrest⟩
    · rw [List.take_left]
      exact congrArg Prod.fst (digitRun_digits hds)
    · have hstop := congrArg Prod.fst (digitRun_append (hrest.take (width - ds.length)) ds)
      rw [digitRun_digits hds] at hstop
      rw [List.take_append, List.take_of_length_le hle]
      exact hstop
  obtain ⟨d, ds, rfl⟩ := List.exists_cons_of_ne_nil hne
  rw [digits?, hrun]
  simp only [List.drop_left]

private theorem toList_padded (width n : Nat) :
    (padded width n).toList =
      List.replicate (width - (Nat.toDigits 10 n).length) '0' ++ Nat.toDigits 10 n :=
  String.toList_ofList

theorem isDigit_of_mem_padded {width n : Nat} {c : Char} (h : c ∈ (padded width n).toList) : c.isDigit = true := by
  rw [toList_padded, List.mem_append] at h
  rcases h with h | h
  · rw [List.eq_of_mem_replicate h]
    rfl
  · exact isDigit_of_mem_toDigits h

theorem padded_ne_nil (width n : Nat) : (padded width n).toList ≠ [] := by
  rw [toList_padded]
  exact List.append_ne_nil_of_right_ne_nil _ Nat.toDigits_ne_nil

/-- A number that is not too great is padded to the width. -/
theorem length_padded {width n : Nat} (hn : n < 10 ^ (width + 1)) :
    (padded (width + 1) n).toList.length = width + 1 := by
  have hle := (Nat.length_toDigits_le_iff (by decide) (Nat.succ_pos width)).2 hn
  rw [toList_padded, List.length_append, List.length_replicate]
  omega

/-- Zeros in front do not change a number. -/
theorem digitsValue_padded (width n : Nat) : digitsValue (padded width n).toList = n := by
  have hvalue : Nat.ofDigitChars 10 (padded width n).toList 0 = n := by
    rw [toList_padded, Nat.ofDigitChars_append, Nat.ofDigitChars_replicate_zero, Nat.mul_zero,
      Nat.ofDigitChars_ten_toDigits]
  exact hvalue

/-- As many digits as were padded are read back. -/
theorem digits?_padded {width n : Nat} (hn : n < 10 ^ (width + 1)) (rest : List Char) :
    digits? (width + 1) ((padded (width + 1) n).toList ++ rest) = some (n, rest) := by
  rw [digits?_append (padded_ne_nil _ _) (fun _ => isDigit_of_mem_padded) (.inl (length_padded hn)),
    digitsValue_padded]

/-- A padded number starts with a digit. -/
theorem exists_padded_eq_cons (width n : Nat) : ∃ d ds, (padded width n).toList = d :: ds ∧ d.isDigit = true := by
  obtain ⟨d, ds, hds⟩ := List.exists_cons_of_ne_nil (padded_ne_nil width n)
  exact ⟨d, ds, hds, isDigit_of_mem_padded (hds ▸ List.mem_cons_self)⟩

theorem skipBlanks_padded (width n : Nat) (rest : List Char) :
    skipBlanks ((padded width n).toList ++ rest) = (padded width n).toList ++ rest := by
  obtain ⟨d, ds, hds, hd⟩ := exists_padded_eq_cons width n
  rw [hds]
  exact skipBlanks_of_head (by simpa using isBlank_of_isDigit hd)

/-- A padded number is read back, up to whatever comes behind it. -/
theorem number?_padded {width n : Nat} (hn : n < 10 ^ (width + 1)) (rest : List Char) :
    number? (width + 1) ((padded (width + 1) n).toList ++ rest) = some (n, rest) := by
  rw [number?, skipBlanks_padded, digits?_padded hn]

/-- A mark is read. -/
theorem mark?_cons {c : Char} (hc : isBlank c = false) (rest : List Char) : mark? c (c :: rest) = some rest := by
  rw [mark?, skipBlanks_of_head (by simpa using hc)]
  simp

end Calendar

/-! ### JSON numbers -/

namespace Json

/-- The text cannot continue a number that ends before it. -/
def EndsNumber (cs : List Char) : Prop := ∀ c ∈ cs.head?, c.isDigit = false ∧ c ∉ ['.', 'e', 'E', '+', '-']

theorem EndsNumber.nil : EndsNumber [] := by simp [EndsNumber]

private theorem EndsNumber.noDigit {cs : List Char} (h : EndsNumber cs) : NoDigit cs := fun c hc => (h c hc).1

private theorem EndsNumber.ne {c : Char} {cs : List Char} (h : EndsNumber (c :: cs)) :
    c ≠ '.' ∧ c ≠ 'e' ∧ c ≠ 'E' ∧ c ≠ '+' ∧ c ≠ '-' := by
  simpa using (h c (by simp)).2

/-- What is read stays the same, and so does all that is left of the text in front of `rest`. -/
def before {α : Type} (rest : List Char) (result : Option (α × List Char)) : Option (α × List Char) :=
  result.map fun (a, left) => (a, left ++ rest)

@[simp] theorem before_none {α : Type} (rest : List Char) : before rest (none : Option (α × List Char)) = none := rfl

@[simp] theorem before_some {α : Type} (rest left : List Char) (a : α) :
    before rest (some (a, left)) = some (a, left ++ rest) := rfl

/-- The reading of an exponent behind its sign. -/
def exponentDigits? (negative : Bool) (cs : List Char) : Option (Int × List Char) :=
  match digitRun cs with
  | ([], _) => none
  | (ds, rest) => some (if negative then -(digitsValue ds : Int) else digitsValue ds, rest)

private theorem exponent?_of_unsigned {cs : List Char} (h : ∀ c ∈ cs.head?, c ≠ '+' ∧ c ≠ '-') :
    exponent? cs = exponentDigits? false cs := by
  cases cs with
  | nil => rfl
  | cons c cs =>
    obtain ⟨hplus, hminus⟩ := h c (by simp)
    unfold exponent? exponentDigits?
    split
    next negative left hsign =>
      split at hsign
      · exact absurd (List.cons.inj ‹c :: cs = _›).1 hplus
      · exact absurd (List.cons.inj ‹c :: cs = _›).1 hminus
      · obtain ⟨rfl, rfl⟩ := Prod.mk.inj hsign
        rfl

private theorem exponentDigits?_append {rest : List Char} (h : EndsNumber rest) (negative : Bool) (cs : List Char) :
    exponentDigits? negative (cs ++ rest) = before rest (exponentDigits? negative cs) := by
  rw [exponentDigits?, exponentDigits?, digitRun_append h.noDigit]
  rcases digitRun cs with ⟨_ | ⟨d, ds⟩, left⟩ <;> simp

private theorem exponent?_append {rest : List Char} (h : EndsNumber rest) (cs : List Char) :
    exponent? (cs ++ rest) = before rest (exponent? cs) := by
  by_cases hsign : ∀ c ∈ cs.head?, c ≠ '+' ∧ c ≠ '-'
  · have hsign' : ∀ c ∈ (cs ++ rest).head?, c ≠ '+' ∧ c ≠ '-' := by
      cases cs with
      | nil =>
        intro c hc
        have := (h c hc).2
        simp_all
      | cons c cs => simpa using hsign
    rw [exponent?_of_unsigned hsign, exponent?_of_unsigned hsign', exponentDigits?_append h]
  · obtain ⟨c, cs, rfl⟩ : ∃ c cs', cs = c :: cs' := by cases cs <;> simp_all
    have hc : c = '+' ∨ c = '-' := by
      by_cases hplus : c = '+'
      · exact .inl hplus
      · exact .inr (by simpa [hplus] using hsign)
    rcases hc with rfl | rfl
    · exact exponentDigits?_append h false cs
    · exact exponentDigits?_append h true cs

private theorem floatOf_append (negative : Bool) (significand : Nat) (exponent : Int) (cs rest : List Char) :
    floatOf negative significand exponent (cs ++ rest) = before rest (floatOf negative significand exponent cs) := by
  unfold floatOf
  cases scaled? significand exponent <;> rfl

private theorem finishFloat?_append {rest : List Char} (h : EndsNumber rest) (negative : Bool) (significand : Nat)
    (exponent : Int) (cs : List Char) :
    finishFloat? negative significand exponent (cs ++ rest) =
      before rest (finishFloat? negative significand exponent cs) := by
  have hexponent : ∀ c cs, c = 'e' ∨ c = 'E' →
      finishFloat? negative significand exponent (c :: (cs ++ rest)) =
        before rest (finishFloat? negative significand exponent (c :: cs)) := by
    rintro c cs (rfl | rfl) <;>
    · simp only [finishFloat?, exponent?_append h]
      rcases exponent? cs with _ | ⟨e, left⟩
      · rfl
      · exact floatOf_append ..
  cases cs with
  | nil =>
    cases rest with
    | nil => exact floatOf_append negative significand exponent [] []
    | cons c rest =>
      obtain ⟨-, he, hE, -, -⟩ := h.ne
      simpa [finishFloat?, he, hE] using floatOf_append negative significand exponent [] (c :: rest)
  | cons c cs =>
    by_cases hmark : c = 'e' ∨ c = 'E'
    · exact hexponent c cs hmark
    obtain ⟨he, hE⟩ := not_or.1 hmark
    simpa [finishFloat?, he, hE] using floatOf_append negative significand exponent (c :: cs) rest

private theorem unsigned?_append {rest : List Char} (h : EndsNumber rest) (negative : Bool) (cs : List Char) :
    unsigned? negative (cs ++ rest) = before rest (unsigned? negative cs) := by
  have hrun := digitRun_append h.noDigit
  rw [unsigned?, unsigned?, hrun]
  rcases digitRun cs with ⟨_ | ⟨d, ds⟩, left⟩
  · rfl
  dsimp only
  split
  · rfl
  rcases absorb 0 (d :: ds) with ⟨significand, surplus⟩
  have hwhole : ∀ tail : List Char,
      (if surplus.isEmpty then some (integerOf negative significand, tail ++ rest)
        else floatOf negative significand surplus.length (tail ++ rest)) =
      before rest (if surplus.isEmpty then some (integerOf negative significand, tail)
        else floatOf negative significand surplus.length tail) := by
    intro tail
    split
    · rfl
    · exact floatOf_append ..
  -- The first character behind the digits decides how the number goes on.
  cases left with
  | nil =>
    cases rest with
    | nil => exact hwhole []
    | cons c rest =>
      obtain ⟨hpoint, he, hE, -, -⟩ := h.ne
      simpa [hpoint, he, hE] using hwhole []
  | cons c left =>
    by_cases hpoint : c = '.'
    · subst hpoint
      simp only [List.cons_append, hrun]
      rcases digitRun left with ⟨_ | ⟨f, fs⟩, left⟩
      · rfl
      · exact finishFloat?_append h ..
    by_cases he : c = 'e'
    · subst he
      exact finishFloat?_append h ..
    by_cases hE : c = 'E'
    · subst hE
      exact finishFloat?_append h ..
    simpa [hpoint, he, hE] using hwhole (c :: left)

/-- Without a sign in front, an unsigned number is read. -/
theorem number?_of_ne {c : Char} (hminus : c ≠ '-') (cs : List Char) :
    number? (c :: cs) = unsigned? false (c :: cs) := by
  simp [number?, hminus]

/-- Text that cannot continue a number has no influence on its reading. -/
theorem number?_append {rest : List Char} (h : EndsNumber rest) (cs : List Char) :
    number? (cs ++ rest) = before rest (number? cs) := by
  cases cs with
  | nil =>
    cases rest with
    | nil => rfl
    | cons c rest =>
      obtain ⟨-, -, -, -, hminus⟩ := h.ne
      exact (number?_of_ne hminus rest).trans (unsigned?_append h false [])
  | cons c cs =>
    by_cases hminus : c = '-'
    · subst hminus
      exact unsigned?_append h true cs
    · rw [List.cons_append, number?_of_ne hminus, number?_of_ne hminus]
      exact unsigned?_append h false (c :: cs)

/-! Integers are read back from their text. -/

private theorem eq_zero_of_head_toDigits {n : Nat} (h : (Nat.toDigits 10 n).head? = some '0') : n = 0 := by
  induction n using Nat.strongRecOn with
  | ind n ih =>
    rw [Nat.toDigits_eq_if (by decide)] at h
    split at h
    case isTrue hn =>
      have hdigit : ∀ m < 10, Nat.digitChar m = '0' → m = 0 := by decide
      exact hdigit n hn (by simpa using h)
    case isFalse hn =>
      have hzero := ih (n / 10) (by omega) (by
        obtain ⟨d, ds, hds⟩ := List.exists_cons_of_ne_nil (Nat.toDigits_ne_nil (n := n / 10) (b := 10))
        simpa [hds] using h)
      omega

private theorem absorb_eq {ds : List Char} {significand : Nat} (h : Nat.ofDigitChars 10 ds significand < 2 ^ 64) :
    absorb significand ds = (Nat.ofDigitChars 10 ds significand, []) := by
  induction ds generalizing significand with
  | nil => rfl
  | cons d ds ih =>
    have hnext : 10 * significand + (d.toNat - '0'.toNat) < Nat.pow 2 64 := by
      refine Nat.lt_of_le_of_lt ?_ h
      rw [Nat.ofDigitChars_cons, Nat.ofDigitChars_eq_ofDigitChars_zero]
      exact Nat.le_add_right_of_le (Nat.le_mul_of_pos_left _ (Nat.pow_pos (by decide)))
    rw [absorb, if_pos hnext]
    exact ih h

private theorem unsigned?_toDigits (negative : Bool) {n : Nat} (hn : n < 2 ^ 64) :
    unsigned? negative (Nat.toDigits 10 n) = some (integerOf negative n, []) := by
  have hrun := digitRun_digits fun _ => isDigit_of_mem_toDigits (n := n)
  have habsorb : absorb 0 (Nat.toDigits 10 n) = (n, []) := by
    rw [absorb_eq (by rwa [Nat.ofDigitChars_ten_toDigits]), Nat.ofDigitChars_ten_toDigits]
  obtain ⟨d, ds, hds⟩ := List.exists_cons_of_ne_nil (Nat.toDigits_ne_nil (n := n) (b := 10))
  have hleading : ¬ (d = '0' ∧ ds ≠ []) := by
    rintro ⟨rfl, hne⟩
    have hzero : n = 0 := eq_zero_of_head_toDigits (by rw [hds]; rfl)
    subst hzero
    exact hne (List.cons.inj hds).2.symm
  rw [hds] at hrun habsorb ⊢
  simp [unsigned?, hrun, habsorb, hleading]

private theorem integerOf_negative {n : Nat} (hn : n ≠ 0) (hlow : n ≤ 2 ^ 63) : integerOf true n = .int (-n) := by
  have hrange : ¬ (decide (n = 0) || decide (Nat.pow 2 63 < n)) = true := by
    rw [Bool.or_eq_true, decide_eq_true_eq, decide_eq_true_eq]
    exact not_or.2 ⟨hn, Nat.not_lt.2 hlow⟩
  rw [integerOf, if_neg (by decide), if_neg hrange]

private theorem number?_toDigits {n : Nat} (hn : n < 2 ^ 64) : number? (Nat.toDigits 10 n) = some (.int n, []) := by
  have hread := unsigned?_toDigits false hn
  obtain ⟨d, ds, hds⟩ := List.exists_cons_of_ne_nil (Nat.toDigits_ne_nil (n := n) (b := 10))
  have hminus : d ≠ '-' := by
    rintro rfl
    have hdigit : '-'.isDigit = true := isDigit_of_mem_toDigits (hds ▸ List.mem_cons_self)
    cases hdigit
  rw [hds] at hread ⊢
  exact (number?_of_ne hminus ds).trans hread

/-- An integer of 64 bits is read back from its text. -/
theorem number?_int {n : Int} (hlow : -2 ^ 63 ≤ n) (hhigh : n < 2 ^ 64) :
    number? (toString n).toList = some (.int n, []) := by
  cases n with
  | ofNat m =>
    have hm : (m : Int) < 2 ^ 64 := hhigh
    rw [toList_toString_ofNat, number?_toDigits (by omega)]
    rfl
  | negSucc m =>
    rw [toList_toString_negSucc, number?, unsigned?_toDigits true (by omega),
      integerOf_negative (by omega) (by omega)]
    rfl

end Json

end SqlPlan
