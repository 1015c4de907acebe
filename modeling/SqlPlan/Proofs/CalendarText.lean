import SqlPlan.Calendar.Time
import SqlPlan.Proofs.Numerals

/-!
# Reading back dates and times

Dates, times of day and timestamps are read back from their own text. Months, days and the parts of a time fill the
width of their fields; a year with a sign has no such width and ends at the hyphen behind it.

* `Date.read?_text`: a date is read back, and the text behind it is left.
* `Date.ofText?_text`, `TimeOfDay.ofText?_text`, `Timestamp.ofText?_text`: the texts are read back as a whole.
* `Date.text_injective`, `TimeOfDay.text_injective`, `Timestamp.text_injective`: no text stands for two of them.
-/

namespace SqlPlan

namespace Calendar

/-! ### Dates -/

/-- A number behind a sign ends where the digits end. -/
private theorem digits?_padded_of_noDigit (width n : Nat) {rest : List Char} (hrest : NoDigit rest) :
    digits? ((padded width n).toList ++ rest).length ((padded width n).toList ++ rest) = some (n, rest) := by
  have hlength : (padded width n).toList.length ≤ ((padded width n).toList ++ rest).length := by simp
  rw [digits?_append (padded_ne_nil _ _) (fun _ => isDigit_of_mem_padded) (.inr ⟨hlength, hrest⟩),
    digitsValue_padded]

private theorem year?_yearText (year : Int) {rest : List Char} (hrest : NoDigit rest) :
    year? ((Date.yearText year).toList ++ rest) = some (year, rest) := by
  unfold Date.yearText
  split
  case isTrue hneg =>
    have hyear : -((year.natAbs : Nat) : Int) = year := by omega
    have hskip : skipBlanks ('-' :: ((padded 4 year.natAbs).toList ++ rest)) = _ :=
      skipBlanks_of_head (by simp; decide)
    simp only [String.toList_append, String.reduceToList, List.cons_append, List.nil_append, year?, hskip,
      digits?_padded_of_noDigit _ _ hrest, Option.map_some, hyear]
  case isFalse hneg =>
    have hyear : ((year.natAbs : Nat) : Int) = year := by omega
    split
    case isTrue hfour =>
      have hread : digits? 4 ((padded 4 year.natAbs).toList ++ rest) = some (year.natAbs, rest) :=
        digits?_padded (by omega) rest
      obtain ⟨d, ds, hds, hd⟩ := exists_padded_eq_cons 4 year.natAbs
      have hminus : d ≠ '-' := by rintro rfl; cases hd
      have hplus : d ≠ '+' := by rintro rfl; cases hd
      rw [year?, skipBlanks_padded]
      rw [hds, List.cons_append] at hread ⊢
      simp [hminus, hplus, hyear, hread]
    case isFalse =>
      have hskip : skipBlanks ('+' :: ((padded 4 year.natAbs).toList ++ rest)) = _ :=
        skipBlanks_of_head (by simp; decide)
      simp only [String.toList_append, String.reduceToList, List.cons_append, List.nil_append, year?, hskip,
        digits?_padded_of_noDigit _ _ hrest, Option.map_some, hyear]

end Calendar

namespace Date

open Calendar

private theorem ofYmd?_self (d : Date) : ofYmd? d.year d.month d.day = some d := by
  rw [ofYmd?, dif_pos d.exists_day]

private theorem month_day_lt (d : Date) : d.month < 100 ∧ d.day < 100 := by
  have hmonth : ∀ year month, daysInMonth year month ≤ 31 := by
    intro year month
    unfold daysInMonth
    split <;> (try split) <;> omega
  have h := d.exists_day
  simp only [isDate, Bool.and_eq_true, decide_eq_true_eq] at h
  have := hmonth d.year d.month
  omega

/-- A date is read back from its text. -/
theorem read?_text (d : Date) (rest : List Char) : read? (d.text.toList ++ rest) = some (d, rest) := by
  obtain ⟨hmonth, hday⟩ := d.month_day_lt
  have hyphen : ∀ cs, mark? '-' ('-' :: cs) = some cs := mark?_cons (by decide)
  have hyear : ∀ cs, year? ((yearText d.year).toList ++ '-' :: cs) = some (d.year, '-' :: cs) :=
    fun cs => year?_yearText d.year (by simp [NoDigit])
  have hread : ∀ {n : Nat}, n < 100 → ∀ cs, number? 2 ((padded 2 n).toList ++ cs) = some (n, cs) :=
    fun hn => number?_padded hn
  simp only [text, String.toList_append, String.reduceToList, List.append_assoc, List.cons_append, List.nil_append,
    read?, hyear, hyphen, hread hmonth, hread hday, ofYmd?_self,
    Option.bind_eq_bind, Option.bind_some, Option.pure_def]

/-- A date is read back from its text. -/
theorem ofText?_text (d : Date) : ofText? d.text = some d := by
  have h := d.read?_text []
  rw [List.append_nil] at h
  simp [ofText?, h, skipBlanks_nil]

/-- Different dates have different texts. -/
theorem text_injective : Function.Injective text := by
  intro d d' h
  have hread := ofText?_text d
  rw [h, ofText?_text] at hread
  exact (Option.some.inj hread).symm

end Date

/-! ### Times of day -/

namespace Calendar

private theorem fraction?_padded {places n : Nat} (hn : n < 10 ^ (places + 1)) (hplaces : places + 1 ≤ 9) :
    fraction? (padded (places + 1) n).toList = some (n * 10 ^ (8 - places), []) := by
  have hlength := length_padded hn
  have hread : digits? 9 ((padded (places + 1) n).toList ++ []) = some (n, []) := by
    rw [digits?_append (padded_ne_nil _ _) (fun _ => isDigit_of_mem_padded) (.inr ⟨by omega, .nil⟩),
      digitsValue_padded]
  rw [List.append_nil] at hread
  simp [fraction?, hread, hlength]

/-- The second and its fraction are read back. -/
private theorem second?_text {second nano : Nat} (hsecond : second < 100) (hnano : nano < 1000000000) :
    second? ((padded 2 second).toList ++ (fractionText nano).toList) = some (second, nano, []) := by
  have hread : ∀ cs, number? 2 ((padded 2 second).toList ++ cs) = some (second, cs) := number?_padded hsecond
  have hpoint : ∀ {places n : Nat}, n < 10 ^ (places + 1) → places + 1 ≤ 9 → n * 10 ^ (8 - places) = nano →
      second? ((padded 2 second).toList ++ ("." ++ padded (places + 1) n).toList) = some (second, nano, []) := by
    intro places n hn hplaces hvalue
    simp [second?, hread, fraction?_padded hn hplaces, hvalue]
  unfold fractionText
  split
  case isTrue hzero =>
    have hend := hread []
    rw [List.append_nil] at hend
    simp [second?, hend, hzero]
  case isFalse =>
    split
    case isTrue hmilli => exact hpoint (by omega) (by decide) (by omega)
    case isFalse =>
      split
      case isTrue hmicro => exact hpoint (by omega) (by decide) (by omega)
      case isFalse => exact hpoint (by omega) (by decide) (by omega)

end Calendar

namespace TimeOfDay

open Calendar

private theorem ofParts?_self (t : TimeOfDay) : ofParts? t.hour t.minute t.second t.nano = some t := by
  rw [ofParts?, dif_pos t.exists_time]

private theorem parts_lt (t : TimeOfDay) : t.hour < 100 ∧ t.minute < 100 ∧ t.second < 100 ∧ t.nano < 1000000000 := by
  have h := t.exists_time
  simp only [isTime, Bool.and_eq_true, decide_eq_true_eq] at h
  omega

private theorem minutes?_text (t : TimeOfDay) :
    minutes? t.text.toList =
      some (t.hour, t.minute, ':' :: ((padded 2 t.second).toList ++ (fractionText t.nano).toList)) := by
  obtain ⟨hhour, hminute, -, -⟩ := t.parts_lt
  have hcolon : ∀ cs, mark? ':' (':' :: cs) = some cs := mark?_cons (by decide)
  have hread : ∀ {n : Nat}, n < 100 → ∀ cs, number? 2 ((padded 2 n).toList ++ cs) = some (n, cs) :=
    fun hn => number?_padded hn
  simp only [text, String.toList_append, String.reduceToList, List.append_assoc, List.cons_append, List.nil_append,
    minutes?, hcolon, hread hhour, hread hminute, Option.bind_eq_bind, Option.bind_some, Option.pure_def]

/-- A time of day is read back from its text. -/
theorem read?_text (t : TimeOfDay) : read? t.text.toList = some (t, []) := by
  obtain ⟨-, -, hsecond, hnano⟩ := t.parts_lt
  have hcolon : ∀ cs, mark? ':' (':' :: cs) = some cs := mark?_cons (by decide)
  simp only [read?, minutes?_text, hcolon, second?_text hsecond hnano, ofParts?_self, Option.bind_eq_bind,
    Option.bind_some, Option.pure_def]

/-- A time is read back from its text. -/
theorem ofText?_text (t : TimeOfDay) : ofText? t.text = some t := by
  -- The text goes on behind the minutes, so the short form without seconds does not apply.
  have hcolon : ∀ cs, skipBlanks (':' :: cs) = ':' :: cs := fun cs => skipBlanks_of_head (by simp; decide)
  simp [ofText?, minutes?_text, hcolon, read?_text, skipBlanks_nil]

/-- Different times have different texts. -/
theorem text_injective : Function.Injective text := by
  intro t t' h
  have hread := ofText?_text t
  rw [h, ofText?_text] at hread
  exact (Option.some.inj hread).symm

end TimeOfDay

/-! ### Timestamps -/

namespace Timestamp

/-- The date of a timestamp is read up to the separator. -/
theorem read?_text (t : Timestamp) (separator : String) :
    Date.read? (t.text separator).toList = some (t.date, separator.toList ++ t.time.text.toList) := by
  rw [text, String.toList_append, String.toList_append, List.append_assoc, Date.read?_text]

/-- A timestamp is read back from its text with the separator `T`. -/
theorem ofText?_text (t : Timestamp) : ofText? (t.text "T") = some t := by
  have hread : Date.read? (t.text "T").toList = some (t.date, 'T' :: t.time.text.toList) := t.read?_text "T"
  have hmark : ∀ cs, Calendar.mark? 'T' ('T' :: cs) = some cs := Calendar.mark?_cons (by decide)
  simp [ofText?, hread, hmark, TimeOfDay.read?_text, Calendar.skipBlanks_nil]

/-- Different timestamps have different texts, whatever stands between date and time. -/
theorem text_injective (separator : String) : Function.Injective (text · separator) := by
  intro t t' h
  have hread := t.read?_text separator
  rw [show t.text separator = t'.text separator from h, t'.read?_text] at hread
  obtain ⟨hdate, htime⟩ := Prod.mk.inj (Option.some.inj hread)
  have htime := TimeOfDay.text_injective (String.toList_inj.1 (List.append_cancel_left htime))
  exact (Timestamp.mk.injEq ..).mpr ⟨hdate.symm, htime.symm⟩

end Timestamp

end SqlPlan
