import Mathlib.Data.List.Infix
import SqlPlan.Text.Quoted

/-!
# Reading SQL text

A text is read character by character. A quote character opens a quoted token, which ends at the same character;
inside of the token this character stands for itself where it is written twice, and a backslash is a character like
any other. `bare` is what is left of a text when every quoted token is replaced by its quote character alone. Brackets
are matched and comments are looked for in this bare text.

* `bare_append_cons`, `closed_append_cons`: a text whose quotes are closed leaves the reading of the text behind it as
  it is.
* `bare_quoted`, `closed_quoted`: quoted text is one token, whatever its contents are.
* `Settled`: what is put together from texts that close all that they open does so as well.
* `Contained.end_unique`: the bracket behind a text that closes all that it opens is found without knowing the text.
-/

namespace SqlPlan.Sql

section

variable {p : Char → Prop} [DecidablePred p]

/-- What holds of all characters of a text is decided along the text, and not along all characters that there are. -/
instance decidableForallMem (cs : List Char) : Decidable (∀ c ∈ cs, p c) := List.decidableBAll p cs

instance decidableForallMemOption (c? : Option Char) : Decidable (∀ c ∈ c?, p c) := Option.decidableForallMem c?

end

/-! ### Quoted tokens -/

/-- The two kinds of quoted tokens. -/
inductive Quote where
  | single
  | double
deriving Repr, DecidableEq

def Quote.char : Quote → Char
  | .single => '\''
  | .double => '"'

/-- The kind of token that a character opens. -/
def quote? (c : Char) : Option Quote :=
  if c = '\'' then some .single else if c = '"' then some .double else none

private theorem quote?_char (q : Quote) : quote? q.char = some q := by cases q <;> rfl

/-- Where a reader of a text stands. Behind a quote character inside of a token, the token is at its end unless the
character comes a second time. -/
inductive Place where
  | outside
  | inside (q : Quote)
  | closing (q : Quote)
deriving Repr, DecidableEq

namespace Place

/-- The place behind a character that is outside of quoted tokens or opens one. -/
def enter (c : Char) : Place := (quote? c).elim .outside .inside

def next : Place → Char → Place
  | .outside, c => enter c
  | .inside q, c => if c = q.char then .closing q else .inside q
  | .closing q, c => if c = q.char then .inside q else enter c

/-- What is left of a character if quoted tokens are replaced by their quote characters. -/
def shown : Place → Char → List Char
  | .outside, c => [c]
  | .inside _, _ => []
  | .closing q, c => if c = q.char then [] else [c]

/-- The place behind a text. -/
def after (p : Place) (cs : List Char) : Place := cs.foldl next p

/-- What is left of a text from a place on. -/
def bareFrom : Place → List Char → List Char
  | _, [] => []
  | p, c :: cs => p.shown c ++ bareFrom (p.next c) cs

/-- No token is open. -/
def isFree : Place → Bool
  | .inside _ => false
  | _ => true

private theorem after_append (p : Place) (a b : List Char) : p.after (a ++ b) = (p.after a).after b :=
  List.foldl_append

private theorem bareFrom_append (p : Place) (a b : List Char) :
    p.bareFrom (a ++ b) = p.bareFrom a ++ (p.after a).bareFrom b := by
  induction a generalizing p with
  | nil => rfl
  | cons c a ih =>
    rw [List.cons_append, bareFrom, bareFrom, ih, List.append_assoc]
    rfl

section

variable {p : Place} {c : Char}

/-- Where no token is open, a character that is no quote is outside of quotes. -/
private theorem next_of_isFree (hp : p.isFree = true) (hc : quote? c = none) : p.next c = .outside := by
  cases p with
  | outside => simp [next, enter, hc]
  | inside q => cases hp
  | closing q =>
    have hne : c ≠ q.char := by
      rintro rfl
      simp [quote?_char] at hc
    simp [next, enter, hc, hne]

private theorem shown_of_isFree (hp : p.isFree = true) (hc : quote? c = none) : p.shown c = [c] := by
  cases p with
  | outside => rfl
  | inside q => cases hp
  | closing q =>
    have hne : c ≠ q.char := by
      rintro rfl
      simp [quote?_char] at hc
    simp [shown, hne]

end

end Place

/-- A text with every quoted token replaced by its quote character. -/
def bare (cs : List Char) : List Char := Place.outside.bareFrom cs

/-- Every quoted token in a text has its end in the text. -/
def Closed (cs : List Char) : Prop := (Place.outside.after cs).isFree = true

instance (cs : List Char) : Decidable (Closed cs) := inferInstanceAs (Decidable (_ = _))

section

variable {a cs : List Char} {c : Char}

@[simp] theorem bare_nil : bare [] = [] := rfl

@[simp] theorem closed_nil : Closed [] := rfl

@[simp] theorem bare_cons (hc : quote? c = none) : bare (c :: cs) = c :: bare cs := by
  have hnext : Place.outside.next c = .outside := by simp [Place.next, Place.enter, hc]
  rw [bare, Place.bareFrom, hnext]
  rfl

@[simp] theorem closed_cons (hc : quote? c = none) : Closed (c :: cs) ↔ Closed cs := by
  have hnext : Place.outside.next c = .outside := by simp [Place.next, Place.enter, hc]
  rw [Closed, Place.after, List.foldl_cons, hnext]
  rfl

/-- A text keeps its first character, as only the contents of quoted tokens are left out. -/
theorem head?_bare (cs : List Char) : (bare cs).head? = cs.head? := by
  cases cs <;> rfl

/-- A closed text and what stands behind it are read apart, if no quote follows. -/
theorem bare_append_cons (ha : Closed a) (hc : quote? c = none) : bare (a ++ c :: cs) = bare a ++ c :: bare cs := by
  rw [bare, Place.bareFrom_append, Place.bareFrom, Place.shown_of_isFree ha hc,
    Place.next_of_isFree ha hc]
  rfl

/-- A closed text at the front can be left out, together with a character behind it that is no quote. -/
theorem closed_append_cons (ha : Closed a) (hc : quote? c = none) : Closed (a ++ c :: cs) ↔ Closed cs := by
  have hnext := Place.next_of_isFree ha hc
  rw [Closed, Place.after_append, Place.after, List.foldl_cons, hnext]
  rfl

end

/-! ### Quoted text -/

section

variable (q : Quote)

private theorem after_doubled (cs : List Char) : (Place.inside q).after (doubled q.char cs) = .inside q := by
  induction cs with
  | nil => rfl
  | cons c cs ih =>
    rw [doubled_cons, Place.after_append]
    by_cases hc : c = q.char
    · rw [if_pos hc]
      simpa [Place.after, Place.next] using ih
    · rw [if_neg hc]
      simpa [Place.after, Place.next, hc] using ih

private theorem bareFrom_doubled (cs : List Char) : (Place.inside q).bareFrom (doubled q.char cs) = [] := by
  induction cs with
  | nil => rfl
  | cons c cs ih =>
    rw [doubled_cons]
    by_cases hc : c = q.char
    · rw [if_pos hc]
      simpa [Place.bareFrom, Place.next, Place.shown] using ih
    · rw [if_neg hc]
      simpa [Place.bareFrom, Place.next, Place.shown, hc] using ih

private theorem after_quoted (text : String) : Place.outside.after (quoted q.char text).toList = .closing q := by
  rw [toList_quoted, Place.after, List.foldl_cons]
  have henter : Place.outside.next q.char = .inside q := by simp [Place.next, Place.enter, quote?_char]
  have hbody := after_doubled q text.toList
  rw [Place.after] at hbody
  rw [henter, List.foldl_append, hbody]
  simp [Place.next]

/-- A quoted text is one token, whatever is quoted. -/
theorem closed_quoted (text : String) : Closed (quoted q.char text).toList := by
  rw [Closed, after_quoted]
  rfl

/-- Quoted text is one token. -/
theorem bare_quoted (text : String) : bare (quoted q.char text).toList = [q.char] := by
  have henter : Place.outside.next q.char = .inside q := by simp [Place.next, Place.enter, quote?_char]
  rw [toList_quoted, bare, Place.bareFrom, henter, Place.bareFrom_append, bareFrom_doubled, after_doubled]
  simp [Place.bareFrom, Place.shown]

end

@[simp] theorem closed_quoteIdent (name : String) : Closed (quoteIdent name).toList := closed_quoted .double name

@[simp] theorem bare_quoteIdent (name : String) : bare (quoteIdent name).toList = ['"'] := bare_quoted .double name

@[simp] theorem closed_quoteString (text : String) : Closed (quoteString text).toList := closed_quoted .single text

@[simp] theorem bare_quoteString (text : String) : bare (quoteString text).toList = ['\''] := bare_quoted .single text

/-! ### Brackets -/

/-- The bracket that closes one. -/
def closer? : Char → Option Char
  | '(' => some ')'
  | '[' => some ']'
  | _ => none

def isCloser (c : Char) : Bool := c == ')' || c == ']'

/-- The brackets that are awaited behind a text, the next one first, or none if a bracket closes what is not open. -/
def brackets : (awaited : List Char) → List Char → Option (List Char)
  | awaited, [] => some awaited
  | awaited, c :: cs =>
    match closer? c with
    | some d => brackets (d :: awaited) cs
    | none =>
      if isCloser c then if awaited.head? = some c then brackets awaited.tail cs else none
      else brackets awaited cs

/-- Every bracket is closed by one of its kind, and none is closed that is not open. -/
def Balanced (cs : List Char) : Prop := brackets [] cs = some []

instance (cs : List Char) : Decidable (Balanced cs) := inferInstanceAs (Decidable (_ = _))

section

variable {awaited rest a cs : List Char} {c d : Char}

private theorem closer?_of_isCloser (hc : isCloser c = true) : closer? c = none := by
  rcases (by simpa [isCloser] using hc : c = ')' ∨ c = ']') with rfl | rfl <;> rfl

@[simp] theorem brackets_nil : brackets awaited [] = some awaited := rfl

@[simp] theorem brackets_open (h : closer? c = some d) : brackets awaited (c :: cs) = brackets (d :: awaited) cs := by
  rw [brackets, h]

@[simp] theorem brackets_plain (h : closer? c = none) (hc : isCloser c = false) :
    brackets awaited (c :: cs) = brackets awaited cs := by
  rw [brackets, h]
  simp [hc]

@[simp] theorem brackets_close (hc : isCloser c = true) :
    brackets (c :: awaited) (c :: cs) = brackets awaited cs := by
  rw [brackets, closer?_of_isCloser hc]
  simp [hc]

private theorem brackets_append (awaited a b : List Char) :
    brackets awaited (a ++ b) = (brackets awaited a).bind fun rest => brackets rest b := by
  fun_induction brackets awaited a with
  | case1 awaited => rfl
  | case2 awaited c cs d hopen ih => rw [List.cons_append, brackets_open hopen, ih]
  | case3 awaited c cs hopen hc hhead ih =>
    rw [List.cons_append, brackets, hopen, ← ih]
    simp [hc, hhead]
  | case4 awaited c cs hopen hc hhead =>
    rw [List.cons_append, brackets, hopen]
    simp [hc, hhead]
  | case5 awaited c cs hopen hc ih => rw [List.cons_append, brackets_plain hopen (by simpa using hc), ih]

/-- Brackets that are open already wait until those of a text are closed. -/
private theorem brackets_below (h : brackets awaited cs = some rest) (below : List Char) :
    brackets (awaited ++ below) cs = some (rest ++ below) := by
  fun_induction brackets awaited cs with
  | case1 awaited =>
    obtain rfl := Option.some.inj h
    rfl
  | case2 awaited c cs d hopen ih =>
    rw [brackets_open hopen]
    exact ih h
  | case3 awaited c cs hopen hc hhead ih =>
    obtain ⟨awaited, rfl⟩ := List.head?_eq_some_iff.1 hhead
    rw [List.cons_append, brackets_close hc]
    exact ih h
  | case4 => cases h
  | case5 awaited c cs hopen hc ih =>
    rw [brackets_plain hopen (by simpa using hc)]
    exact ih h

/-- Balanced brackets leave those alone that are open ahead of them. -/
theorem Balanced.brackets_append (ha : Balanced a) (awaited b : List Char) :
    brackets awaited (a ++ b) = brackets awaited b := by
  have hread := brackets_below ha awaited
  rw [List.nil_append] at hread
  rw [Sql.brackets_append, hread]
  rfl

end

/-! ### Comments -/

/-- A comment starts somewhere in a text. -/
def Commented (cs : List Char) : Prop := ['-', '-'] <:+: cs ∨ ['/', '*'] <:+: cs

instance (cs : List Char) : Decidable (Commented cs) := inferInstanceAs (Decidable (_ ∨ _))

section

variable {x y c : Char} {a cs : List Char}

private theorem pair_infix_cons (hc : c ≠ x) : [x, y] <:+: c :: cs ↔ [x, y] <:+: cs := by
  rw [List.infix_cons_iff, List.cons_prefix_cons]
  simp [hc.symm]

/-- A pair of characters does not reach over the character `c`. -/
private theorem pair_infix_append (hc : c ≠ y) : [x, y] <:+: a ++ c :: cs ↔ [x, y] <:+: a ∨ [x, y] <:+: c :: cs := by
  induction a with
  | nil => simp
  | cons d a ih =>
    have hhead : [x, y] <+: d :: (a ++ c :: cs) ↔ [x, y] <+: d :: a := by
      cases a with
      | nil => simp [List.cons_prefix_cons, hc.symm]
      | cons e a => simp [List.cons_prefix_cons]
    rw [List.cons_append, List.infix_cons_iff, List.infix_cons_iff, ih, hhead, or_assoc]

@[simp] theorem not_commented_nil : ¬Commented [] := by decide

/-- A text without dashes and slashes starts no comment. -/
theorem not_commented_of_not_mem (hdash : '-' ∉ cs) (hslash : '/' ∉ cs) : ¬Commented cs := by
  rintro (h | h)
  · exact hdash (h.subset (by simp))
  · exact hslash (h.subset (by simp))

/-- A hyphen starts a comment only ahead of another one. -/
theorem commented_hyphen (h : cs.head? ≠ some '-') : Commented ('-' :: cs) ↔ Commented cs := by
  have hpair : ¬['-', '-'] <+: '-' :: cs := by
    rw [List.cons_prefix_cons]
    rintro ⟨-, t, rfl⟩
    exact h rfl
  rw [Commented, Commented, List.infix_cons_iff, pair_infix_cons (by decide)]
  simp [hpair]

@[simp] theorem commented_cons (hdash : c ≠ '-') (hslash : c ≠ '/') : Commented (c :: cs) ↔ Commented cs := by
  rw [Commented, Commented, pair_infix_cons hdash, pair_infix_cons hslash]

/-- Comments stand in a text or behind it, if a character comes next that continues none. -/
theorem commented_append_cons (hdash : c ≠ '-') (hstar : c ≠ '*') :
    Commented (a ++ c :: cs) ↔ Commented a ∨ Commented (c :: cs) := by
  rw [Commented, Commented, Commented, pair_infix_append hdash, pair_infix_append hstar]
  exact or_or_or_comm

end

/-! ### Settled texts -/

/-- A text that closes all quotes and brackets that it opens, and in which a comment starts just if `p` holds. -/
structure Settled (cs : List Char) (p : Prop) : Prop where
  closed : Closed cs
  balanced : Balanced (bare cs)
  commented : Commented (bare cs) ↔ p

/-- A text that closes all that it opens and starts no comment. -/
abbrev Contained (cs : List Char) : Prop := Settled cs False

instance (cs : List Char) : Decidable (Contained cs) :=
  decidable_of_iff (Closed cs ∧ Balanced (bare cs) ∧ ¬Commented (bare cs))
    ⟨fun h => ⟨h.1, h.2.1, iff_of_false h.2.2 not_false⟩, fun h => ⟨h.closed, h.balanced, h.commented.1⟩⟩

/-- Whether a character is neither a quote nor a bracket nor part of a comment mark. -/
def isPlain (c : Char) : Bool :=
  !(c == '\'' || c == '"' || c == '(' || c == '[' || c == ')' || c == ']' || c == '-' || c == '/' || c == '*')

section

variable {c : Char}

private theorem ne_of_isPlain (hc : isPlain c = true) :
    c ≠ '\'' ∧ c ≠ '"' ∧ c ≠ '(' ∧ c ≠ '[' ∧ c ≠ ')' ∧ c ≠ ']' ∧ c ≠ '-' ∧ c ≠ '/' ∧ c ≠ '*' := by
  simpa [isPlain, and_assoc] using hc

theorem quote?_of_isPlain (hc : isPlain c = true) : quote? c = none := by
  obtain ⟨hsingle, hdouble, -⟩ := ne_of_isPlain hc
  simp [quote?, hsingle, hdouble]

private theorem brackets_of_isPlain (hc : isPlain c = true) (awaited cs : List Char) :
    brackets awaited (c :: cs) = brackets awaited cs := by
  obtain ⟨-, -, hround, hsquare, hround', hsquare', -⟩ := ne_of_isPlain hc
  have hopen : closer? c = none := by
    unfold closer?
    split
    · exact absurd rfl hround
    · exact absurd rfl hsquare
    · rfl
  exact brackets_plain hopen (by simp [isCloser, hround', hsquare'])

end

namespace Settled

variable {a b r s : List Char} {c d : Char} {p q p' : Prop}

theorem congr (ha : Settled a p) (h : p ↔ q) : Settled a q := ⟨ha.closed, ha.balanced, ha.commented.trans h⟩

theorem nil : Contained [] := by decide

/-- A plain character starts and ends nothing. -/
theorem cons (hc : isPlain c = true) (ha : Settled a p) : Settled (c :: a) p := by
  obtain ⟨-, -, -, -, -, -, hdash, hslash, -⟩ := ne_of_isPlain hc
  have hquote := quote?_of_isPlain hc
  refine ⟨(closed_cons hquote).2 ha.closed, ?_, ?_⟩
  · rw [Balanced, bare_cons hquote, brackets_of_isPlain hc]
    exact ha.balanced
  · rw [bare_cons hquote, commented_cons hdash hslash]
    exact ha.commented

/-- A text behind plain characters. -/
theorem plain_append (ha : ∀ c ∈ a, isPlain c = true) (hb : Settled b p) : Settled (a ++ b) p := by
  induction a with
  | nil => exact hb
  | cons c a ih => exact (ih fun d hd => ha d (by simp [hd])).cons (ha c (by simp))

/-- A text of plain characters and hyphens, with no two hyphens in a row. -/
theorem of_hyphens (ha : ∀ c ∈ a, isPlain c = true ∨ c = '-') (h : ¬Commented a) : Contained a := by
  have hread : ∀ a : List Char, (∀ c ∈ a, isPlain c = true ∨ c = '-') →
      bare a = a ∧ Closed a ∧ ∀ awaited, brackets awaited a = some awaited := by
    intro a ha
    induction a with
    | nil => simp
    | cons c a ih =>
      obtain ⟨hbare, hclosed, hbrackets⟩ := ih fun d hd => ha d (by simp [hd])
      have hquote : quote? c = none := by
        rcases ha c (by simp) with hc | rfl
        · exact quote?_of_isPlain hc
        · rfl
      refine ⟨by rw [bare_cons hquote, hbare], (closed_cons hquote).2 hclosed, fun awaited => ?_⟩
      rcases ha c (by simp) with hc | rfl
      · rw [brackets_of_isPlain hc, hbrackets]
      · exact hbrackets awaited
  obtain ⟨hbare, hclosed, hbrackets⟩ := hread a ha
  refine ⟨hclosed, ?_, ?_⟩
  · rw [Balanced, hbare, hbrackets]
  · rw [hbare]
    exact iff_of_false h not_false

/-- Two texts with a plain character between them. -/
theorem append_cons (ha : Settled a p) (hc : isPlain c = true) (hb : Settled b q) :
    Settled (a ++ c :: b) (p ∨ q) := by
  obtain ⟨-, -, -, -, -, -, hdash, hslash, hstar⟩ := ne_of_isPlain hc
  have hquote := quote?_of_isPlain hc
  refine ⟨(closed_append_cons ha.closed hquote).2 hb.closed, ?_, ?_⟩
  · rw [Balanced, bare_append_cons ha.closed hquote, ha.balanced.brackets_append, brackets_of_isPlain hc]
    exact hb.balanced
  · rw [bare_append_cons ha.closed hquote, commented_append_cons hdash hstar, commented_cons hdash hslash]
    exact or_congr ha.commented hb.commented

/-- A text in brackets, with one ahead of them and one behind. -/
theorem enclosed (ha : Settled a p) (hc : closer? c = some d) (hb : Settled b q) (hr : Settled r p') :
    Settled (a ++ c :: (b ++ d :: r)) (p ∨ q ∨ p') := by
  have hpair : c = '(' ∧ d = ')' ∨ c = '[' ∧ d = ']' := by
    unfold closer? at hc
    split at hc <;> cases hc
    · exact .inl ⟨rfl, rfl⟩
    · exact .inr ⟨rfl, rfl⟩
  have hopen : quote? c = none ∧ c ≠ '-' ∧ c ≠ '/' ∧ c ≠ '*' := by
    rcases hpair with ⟨rfl, rfl⟩ | ⟨rfl, rfl⟩ <;> decide
  have hclose : quote? d = none ∧ isCloser d = true ∧ d ≠ '-' ∧ d ≠ '/' ∧ d ≠ '*' := by
    rcases hpair with ⟨rfl, rfl⟩ | ⟨rfl, rfl⟩ <;> decide
  have hbare : bare (a ++ c :: (b ++ d :: r)) = bare a ++ c :: (bare b ++ d :: bare r) := by
    rw [bare_append_cons ha.closed hopen.1, bare_append_cons hb.closed hclose.1]
  refine ⟨?_, ?_, ?_⟩
  · rw [closed_append_cons ha.closed hopen.1, closed_append_cons hb.closed hclose.1]
    exact hr.closed
  · rw [Balanced, hbare, ha.balanced.brackets_append, brackets_open hc, hb.balanced.brackets_append,
      brackets_close hclose.2.1]
    exact hr.balanced
  · rw [hbare, commented_append_cons hopen.2.1 hopen.2.2.2, commented_cons hopen.2.1 hopen.2.2.1,
      commented_append_cons hclose.2.2.1 hclose.2.2.2.2, commented_cons hclose.2.2.1 hclose.2.2.2.1]
    exact or_congr ha.commented (or_congr hb.commented hr.commented)

/-- A text with one behind it that is empty or starts with a plain character. -/
theorem append (ha : Settled a p) (hb : Settled b q) (hhead : ∀ c ∈ b.head?, isPlain c = true) :
    Settled (a ++ b) (p ∨ q) := by
  cases b with
  | nil =>
    have hq : ¬q := fun h => not_commented_nil (hb.commented.2 h)
    rw [List.append_nil]
    exact ha.congr (by simp [hq])
  | cons c b =>
    have hc : isPlain c = true := hhead c (by simp)
    obtain ⟨-, -, -, -, -, -, hdash, hslash, -⟩ := ne_of_isPlain hc
    have hquote := quote?_of_isPlain hc
    have hbalanced := hb.balanced
    have hcommented := hb.commented
    rw [Balanced, bare_cons hquote, brackets_of_isPlain hc] at hbalanced
    rw [bare_cons hquote, commented_cons hdash hslash] at hcommented
    exact ha.append_cons hc ⟨(closed_cons hquote).1 hb.closed, hbalanced, hcommented⟩

/-- Texts with commas between them. -/
theorem intercalate {α : Type} {items : List α} {f : α → String} {status : α → Prop}
    (h : ∀ x ∈ items, Settled (f x).toList (status x)) :
    Settled (", ".intercalate (items.map f)).toList (∃ x ∈ items, status x) := by
  induction items with
  | nil => exact nil.congr (by simp)
  | cons x items ih =>
    have hx := h x (by simp)
    have hitems := ih fun y hy => h y (by simp [hy])
    cases items with
    | nil => simpa using hx
    | cons y items =>
      have hcomma := hx.append_cons (by decide : isPlain ',' = true) (hitems.cons (by decide : isPlain ' ' = true))
      simpa [String.intercalate_cons_cons] using hcomma

end Settled

namespace Contained

variable {a b r s : List Char} {d : Char}

/-- A list with commas is contained if its items are. -/
theorem intercalate {texts : List String} (h : ∀ text ∈ texts, Contained text.toList) :
    Contained (", ".intercalate texts).toList := by
  simpa using Settled.intercalate (f := id) h

/-- A bracket that closes nothing is in no contained text. -/
private theorem not_contained_append (ha : Contained a) (hd : isCloser d = true) : ¬Contained (a ++ d :: b) := by
  intro hb
  have hquote : quote? d = none := by
    rcases (by simpa [isCloser] using hd : d = ')' ∨ d = ']') with rfl | rfl <;> rfl
  have hread := hb.balanced
  rw [Balanced, bare_append_cons ha.closed hquote, ha.balanced.brackets_append, brackets,
    closer?_of_isCloser hd] at hread
  simp [hd] at hread

/-- A contained text ends where the first bracket closes that it did not open. -/
theorem end_unique (ha : Contained a) (hb : Contained b) (hd : isCloser d = true) (h : a ++ d :: r = b ++ d :: s) :
    a = b ∧ r = s := by
  rcases List.append_eq_append_iff.1 h with ⟨as, rfl, hr⟩ | ⟨bs, rfl, hs⟩
  · cases as with
    | nil => simpa using hr
    | cons c as =>
      obtain ⟨rfl, -⟩ := List.cons.inj hr
      exact (not_contained_append ha hd hb).elim
  · cases bs with
    | nil => simpa [eq_comm] using hs
    | cons c bs =>
      obtain ⟨rfl, -⟩ := List.cons.inj hs
      exact (not_contained_append hb hd ha).elim

end Contained

end SqlPlan.Sql
