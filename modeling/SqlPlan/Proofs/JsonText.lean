import SqlPlan.Json.Reader
import SqlPlan.Proofs.Numerals

/-!
# Reading back JSON text

A document is read back from its compact text, as long as its numbers are and it is not nested too deep. The text of
a document is never empty, so its length bounds the steps that the reader needs.

* `Json.string?_literal`: a string literal is read back.
* `Json.legible_of_depth_le`: a document is read back in front of all that cannot continue a number.
* `Json.read?_compact`: the text of a document is read back as a whole.
-/

namespace SqlPlan.Json

/-! ### Strings -/

theorem hexValue?_digitChar : ∀ k < 16, hexValue? (Nat.digitChar k) = some k := by decide

private theorem unit?_hexPadded {n : Nat} (hn : n < 65536) (rest : List Char) :
    unit? (hexPadded 4 n ++ rest) = some (n, rest) := by
  have hdigit : ∀ m, hexValue? (Nat.digitChar (m % 16)) = some (m % 16) :=
    fun m => hexValue?_digitChar _ (Nat.mod_lt _ (by decide))
  have hvalue : ((n / 16 / 16 / 16 % 16 * 16 + n / 16 / 16 % 16) * 16 + n / 16 % 16) * 16 + n % 16 = n := by omega
  simp only [hexPadded, List.nil_append, List.cons_append, unit?, hdigit, Option.bind_eq_bind, Option.bind_some,
    Option.pure_def, hvalue]

/-- A control character is read back from the digits of its escape. -/
private theorem unicode?_hexPadded {c : Char} (hc : c.toNat < 32) (rest : List Char) :
    unicode? (hexPadded 4 c.toNat ++ rest) = some (c, rest) := by
  have hhigh : ¬ 0xd800 ≤ c.toNat := by omega
  have hlow : ¬ 0xdc00 ≤ c.toNat := by omega
  simp [unicode?, unit?_hexPadded (by omega : c.toNat < 65536), hhigh, hlow, Char.ofNat_toNat]

/-- A character is written as itself, or as a backslash and what the reader of escapes takes for the character. -/
private theorem escapedChar_cases (c : Char) :
    escapedChar c = [c] ∧ c ≠ '"' ∧ c ≠ '\\' ∧ 32 ≤ c.toNat ∨
      ∃ code, escapedChar c = '\\' :: code ∧ ∀ rest, escape? (code ++ rest) = some (c, rest) := by
  have hcode : ∀ {n}, c.toNat = n → Char.ofNat n = c := fun h => h ▸ Char.ofNat_toNat c
  fun_cases escapedChar c
  case case6 h => exact .inr ⟨_, rfl, fun rest => congrArg (fun d => some (d, rest)) (hcode h)⟩
  case case7 h => exact .inr ⟨_, rfl, fun rest => congrArg (fun d => some (d, rest)) (hcode h)⟩
  case case8 h => exact .inr ⟨_, rfl, fun rest => unicode?_hexPadded h rest⟩
  case case9 hquote hbackslash _ _ _ _ _ hcontrol => exact .inl ⟨rfl, hquote, hbackslash, by omega⟩
  all_goals
    subst_vars
    exact .inr ⟨_, rfl, fun _ => rfl⟩

/-- Every character of a string literal takes one step of the reader. -/
private theorem characters?_escapedChar (fuel : Nat) (read : List Char) (c : Char) (rest : List Char) :
    characters? (fuel + 1) read (escapedChar c ++ rest) = characters? fuel (c :: read) rest := by
  rcases escapedChar_cases c with ⟨hself, hquote, hbackslash, hcontrol⟩ | ⟨code, hescape, hread⟩
  · have hnot : ¬ c.toNat < 32 := by omega
    rw [hself]
    simp [characters?, hnot]
  · rw [hescape, List.cons_append]
    simp [characters?, hread]

private theorem characters?_escaped (text read rest : List Char) {fuel : Nat} (hfuel : text.length ≤ fuel) :
    characters? fuel read (text.flatMap escapedChar ++ '"' :: rest) =
      some (String.ofList (read.reverse ++ text), rest) := by
  induction text generalizing fuel read with
  | nil => cases fuel <;> simp [characters?]
  | cons c text ih =>
    cases fuel with
    | zero => simp at hfuel
    | succ fuel =>
      rw [List.flatMap_cons, List.append_assoc, characters?_escapedChar, ih _ (by simpa using hfuel)]
      simp

private theorem length_le_escaped (text : List Char) : text.length ≤ (text.flatMap escapedChar).length := by
  have hpos : ∀ c, 1 ≤ (escapedChar c).length := by
    intro c
    rcases escapedChar_cases c with ⟨h, -⟩ | ⟨code, h, -⟩ <;> simp [h]
  induction text with
  | nil => simp
  | cons c text ih =>
    have := hpos c
    simp only [List.flatMap_cons, List.length_append, List.length_cons]
    omega

/-- A string literal is read back. -/
theorem string?_literal (text : String) (rest : List Char) :
    string? (text.toList.flatMap escapedChar ++ '"' :: rest) = some (text, rest) := by
  have hlength := length_le_escaped text.toList
  rw [string?, characters?_escaped _ _ _ (by simp only [List.length_append]; omega)]
  simp

/-! ### Numbers and nesting -/

/-- Induction over documents, with all items or members at once. -/
theorem induction {P : Json → Prop} (null : P .null) (bool : ∀ b, P (.bool b)) (int : ∀ n, P (.int n))
    (float : ∀ x, P (.float x)) (string : ∀ text, P (.string text))
    (array : ∀ items, (∀ item ∈ items, P item) → P (.array items))
    (object : ∀ members, (∀ member ∈ members, P member.2) → P (.object members)) (doc : Json) : P doc :=
  @Json.rec P (fun items => ∀ item ∈ items, P item) (fun members => ∀ member ∈ members, P member.2)
    (fun member => P member.2) null bool int float string array object
    (by simp) (fun _ _ hitem hitems => List.forall_mem_cons.2 ⟨hitem, hitems⟩)
    (by simp) (fun _ _ hmember hmembers => List.forall_mem_cons.2 ⟨hmember, hmembers⟩)
    (fun _ _ hvalue => hvalue) doc

mutual

/-- The numbers in a document. -/
def numbers : Json → List Json
  | .int n => [.int n]
  | .float x => [.float x]
  | .array items => numbersOfItems items
  | .object members => numbersOfMembers members
  | _ => []

def numbersOfItems : List Json → List Json
  | [] => []
  | item :: items => numbers item ++ numbersOfItems items

def numbersOfMembers : List (String × Json) → List Json
  | [] => []
  | (_, value) :: members => numbers value ++ numbersOfMembers members

end

/-- A number is read back from its text. -/
def ReadsBack (number : Json) : Prop := number? number.compact.toList = some (number, [])

theorem mem_numbersOfItems {number : Json} {items : List Json} :
    number ∈ numbersOfItems items ↔ ∃ item ∈ items, number ∈ item.numbers := by
  induction items with
  | nil => simp [numbersOfItems]
  | cons item items ih => simp [numbersOfItems, ih]

theorem mem_numbersOfMembers {number : Json} {members : List (String × Json)} :
    number ∈ numbersOfMembers members ↔ ∃ member ∈ members, number ∈ member.2.numbers := by
  induction members with
  | nil => simp [numbersOfMembers]
  | cons member members ih => simp [numbersOfMembers, ih]

/-- An integer has 64 bits and a float is finite. -/
def Fits : Json → Prop
  | .int n => -2 ^ 63 ≤ n ∧ n < 2 ^ 64
  | .float x => x.isNaN = false ∧ x.isInf = false
  | _ => True

def NumbersFit (doc : Json) : Prop := ∀ number ∈ doc.numbers, number.Fits

section

variable {items : List Json} {members : List (String × Json)}

@[simp] theorem numbersFit_bool (b : Bool) : NumbersFit (.bool b) := by simp [NumbersFit, numbers]

@[simp] theorem numbersFit_string (text : String) : NumbersFit (.string text) := by simp [NumbersFit, numbers]

@[simp] theorem numbersFit_int {n : Int} : NumbersFit (.int n) ↔ -2 ^ 63 ≤ n ∧ n < 2 ^ 64 := by
  simp [NumbersFit, numbers, Fits]

/-- A natural number below `2 ^ 64` fits. -/
theorem numbersFit_natCast {n : Nat} (h : n < 2 ^ 64) : NumbersFit (.int n) := by
  rw [numbersFit_int]
  omega

@[simp] theorem numbersFit_float {x : Float} : NumbersFit (.float x) ↔ x.isNaN = false ∧ x.isInf = false := by
  simp [NumbersFit, numbers, Fits]

theorem forall_mem_numbers_array {P : Json → Prop} :
    (∀ number ∈ (array items).numbers, P number) ↔ ∀ item ∈ items, ∀ number ∈ item.numbers, P number := by
  simp only [numbers, mem_numbersOfItems]
  exact ⟨fun h item hitem number hn => h number ⟨item, hitem, hn⟩,
    fun h number ⟨item, hitem, hn⟩ => h item hitem number hn⟩

theorem forall_mem_numbers_object {P : Json → Prop} :
    (∀ number ∈ (object members).numbers, P number) ↔ ∀ member ∈ members, ∀ number ∈ member.2.numbers, P number := by
  simp only [numbers, mem_numbersOfMembers]
  exact ⟨fun h member hmember number hn => h number ⟨member, hmember, hn⟩,
    fun h number ⟨member, hmember, hn⟩ => h member hmember number hn⟩

@[simp] theorem numbersFit_array : NumbersFit (.array items) ↔ ∀ item ∈ items, item.NumbersFit :=
  forall_mem_numbers_array

@[simp] theorem numbersFit_object : NumbersFit (.object members) ↔ ∀ member ∈ members, member.2.NumbersFit :=
  forall_mem_numbers_object

end

/-- The numbers of a document are integers and floats. -/
theorem int_or_float_of_mem_numbers {doc number : Json} (h : number ∈ doc.numbers) :
    (∃ n, number = .int n) ∨ ∃ x, number = .float x := by
  induction doc using Json.induction with
  | null | bool | string => simp [numbers] at h
  | int n => exact .inl ⟨n, by simpa [numbers] using h⟩
  | float x => exact .inr ⟨x, by simpa [numbers] using h⟩
  | array items ih =>
    obtain ⟨item, hitem, hnumber⟩ := mem_numbersOfItems.1 (by simpa only [numbers] using h)
    exact ih item hitem hnumber
  | object members ih =>
    obtain ⟨member, hmember, hnumber⟩ := mem_numbersOfMembers.1 (by simpa only [numbers] using h)
    exact ih member hmember hnumber

/-- An integer of 64 bits is read back, with a sign or without. -/
theorem readsBack_int {n : Int} (hlow : -2 ^ 63 ≤ n) (hhigh : n < 2 ^ 64) : ReadsBack (.int n) := by
  rw [ReadsBack, compact]
  exact number?_int hlow hhigh

/-- Integers of 64 bits are read back, so only the finite floats are left to look at. -/
theorem readsBack_of_numbersFit {doc : Json} (hfit : doc.NumbersFit)
    (hfloats : ∀ x, x.isNaN = false → x.isInf = false → .float x ∈ doc.numbers → ReadsBack (.float x)) :
    ∀ number ∈ doc.numbers, ReadsBack number := by
  intro number hnumber
  have hnumberFits := hfit number hnumber
  rcases int_or_float_of_mem_numbers hnumber with ⟨n, rfl⟩ | ⟨x, rfl⟩
  · exact readsBack_int hnumberFits.1 hnumberFits.2
  · exact hfloats x hnumberFits.1 hnumberFits.2 hnumber

/-- The depth of a list of items is the greatest among theirs. -/
theorem depthItems_le_iff {items : List Json} {bound : Nat} :
    depthItems items ≤ bound ↔ ∀ item ∈ items, item.depth ≤ bound := by
  induction items with
  | nil => simp [depthItems]
  | cons item items ih => rw [depthItems, Nat.max_le, ih, List.forall_mem_cons]

/-- The depth of a list of members is the greatest among theirs. -/
theorem depthMembers_le_iff {members : List (String × Json)} {bound : Nat} :
    depthMembers members ≤ bound ↔ ∀ member ∈ members, member.2.depth ≤ bound := by
  induction members with
  | nil => simp [depthMembers]
  | cons member members ih => rw [depthMembers, Nat.max_le, ih, List.forall_mem_cons]

/-- The documents of a list are nested less deep than the list, which may be left out when it is empty. -/
theorem depth_map_le {α : Type} {toDoc : α → Json} {as : List α} {bound : Nat}
    (h : as.map toDoc ≠ [] → (Json.array (as.map toDoc)).depth ≤ bound) : ∀ a ∈ as, (toDoc a).depth ≤ bound := by
  intro a ha
  have hdoc : toDoc a ∈ as.map toDoc := List.mem_map_of_mem ha
  have hle := h (List.ne_nil_of_mem hdoc)
  rw [depth] at hle
  exact depthItems_le_iff.1 (Nat.le_of_succ_le hle) _ hdoc

/-! ### Reading documents -/

private theorem skipSpace_cons {c : Char} (hc : isSpace c = false) (cs : List Char) :
    skipSpace (c :: cs) = c :: cs := by
  simp [skipSpace, hc]

/-- The characters with which numbers start. -/
def StartsNumber (c : Char) : Prop := c = '-' ∨ c.isDigit = true

private theorem StartsNumber.ne {c d : Char} (hc : StartsNumber c) (hminus : d ≠ '-') (hdigit : d.isDigit = false) :
    c ≠ d := by
  rintro rfl
  rcases hc with rfl | hc
  · exact hminus rfl
  · rw [hc] at hdigit
    cases hdigit

private theorem StartsNumber.isSpace_eq {c : Char} (hc : StartsNumber c) : isSpace c = false := by
  simp only [isSpace, Bool.or_eq_false_iff, decide_eq_false_iff_not]
  refine ⟨⟨⟨?_, ?_⟩, ?_⟩, ?_⟩ <;> exact hc.ne (by decide) rfl

private theorem exists_cons_of_number? {cs : List Char} {result : Json × List Char} (h : number? cs = some result) :
    ∃ c cs', cs = c :: cs' ∧ StartsNumber c := by
  cases cs with
  | nil => cases h
  | cons c cs =>
    refine ⟨c, cs, rfl, ?_⟩
    by_cases hminus : c = '-'
    · exact .inl hminus
    · cases hdigit : c.isDigit with
      | true => exact .inr hdigit
      | false =>
        rw [number?_of_ne hminus] at h
        simp [unsigned?, digitRun, hdigit] at h

private theorem value?_of_number? {cs : List Char} {result : Json × List Char} (h : number? cs = some result)
    (fuel room : Nat) : value? (fuel + 1) room cs = some result := by
  obtain ⟨c, cs, rfl, hc⟩ := exists_cons_of_number? h
  unfold value?
  rw [skipSpace_cons hc.isSpace_eq]
  split
  case h_7 => exact h
  all_goals exact absurd (List.cons.inj ‹c :: cs = _ :: _›).1 (hc.ne (by decide) rfl)

/-- Within `room`, the document is read back in front of all that cannot continue a number. Its text starts neither
with white space nor like the end of an array. -/
structure Legible (room : Nat) (doc : Json) : Prop where
  starts : ∃ c cs, doc.compact.toList = c :: cs ∧ isSpace c = false ∧ c ≠ ']'
  reads : ∀ {fuel : Nat} {rest : List Char}, doc.compact.toList.length < fuel → EndsNumber rest →
    value? fuel room (doc.compact.toList ++ rest) = some (doc, rest)

private theorem ReadsBack.legible {number : Json} (h : ReadsBack number) (room : Nat) : Legible room number where
  starts := by
    obtain ⟨c, cs, hcs, hc⟩ := exists_cons_of_number? h
    exact ⟨c, cs, hcs, hc.isSpace_eq, hc.ne (by decide) rfl⟩
  reads := by
    intro fuel rest hfuel hrest
    obtain ⟨fuel, rfl⟩ : ∃ k, fuel = k + 1 := ⟨fuel - 1, by omega⟩
    refine value?_of_number? ?_ fuel room
    rw [number?_append hrest, h]
    rfl

private theorem endsNumber_cons {c : Char} (hc : c.isDigit = false ∧ c ∉ ['.', 'e', 'E', '+', '-'])
    (rest : List Char) : EndsNumber (c :: rest) := by
  intro d hd
  obtain rfl : c = d := by simpa using hd
  exact hc

theorem toList_compactItems (item next : Json) (items : List Json) :
    (compactItems (item :: next :: items)).toList =
      item.compact.toList ++ ',' :: (compactItems (next :: items)).toList := by
  simp [compactItems]

/-- Items are read back up to the closing bracket. -/
private theorem items?_compactItems {room : Nat} {items : List Json} (hne : items ≠ [])
    (hitems : ∀ item ∈ items, Legible room item) (read : List Json) (rest : List Char) {fuel : Nat}
    (hfuel : (compactItems items).toList.length + 1 < fuel) :
    items? fuel room read ((compactItems items).toList ++ ']' :: rest) =
      some (.array (read.reverse ++ items), rest) := by
  induction items generalizing read fuel with
  | nil => exact absurd rfl hne
  | cons item items ih =>
    obtain ⟨fuel, rfl⟩ : ∃ k, fuel = k + 1 := ⟨fuel - 1, by omega⟩
    have hitem := hitems item List.mem_cons_self
    cases items with
    | nil =>
      have hread : value? fuel room (item.compact.toList ++ ']' :: rest) = some (item, ']' :: rest) :=
        hitem.reads (by simpa [compactItems] using hfuel) (endsNumber_cons (by decide) rest)
      simp [items?, compactItems, hread, skipSpace, isSpace]
    | cons next items =>
      obtain ⟨c, cs, hcs, -⟩ := hitem.starts
      have hpos : 0 < item.compact.toList.length := by simp [hcs]
      rw [toList_compactItems, List.length_append, List.length_cons] at hfuel
      have hread : ∀ cs, value? fuel room (item.compact.toList ++ ',' :: cs) = some (item, ',' :: cs) :=
        fun cs => hitem.reads (by omega) (endsNumber_cons (by decide) cs)
      have hnext : items? fuel room (item :: read) ((compactItems (next :: items)).toList ++ ']' :: rest) = _ :=
        ih (by simp) (fun m hm => hitems m (List.mem_cons_of_mem _ hm)) (item :: read) (by omega)
      rw [items?, toList_compactItems, List.append_assoc, List.cons_append]
      simp [hread, skipSpace, isSpace, hnext]

/-- The text of a member. -/
def compactMember (member : String × Json) : List Char :=
  '"' :: (member.1.toList.flatMap escapedChar ++ '"' :: ':' :: member.2.compact.toList)

theorem toList_compactMembers_singleton (member : String × Json) :
    (compactMembers [member]).toList = compactMember member := by
  simp [compactMembers, compactMember, literal]

theorem toList_compactMembers (member next : String × Json) (members : List (String × Json)) :
    (compactMembers (member :: next :: members)).toList =
      compactMember member ++ ',' :: (compactMembers (next :: members)).toList := by
  simp [compactMembers, compactMember, literal]

/-- Members are read back up to the closing brace. -/
private theorem members?_compactMembers {room : Nat} {members : List (String × Json)} (hne : members ≠ [])
    (hmembers : ∀ member ∈ members, Legible room member.2) (read : List (String × Json)) (rest : List Char)
    {fuel : Nat} (hfuel : (compactMembers members).toList.length + 1 < fuel) :
    members? fuel room read ((compactMembers members).toList ++ '\x7d' :: rest) =
      some (.object (read.reverse ++ members), rest) := by
  induction members generalizing read fuel with
  | nil => exact absurd rfl hne
  | cons member members ih =>
    obtain ⟨fuel, rfl⟩ : ∃ k, fuel = k + 1 := ⟨fuel - 1, by omega⟩
    have hmember := hmembers member List.mem_cons_self
    have hlength : member.2.compact.toList.length < (compactMember member).length := by
      simp only [compactMember, List.length_cons, List.length_append]
      omega
    have hkey : ∀ cs, skipSpace (compactMember member ++ cs) = compactMember member ++ cs := by
      intro cs
      exact skipSpace_cons (by decide) _
    cases members with
    | nil =>
      rw [toList_compactMembers_singleton] at hfuel ⊢
      have hread : value? fuel room (member.2.compact.toList ++ '\x7d' :: rest) = some (member.2, '\x7d' :: rest) :=
        hmember.reads (by omega) (endsNumber_cons (by decide) rest)
      rw [members?, hkey]
      simp [compactMember, string?_literal, hread, skipSpace, isSpace]
    | cons next members =>
      -- the comma ends the value, also if it is a number
      rw [toList_compactMembers, List.length_append, List.length_cons] at hfuel
      have hread : ∀ cs, value? fuel room (member.2.compact.toList ++ ',' :: cs) = some (member.2, ',' :: cs) :=
        fun cs => hmember.reads (by omega) (endsNumber_cons (by decide) cs)
      have hnext : members? fuel room (member :: read)
          ((compactMembers (next :: members)).toList ++ '\x7d' :: rest) = _ :=
        ih (by simp) (fun m hm => hmembers m (List.mem_cons_of_mem _ hm)) (member :: read) (by omega)
      rw [toList_compactMembers, List.append_assoc, List.cons_append, members?, hkey]
      simp [compactMember, string?_literal, hread, skipSpace, isSpace, hnext]

/-- Of a text with a fixed first character only the reading is left to show. -/
private theorem Legible.of_reads {room : Nat} {doc : Json} {c : Char} {cs : List Char}
    (htext : doc.compact.toList = c :: cs) (hspace : isSpace c = false) (hbracket : c ≠ ']')
    (hreads : ∀ (fuel : Nat) (rest : List Char), cs.length < fuel →
      value? (fuel + 1) room (c :: (cs ++ rest)) = some (doc, rest)) : Legible room doc where
  starts := ⟨c, cs, htext, hspace, hbracket⟩
  reads := by
    intro fuel rest hfuel _
    rw [htext, List.length_cons] at hfuel
    obtain ⟨fuel, rfl⟩ : ∃ k, fuel = k + 1 := ⟨fuel - 1, by omega⟩
    rw [htext, List.cons_append]
    exact hreads fuel rest (by omega)

private theorem legible_array {room : Nat} {items : List Json} (hitems : ∀ item ∈ items, Legible room item) :
    Legible (room + 1) (.array items) := by
  have htext : (Json.array items).compact.toList = '[' :: ((compactItems items).toList ++ [']']) := by
    simp [compact]
  refine .of_reads htext (by decide) (by decide) fun fuel rest hfuel => ?_
  cases items with
  | nil => rfl
  | cons item items =>
    have hread : items? fuel room [] ((compactItems (item :: items)).toList ++ ']' :: rest) = _ :=
      items?_compactItems (List.cons_ne_nil _ _) hitems [] rest (by simpa using hfuel)
    -- The first item starts the text, so the text does not start like an empty array.
    obtain ⟨c, cs, hcs, hspace, hbracket⟩ := (hitems item List.mem_cons_self).starts
    obtain ⟨cs', hcs'⟩ : ∃ cs', (compactItems (item :: items)).toList = c :: cs' := by
      cases items <;> simp [compactItems, hcs]
    simp only [hcs', List.cons_append, List.append_assoc, List.nil_append] at hread ⊢
    simpa [value?, skipSpace_cons hspace, hbracket, skipSpace_cons (by decide : isSpace '[' = false)] using hread

private theorem legible_object {room : Nat} {members : List (String × Json)}
    (hmembers : ∀ member ∈ members, Legible room member.2) : Legible (room + 1) (.object members) := by
  have htext : (Json.object members).compact.toList = '\x7b' :: ((compactMembers members).toList ++ ['\x7d']) := by
    simp [compact]
  refine .of_reads htext (by decide) (by decide) fun fuel rest hfuel => ?_
  cases members with
  | nil => rfl
  | cons member members =>
    have hread : members? fuel room [] ((compactMembers (member :: members)).toList ++ '\x7d' :: rest) = _ :=
      members?_compactMembers (List.cons_ne_nil _ _) hmembers [] rest (by simpa using hfuel)
    obtain ⟨cs, hcs⟩ : ∃ cs, (compactMembers (member :: members)).toList = '"' :: cs := by
      cases members <;> simp [compactMembers, literal]
    simp only [hcs, List.cons_append, List.append_assoc, List.nil_append] at hread ⊢
    simpa [value?, skipSpace, isSpace] using hread

private theorem legible_string (room : Nat) (text : String) : Legible room (.string text) := by
  have htext : (Json.string text).compact.toList = '"' :: (text.toList.flatMap escapedChar ++ ['"']) := by
    simp [compact, literal]
  refine .of_reads htext (by decide) (by decide) fun fuel rest _ => ?_
  simp [value?, skipSpace_cons, isSpace, string?_literal]

/-- A document is read back if its numbers are and it is nested at most `room` deep. -/
theorem legible_of_depth_le {doc : Json} (hnumbers : ∀ number ∈ doc.numbers, ReadsBack number) {room : Nat}
    (hdepth : doc.depth ≤ room) : Legible room doc := by
  induction doc using Json.induction generalizing room with
  | null => exact .of_reads rfl (by decide) (by decide) fun _ _ _ => rfl
  | bool b => cases b <;> exact .of_reads rfl (by decide) (by decide) fun _ _ _ => rfl
  | int n => exact (hnumbers _ (by simp [numbers])).legible room
  | float x => exact (hnumbers _ (by simp [numbers])).legible room
  | string text => exact legible_string room text
  | array items ih =>
    rw [depth] at hdepth
    obtain ⟨room, rfl⟩ : ∃ k, room = k + 1 := ⟨room - 1, by omega⟩
    have hitems := depthItems_le_iff.1 (Nat.le_of_succ_le_succ hdepth)
    refine legible_array fun item hitem => ih item hitem (fun number hnumber => ?_) (hitems item hitem)
    exact hnumbers number (by rw [numbers]; exact mem_numbersOfItems.2 ⟨item, hitem, hnumber⟩)
  | object members ih =>
    rw [depth] at hdepth
    obtain ⟨room, rfl⟩ : ∃ k, room = k + 1 := ⟨room - 1, by omega⟩
    have hmembers := depthMembers_le_iff.1 (Nat.le_of_succ_le_succ hdepth)
    refine legible_object fun member hmember => ih member hmember (fun number hnumber => ?_) (hmembers member hmember)
    exact hnumbers number (by rw [numbers]; exact mem_numbersOfMembers.2 ⟨member, hmember, hnumber⟩)

/-- The text of a document is read back as a whole. -/
theorem read?_compact {doc : Json} (hnumbers : ∀ number ∈ doc.numbers, ReadsBack number)
    (hdepth : doc.depth ≤ maxDepth) : read? doc.compact = some (doc, []) := by
  have hread := (legible_of_depth_le hnumbers hdepth).reads (Nat.lt_succ_self _) .nil
  rwa [List.append_nil, String.length_toList] at hread

end SqlPlan.Json
