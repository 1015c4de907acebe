/-!
# Reading structures from documents

A document gives the fields of a structure by name, in any order, or by position. Several of them may be at fault; the
fault that is reported is the one that stands first in the document, and a missing field counts as standing behind all
others. `Fields` describes the fields of a structure in the order of their declaration and combines their readings
under this rule.
-/

namespace SqlPlan

/-- Why a document could not be read: it does not have the expected form, or it describes something invalid. -/
inductive ReadError (ε : Type) where
  | malformed
  | invalid (cause : ε)
deriving Repr, DecidableEq

/-- Reads a value from a document. -/
abbrev Reader (δ ε α : Type) : Type := δ → Except (ReadError ε) α

namespace Reader

variable {δ ε α : Type}

/-- A reader for which every refusal is a matter of form. -/
def ofOption (f : δ → Option α) : Reader δ ε α := fun d =>
  match f d with
  | some a => .ok a
  | none => .error .malformed

/-- Reads every document of a list, up to the first that fails. -/
def all (read : Reader δ ε α) : List δ → Except (ReadError ε) (List α)
  | [] => .ok []
  | d :: ds =>
    match read d with
    | .error e => .error e
    | .ok a =>
      match all read ds with
      | .error e => .error e
      | .ok as => .ok (a :: as)

end Reader

/-- The fields of a structure as a document gives them. -/
inductive Record (δ : Type) where
  | named (members : List (String × δ))
  | positional (items : List δ)

/-- What is wrong with a field, and where it stands. -/
structure Fault (ε : Type) where
  position : Nat
  error : ReadError ε

/-- How the fields of a structure are read: their number, and their reading when the first of them has a given place
in the declaration. -/
structure Fields (δ ε α : Type) where
  count : Nat
  read : Nat → Record δ → Except (Fault ε) α

namespace Fields

variable {δ ε α β : Type}

/-- The places where a name occurs among the members. -/
def occurrences (name : String) (members : List (String × δ)) : List (Nat × δ) :=
  members.zipIdx.filterMap fun ((key, value), i) => if key = name then some (i, value) else none

def standingAt (position : Nat) : Except (ReadError ε) α → Except (Fault ε) α
  | .ok a => .ok a
  | .error e => .error ⟨position, e⟩

def absent (position : Nat) : Option α → Except (Fault ε) α
  | some a => .ok a
  | none => .error ⟨position, .malformed⟩

/-- A field by its name. Without a default it must be given, and it may not be given twice. -/
def field (name : String) (default? : Option α) (read : Reader δ ε α) : Fields δ ε α where
  count := 1
  read := fun place record =>
    match record with
    | .positional items =>
      match items[place]? with
      | some item => standingAt place (read item)
      | none => absent place default?
    | .named members =>
      match occurrences name members with
      | [] => absent members.length default?
      | [(i, value)] => standingAt i (read value)
      | (i, value) :: (j, _) :: _ =>
        match read value with
        | .ok _ => .error ⟨j, .malformed⟩
        | .error e => .error ⟨i, e⟩

def required (name : String) (read : Reader δ ε α) : Fields δ ε α := field name none read

def optional (name : String) (default : α) (read : Reader δ ε α) : Fields δ ε α := field name (some default) read

/-- The result of two readings, or the fault that stands first. -/
def earliest (f : Except (Fault ε) (α → β)) (x : Except (Fault ε) α) : Except (Fault ε) β :=
  match f, x with
  | .ok f, .ok a => .ok (f a)
  | .error e, .ok _ => .error e
  | .ok _, .error e => .error e
  | .error e, .error e' => .error (if e'.position < e.position then e' else e)

instance : Applicative (Fields δ ε) where
  pure a := ⟨0, fun _ _ => .ok a⟩
  map f x := ⟨x.count, fun place record => (x.read place record).map f⟩
  seq f x :=
    let x := x ()
    ⟨f.count + x.count, fun place record => earliest (f.read place record) (x.read (place + f.count) record)⟩

/-- Reads a structure. A list may not have more items than there are fields. -/
def run (fields : Fields δ ε α) (record : Record δ) : Except (ReadError ε) α :=
  match fields.read 0 record, record with
  | .error fault, _ => .error fault.error
  | .ok a, .named _ => .ok a
  | .ok a, .positional items => if items.length ≤ fields.count then .ok a else .error .malformed

end Fields

end SqlPlan
