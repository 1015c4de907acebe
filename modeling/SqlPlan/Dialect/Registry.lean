import SqlPlan.Dialect.Basic
import SqlPlan.Text.Ordered
import SqlPlan.Text.Repeated

/-!
# Registries of dialects

A registry holds dialects under their names. No dialect ever takes the place of another, and several dialects are
registered together or not at all.
-/

namespace SqlPlan

inductive RegistryError where
  | notFound (name : String)
  | duplicate (name : String)
  /-- A file of dialects cannot be read. -/
  | unreadable
  /-- A document of dialects does not have the right form. -/
  | malformed
deriving Repr, DecidableEq

def RegistryError.message : RegistryError → String
  | .notFound name => "Dialect not found: " ++ name
  | .duplicate name => "Dialect already registered: " ++ name
  | .unreadable => "Failed to read dialect file"
  | .malformed => "Failed to parse dialect file"

/-- Dialects of different names. -/
structure DialectRegistry where
  dialects : List Dialect
  distinct : (dialects.map (·.name)).Nodup

/-- A change of a registry. If it fails, the registry stays as the steps ahead of the failure have left it. -/
abbrev Registration (α : Type) : Type := EStateM RegistryError DialectRegistry α

namespace DialectRegistry

def empty : DialectRegistry := ⟨[], List.nodup_nil⟩

def builtin : DialectRegistry := ⟨Dialect.builtins, by decide⟩

def find? (r : DialectRegistry) (name : String) : Option Dialect := r.dialects.find? (·.name == name)

def get (r : DialectRegistry) (name : String) : Except RegistryError Dialect :=
  match r.find? name with
  | some d => .ok d
  | none => .error (.notFound name)

def contains (r : DialectRegistry) (name : String) : Bool := (r.find? name).isSome

/-- A name is taken just if a dialect in the registry has it. -/
theorem contains_iff {r : DialectRegistry} {name : String} :
    r.contains name = true ↔ name ∈ r.dialects.map (·.name) := by
  simp [contains, find?]

/-- The names of all dialects in order. -/
def names (r : DialectRegistry) : List String := ordered (r.dialects.map (·.name))

/-- The registry with a dialect of a new name. -/
def add (r : DialectRegistry) (d : Dialect) (h : ¬r.contains d.name) : DialectRegistry where
  dialects := r.dialects ++ [d]
  distinct := by
    rw [contains_iff] at h
    rw [List.map_append, List.nodup_append]
    exact ⟨r.distinct, by simp, by simpa using h⟩

/-- Registers a dialect, unless its name is taken. -/
def register (d : Dialect) : Registration Unit := do
  let r ← getThe DialectRegistry
  if h : r.contains d.name then throw (.duplicate d.name) else set (r.add d h)

/-- Registers several dialects. All names are looked up ahead of the first registration, so that none of the dialects
is registered if a name is taken by the registry or by one further ahead. -/
def registerAll (ds : List Dialect) : Registration Unit := do
  let r ← getThe DialectRegistry
  match repeatedName? (r.dialects.map (·.name)) (ds.map (·.name)) with
  | some name => throw (.duplicate name)
  | none => ds.forM register

/-- Registers the dialects that a text is read as, and gives their names. -/
def registerText (read? : String → Option (List Dialect)) (text : String) : Registration (List String) :=
  match read? text with
  | none => throw .malformed
  | some dialects => do
    registerAll dialects
    return dialects.map (·.name)

/-- Registers the dialects of a file, whose text may be missing. -/
def registerContents (read? : String → Option (List Dialect)) : Option String → Registration (List String)
  | none => throw .unreadable
  | some text => registerText read? text

end DialectRegistry

end SqlPlan
