import SqlPlan.Compiler.Relation
import SqlPlan.Dialect.Registry
import SqlPlan.Text.Escaped

/-!
# Registries of compilers

Compilers by the names of their dialects. A compiler may take the place of another one.
-/

namespace SqlPlan

/-- Compilers of different names. -/
structure CompilerRegistry where
  compilers : List Compiler
  distinct : (compilers.map (·.name)).Nodup

namespace CompilerRegistry

def empty : CompilerRegistry := ⟨[], List.nodup_nil⟩

def find? (r : CompilerRegistry) (name : String) : Option Compiler := r.compilers.find? (·.name == name)

def get (r : CompilerRegistry) (name : String) : Except CompileError Compiler :=
  match r.find? name with
  | some c => .ok c
  | none => .error (.unknownDialect name)

/-- Puts a compiler under its name, in place of an earlier one. -/
def register (r : CompilerRegistry) (c : Compiler) : CompilerRegistry where
  compilers := r.compilers.filter (·.name != c.name) ++ [c]
  distinct := by
    have hkept : ((r.compilers.filter (·.name != c.name)).map (·.name)).Nodup :=
      r.distinct.sublist (List.filter_sublist.map _)
    rw [List.map_append, List.nodup_append]
    refine ⟨hkept, by simp, ?_⟩
    rintro _ hname _ hother rfl
    obtain ⟨d, hd, rfl⟩ := List.mem_map.1 hname
    have hne : d.name ≠ c.name := by simpa using (List.mem_filter.1 hd).2
    exact hne (by simpa using hother)

def builtin : CompilerRegistry := ⟨Compiler.builtins, by decide⟩

/-- Adds a compiler for a dialect that is described by data alone, unless there is a compiler of its name. -/
def addDialect (dialects : DialectRegistry) (r : CompilerRegistry) (name : String) :
    Except CompileError CompilerRegistry :=
  if (r.find? name).isSome then .ok r
  else
    match dialects.get name with
    | .ok d => .ok (r.register (.ofDialect d))
    | .error _ => .error (.unknownDialect name)

/-- The built-in compilers, and compilers for all dialects of other names. -/
def ofDialects (dialects : DialectRegistry) : Except CompileError CompilerRegistry :=
  dialects.names.foldlM (addDialect dialects) builtin

/-- The names of all compilers in order. -/
def names (r : CompilerRegistry) : List String := ordered (r.compilers.map (·.name))

def compile (r : CompilerRegistry) (n : Node) (dialect : String) : Except CompileError Sql.Fragment := do
  let c ← r.get dialect
  c.compile n

/-- The registry in words. -/
def text (r : CompilerRegistry) : String :=
  "CompilerRegistry \x7b dialects: [" ++ ", ".intercalate (r.names.map escaped) ++ "] \x7d"

end CompilerRegistry

end SqlPlan
