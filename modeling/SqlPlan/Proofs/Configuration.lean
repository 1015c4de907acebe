import SqlPlan.CommandLine.Run
import SqlPlan.Proofs.Registration

/-!
# Compilers of configured dialects

The settings name dialects beside the built-in ones: some are written in the settings themselves, and the others are
read from files. If all of them can be registered, the program has compilers for exactly these dialects and the
built-in ones, each under its own name; otherwise it has none. This holds for every way of reading dialects from the
text of a file.

* `CompilerRegistry.ofDialects_find?`: which compilers are made for a registry of dialects.
* `DialectRegistry.registerFiles_eq_ok_iff`: when files of dialects are registered.
* `Settings.compilers_configured`: what the compilers for settings are.
-/

namespace SqlPlan

/-! ### Names in order -/

private theorem ordered_perm (texts : List String) : (ordered texts).Perm texts := List.mergeSort_perm _ _

private theorem ordered_pairwise_le (texts : List String) : (ordered texts).Pairwise (· ≤ ·) := by
  have hle (a b : String) : (!decide (b < a)) = true ↔ a ≤ b := by
    rw [Bool.not_eq_true', decide_eq_false_iff_not, String.not_lt]
  have hsorted : (ordered texts).Pairwise fun a b => (!decide (b < a)) = true := by
    apply List.pairwise_mergeSort
    · intro a b c hab hbc
      exact (hle a c).2 (String.le_trans ((hle a b).1 hab) ((hle b c).1 hbc))
    · intro a b
      rw [Bool.or_eq_true, hle, hle]
      exact String.le_total a b
  exact hsorted.imp fun {a b} hab => (hle a b).1 hab

/-- Texts that are different from each other are put in strict order. -/
private theorem ordered_pairwise {texts : List String} (h : texts.Nodup) : (ordered texts).Pairwise (· < ·) := by
  have hne : (ordered texts).Nodup := (ordered_perm texts).nodup_iff.2 h
  refine ((ordered_pairwise_le texts).and hne).imp fun {a b} hab => ?_
  obtain ⟨hle, hne⟩ := hab
  by_contra hlt
  exact hne (String.le_antisymm hle (String.not_lt.1 hlt))

namespace CompilerRegistry

variable {r : CompilerRegistry} {c : Compiler} {name : String}

/-! ### Lookups -/

private theorem find?_eq_some_iff : r.find? name = some c ↔ c ∈ r.compilers ∧ c.name = name :=
  find?_name_eq_some_iff r.distinct

private theorem find?_eq_none_iff : r.find? name = none ↔ name ∉ r.compilers.map (·.name) := by
  simp [find?]

private theorem mem_names_of_find? (h : r.find? name = some c) : name ∈ r.names := by
  obtain ⟨hc, rfl⟩ := find?_eq_some_iff.1 h
  exact (ordered_perm _).mem_iff.2 (List.mem_map_of_mem hc)

private theorem mem_register {e : Compiler} :
    e ∈ (r.register c).compilers ↔ e ∈ r.compilers ∧ e.name ≠ c.name ∨ e = c := by
  simp [register]

/-- A compiler is found under its name, and lookups of other names are left alone. -/
theorem find?_register (r : CompilerRegistry) (c : Compiler) (name : String) :
    (r.register c).find? name = if c.name = name then some c else r.find? name := by
  apply Option.ext
  intro e
  rw [find?_eq_some_iff, mem_register]
  by_cases hname : c.name = name
  · subst hname
    rw [if_pos rfl, Option.some.injEq]
    constructor
    · rintro ⟨⟨-, hne⟩ | rfl, heq⟩
      · exact absurd heq hne
      · rfl
    · rintro rfl
      exact ⟨.inr rfl, rfl⟩
  · rw [if_neg hname, find?_eq_some_iff]
    constructor
    · rintro ⟨⟨he, -⟩ | rfl, heq⟩
      · exact ⟨he, heq⟩
      · exact absurd heq hname
    · rintro ⟨he, rfl⟩
      exact ⟨.inl ⟨he, fun heq => hname heq.symm⟩, rfl⟩

private theorem compile_of_find? (h : r.find? name = some c) (n : Node) : r.compile n name = c.compile n := by
  unfold compile get
  rw [h]
  rfl

private theorem compile_of_find?_none (h : r.find? name = none) (n : Node) :
    r.compile n name = .error (.unknownDialect name) := by
  unfold compile get
  rw [h]
  rfl

/-! ### Compilers for dialects -/

variable {dialects : DialectRegistry}

/-- A dialect gets a compiler unless its name has one. -/
private theorem addDialect_find? (h : dialects.contains name) (r : CompilerRegistry) :
    ∃ s, addDialect dialects r name = .ok s ∧ ∀ x, s.find? x =
      (r.find? x).or (if x = name then (dialects.find? x).map .ofDialect else none) := by
  obtain ⟨d, hd⟩ := Option.isSome_iff_exists.1 h
  have hname : (Compiler.ofDialect d).name = name := (DialectRegistry.find?_eq_some_iff.1 hd).2
  unfold addDialect
  by_cases hfound : (r.find? name).isSome
  · rw [if_pos hfound]
    refine ⟨r, rfl, fun x => ?_⟩
    by_cases hx : x = name
    · subst hx
      rw [Option.or_of_isSome hfound]
    · rw [if_neg hx, Option.or_none]
  · rw [if_neg hfound, DialectRegistry.get, hd]
    refine ⟨_, rfl, fun x => ?_⟩
    rw [find?_register]
    by_cases hx : x = name
    · subst hx
      have hnone : r.find? x = none := by simpa using hfound
      rw [if_pos hname, if_pos rfl, hnone, Option.none_or, hd]
      rfl
    · have hne : (Compiler.ofDialect d).name ≠ x := fun heq => hx (heq.symm.trans hname)
      rw [if_neg hne, if_neg hx, Option.or_none]

/-- The names of a list get compilers, one after the other. -/
private theorem foldlM_addDialect_find? {names : List String} (h : ∀ name ∈ names, dialects.contains name)
    (r : CompilerRegistry) :
    ∃ s, names.foldlM (addDialect dialects) r = .ok s ∧ ∀ x, s.find? x =
      (r.find? x).or (if x ∈ names then (dialects.find? x).map .ofDialect else none) := by
  induction names generalizing r with
  | nil => exact ⟨r, rfl, fun x => by simp⟩
  | cons name names ih =>
    obtain ⟨s, hs, hsfind⟩ := addDialect_find? (h name List.mem_cons_self) r
    obtain ⟨t, ht, htfind⟩ := ih (fun name hname => h name (List.mem_cons_of_mem _ hname)) s
    refine ⟨t, ?_, fun x => ?_⟩
    · rw [List.foldlM_cons, hs]
      exact ht
    · rw [htfind, hsfind, Option.or_assoc]
      by_cases hx : x = name
      · subst hx
        -- what the other names add for `x` is there already
        by_cases hmem : x ∈ names <;> simp [hmem]
      · simp [hx]

/-- The compilers for a registry of dialects are the built-in ones and those for all dialects of other names. -/
theorem ofDialects_find? (dialects : DialectRegistry) :
    ∃ s, ofDialects dialects = .ok s ∧ ∀ x, s.find? x = (builtin.find? x).or ((dialects.find? x).map .ofDialect) := by
  have hmem (name : String) : name ∈ dialects.names ↔ dialects.contains name := by
    rw [DialectRegistry.names, (ordered_perm _).mem_iff, DialectRegistry.contains_iff]
  obtain ⟨s, hs, hfind⟩ := foldlM_addDialect_find? (fun name hname => (hmem name).1 hname) builtin
  refine ⟨s, hs, fun x => ?_⟩
  rw [hfind]
  by_cases hx : x ∈ dialects.names
  · rw [if_pos hx]
  · have hnone : dialects.find? x = none := by simpa [DialectRegistry.contains] using mt (hmem x).2 hx
    rw [if_neg hx, hnone, Option.map_none]

end CompilerRegistry

/-! ### Files of dialects -/

namespace Dialect

variable (dialectsOf? : String → Option (List Dialect))

/-- The dialects of a file, if the file loads. -/
def ofFile? (contents : FileContents) : Option (List Dialect) := contents.text?.bind dialectsOf?

/-- The dialects of files, one file after the other, if all of them load. -/
def ofFiles? (files : String → FileContents) : List String → Option (List Dialect)
  | [] => some []
  | path :: paths => do
    let ds ← ofFile? dialectsOf? (files path)
    return ds ++ (← ofFiles? files paths)

variable {dialectsOf?} in
private theorem ofFiles?_cons_eq_some_iff {files : String → FileContents} {path : String} {paths : List String}
    {ds : List Dialect} : ofFiles? dialectsOf? files (path :: paths) = some ds ↔
      ∃ first rest, ofFile? dialectsOf? (files path) = some first ∧ ofFiles? dialectsOf? files paths = some rest ∧
        first ++ rest = ds := by
  rw [ofFiles?]
  simp [Option.bind_eq_some_iff]

end Dialect

namespace DialectRegistry

variable {dialectsOf? : String → Option (List Dialect)} {r : DialectRegistry} {contents : FileContents}
  {files : String → FileContents}

private theorem registerContents_of_admits {ds : List Dialect}
    (hload : Dialect.ofFile? dialectsOf? contents = some ds) (h : r.Admits ds) :
    (registerContents dialectsOf? contents.text?).run r = .ok (ds.map (·.name)) (r.addAll ds h) := by
  obtain ⟨text, htext, hread⟩ := Option.bind_eq_some_iff.1 hload
  rw [htext]
  exact registerText_of_admits hread h

/-- A file that does not load or has a name that is taken changes nothing. -/
private theorem registerContents_of_not_admits
    (h : ∀ ds, Dialect.ofFile? dialectsOf? contents = some ds → ¬r.Admits ds) :
    ∃ e, (registerContents dialectsOf? contents.text?).run r = .error e r := by
  unfold Dialect.ofFile? at h
  cases htext : contents.text? with
  | none => exact ⟨.unreadable, rfl⟩
  | some text =>
    apply registerText_of_not_admits
    intro ds hread
    exact h ds (by rw [htext]; exact hread)

/-- A step that begins with the contents of a file. -/
private theorem run_read_bind {m : Type → Type} [Monad m] [LawfulMonad m] {α : Type} (contents : m FileContents)
    (f : FileContents → ExceptT String m α) :
    ((liftM contents : ExceptT String m FileContents) >>= f).run = contents >>= fun a => (f a).run :=
  ExceptT.run_bind_lift contents f

/-- Files are registered exactly if all of them load and their dialects have new names. -/
theorem registerFiles_eq_ok_iff {paths : List String} {s : DialectRegistry} :
    Id.run (r.registerFiles files dialectsOf? paths).run = .ok s ↔
      ∃ ds, Dialect.ofFiles? dialectsOf? files paths = some ds ∧ ∃ h : r.Admits ds, s = r.addAll ds h := by
  induction paths generalizing r with
  | nil =>
    have hnil : r.Admits [] := ⟨List.nodup_nil, by simp⟩
    have hadd : r.addAll [] hnil = r := by simp [addAll]
    constructor
    · intro h
      cases h
      exact ⟨[], rfl, hnil, hadd.symm⟩
    · rintro ⟨ds, hds, h, rfl⟩
      cases hds
      exact congrArg Except.ok hadd.symm
  | cons path paths ih =>
    have hread : Id.run (files path) = files path := rfl
    unfold registerFiles
    rw [run_read_bind, Id.run_bind, hread]
    -- the first file is registered as a whole, or the others are not read at all
    by_cases hfile : ∃ first, Dialect.ofFile? dialectsOf? (files path) = some first ∧ r.Admits first
    · obtain ⟨first, hload, hfirst⟩ := hfile
      rw [registerContents_of_admits hload hfirst]
      refine ih.trans ⟨?_, ?_⟩
      · rintro ⟨rest, hrest, hs⟩
        exact ⟨first ++ rest, Dialect.ofFiles?_cons_eq_some_iff.2 ⟨first, rest, hload, hrest, rfl⟩,
          (addAll_append_iff hfirst).1 hs⟩
      · rintro ⟨ds, hds, hs⟩
        obtain ⟨first', rest, hload', hrest, rfl⟩ := Dialect.ofFiles?_cons_eq_some_iff.1 hds
        cases hload.symm.trans hload'
        exact ⟨rest, hrest, (addAll_append_iff hfirst).2 hs⟩
    · obtain ⟨e, he⟩ := registerContents_of_not_admits fun ds hload hds => hfile ⟨ds, hload, hds⟩
      rw [he]
      constructor
      · intro h
        cases h
      · rintro ⟨ds, hds, hall, -⟩
        obtain ⟨first, rest, hload, -, rfl⟩ := Dialect.ofFiles?_cons_eq_some_iff.1 hds
        exact absurd ⟨first, hload, (admits_append_iff.1 hall).1⟩ hfile

end DialectRegistry

/-! ### Compilers for settings -/

namespace Settings

open DialectRegistry

variable (dialectsOf? : String → Option (List Dialect)) (files : String → FileContents) (s : Settings)

/-- The dialects of the settings and those of their files, if all files load. -/
def configured? : Option (List Dialect) := (Dialect.ofFiles? dialectsOf? files s.dialectFiles).map (s.dialects ++ ·)

/-- The files are registered after the dialects of the settings exactly if all of them can be registered at once. -/
private theorem registerFiles_dialects_eq_ok_iff (h : builtin.Admits s.dialects) {r : DialectRegistry} :
    Id.run ((builtin.addAll s.dialects h).registerFiles files dialectsOf? s.dialectFiles).run = .ok r ↔
      ∃ ds, s.configured? dialectsOf? files = some ds ∧ ∃ hds : builtin.Admits ds, r = builtin.addAll ds hds := by
  rw [registerFiles_eq_ok_iff]
  constructor
  · rintro ⟨more, hmore, hr⟩
    exact ⟨s.dialects ++ more, Option.map_eq_some_iff.2 ⟨more, hmore, rfl⟩, (addAll_append_iff h).1 hr⟩
  · rintro ⟨ds, hds, hr⟩
    obtain ⟨more, hmore, rfl⟩ := Option.map_eq_some_iff.1 hds
    exact ⟨more, hmore, (addAll_append_iff h).2 hr⟩

/-- The compilers are made exactly if the registry of built-in dialects admits those of the settings. -/
theorem compilers_eq_ok_iff {r : CompilerRegistry} :
    Id.run (s.compilers files dialectsOf?).run = .ok r ↔ ∃ ds, s.configured? dialectsOf? files = some ds ∧
      ∃ h : builtin.Admits ds, CompilerRegistry.ofDialects (builtin.addAll ds h) = .ok r := by
  unfold compilers
  by_cases h : builtin.Admits s.dialects
  · rw [registerAll_of_admits h]
    dsimp only
    rw [ExceptT.run_bind, Id.run_bind]
    cases hfiles : Id.run ((builtin.addAll s.dialects h).registerFiles files dialectsOf? s.dialectFiles).run with
    | error message =>
      constructor
      · intro hr
        cases hr
      · rintro ⟨ds, hds, hall, -⟩
        have hok := (registerFiles_dialects_eq_ok_iff dialectsOf? files s h).2 ⟨ds, hds, hall, rfl⟩
        rw [hfiles] at hok
        cases hok
    | ok t =>
      obtain ⟨ds, hds, hall, rfl⟩ := (registerFiles_dialects_eq_ok_iff dialectsOf? files s h).1 hfiles
      -- every name in a registry has a dialect, so that there is a compiler for each of them
      obtain ⟨compilers, hcompilers, -⟩ := CompilerRegistry.ofDialects_find? (builtin.addAll ds hall)
      dsimp only
      rw [hcompilers]
      constructor
      · intro hr
        cases hr
        exact ⟨ds, hds, hall, hcompilers⟩
      · rintro ⟨ds', hds', hall', hr⟩
        cases hds.symm.trans hds'
        cases hcompilers.symm.trans hr
        rfl
  · obtain ⟨name, hname⟩ := registerAll_of_not_admits h
    rw [hname]
    constructor
    · intro hr
      cases hr
    · rintro ⟨ds, hds, hall, -⟩
      obtain ⟨more, -, rfl⟩ := Option.map_eq_some_iff.1 hds
      exact absurd (admits_append_iff.1 hall).1 h

/-- There is a built-in compiler for every built-in dialect. -/
private theorem builtin_contains_iff {name : String} :
    builtin.contains name = false ↔ name ∉ Compiler.builtins.map (·.name) := by
  have hnames : Compiler.builtins.map (·.name) = builtin.dialects.map (·.name) := rfl
  rw [hnames, ← contains_iff, Bool.not_eq_true]

private theorem builtin_admits_iff {ds : List Dialect} : builtin.Admits ds ↔
    (ds.map (·.name)).Nodup ∧ ∀ d ∈ ds, d.name ∉ Compiler.builtins.map (·.name) := by
  constructor
  · intro h
    exact ⟨h.distinct, fun d hd => builtin_contains_iff.1 (h.free d hd)⟩
  · rintro ⟨hdistinct, hnames⟩
    exact ⟨hdistinct, fun d hd => builtin_contains_iff.2 (hnames d hd)⟩

section Names

variable {ds : List Dialect} {hall : builtin.Admits ds} {r : CompilerRegistry}
  (hr : ∀ x, r.find? x = (CompilerRegistry.builtin.find? x).or (((builtin.addAll ds hall).find? x).map .ofDialect))

include hr

private theorem find?_of_mem_builtins {c : Compiler} (hc : c ∈ Compiler.builtins) : r.find? c.name = some c := by
  have hfind : CompilerRegistry.builtin.find? c.name = some c := CompilerRegistry.find?_eq_some_iff.2 ⟨hc, rfl⟩
  rw [hr, hfind, Option.some_or]

private theorem find?_of_mem_dialects {d : Dialect} (hd : d ∈ ds) : r.find? d.name = some (.ofDialect d) := by
  have hnone : CompilerRegistry.builtin.find? d.name = none :=
    CompilerRegistry.find?_eq_none_iff.2 ((builtin_admits_iff.1 hall).2 d hd)
  have hfind : (builtin.addAll ds hall).find? d.name = some d :=
    find?_eq_some_iff.2 ⟨List.mem_append_right _ hd, rfl⟩
  rw [hr, hnone, hfind]
  rfl

private theorem find?_of_not_mem {name : String} (hbuiltin : name ∉ Compiler.builtins.map (·.name))
    (hds : name ∉ ds.map (·.name)) : r.find? name = none := by
  have hnone : (builtin.addAll ds hall).find? name = none := by
    have hcontains := (contains_addAll hall name).2 ⟨builtin_contains_iff.2 hbuiltin, hds⟩
    simpa [contains] using hcontains
  rw [hr, CompilerRegistry.find?_eq_none_iff.2 hbuiltin, hnone]
  rfl

private theorem names_perm : r.names.Perm (Compiler.builtins.map (·.name) ++ ds.map (·.name)) := by
  have hdistinct : (Compiler.builtins.map (·.name) ++ ds.map (·.name)).Nodup := by
    have h := (builtin.addAll ds hall).distinct
    rw [addAll, List.map_append] at h
    exact h
  have hnames : r.names.Nodup := (ordered_perm _).nodup_iff.2 r.distinct
  refine (List.perm_ext_iff_of_nodup hnames hdistinct).2 fun name => ⟨fun hname => ?_, fun hname => ?_⟩
  · by_contra hnot
    rw [List.mem_append, not_or] at hnot
    have hnone := find?_of_not_mem hr hnot.1 hnot.2
    exact CompilerRegistry.find?_eq_none_iff.1 hnone ((ordered_perm _).mem_iff.1 hname)
  · rcases List.mem_append.1 hname with hname | hname
    · obtain ⟨c, hc, rfl⟩ := List.mem_map.1 hname
      exact CompilerRegistry.mem_names_of_find? (find?_of_mem_builtins hr hc)
    · obtain ⟨d, hd, rfl⟩ := List.mem_map.1 hname
      exact CompilerRegistry.mem_names_of_find? (find?_of_mem_dialects hr hd)

end Names

/-- Settings give compilers exactly if all their files load and their dialects have names that are different from each
other and from the built-in ones. Then there are compilers of the built-in names and of these names and no others: the
built-in compilers are left alone, and each of the dialects has the compiler that it alone describes. -/
theorem compilers_configured :
    ((∃ r, Id.run (s.compilers files dialectsOf?).run = .ok r) ↔ ∃ ds, s.configured? dialectsOf? files = some ds ∧
      (ds.map (·.name)).Nodup ∧ ∀ d ∈ ds, d.name ∉ Compiler.builtins.map (·.name)) ∧
    ∀ (r : CompilerRegistry) (ds : List Dialect), Id.run (s.compilers files dialectsOf?).run = .ok r →
      s.configured? dialectsOf? files = some ds →
        r.names.Pairwise (· < ·) ∧ r.names.Perm (Compiler.builtins.map (·.name) ++ ds.map (·.name)) ∧
        (∀ c ∈ Compiler.builtins, ∀ n, r.compile n c.name = c.compile n) ∧
        (∀ d ∈ ds, ∀ n, r.compile n d.name = (Compiler.ofDialect d).compile n) ∧
        ∀ name, name ∉ Compiler.builtins.map (·.name) → name ∉ ds.map (·.name) →
          ∀ n, r.compile n name = .error (.unknownDialect name) := by
  refine ⟨?_, fun r ds hr hds => ?_⟩
  · constructor
    · rintro ⟨r, hr⟩
      obtain ⟨ds, hds, h, -⟩ := (compilers_eq_ok_iff dialectsOf? files s).1 hr
      exact ⟨ds, hds, builtin_admits_iff.1 h⟩
    · rintro ⟨ds, hds, h⟩
      have hall := builtin_admits_iff.2 h
      obtain ⟨r, hr, -⟩ := CompilerRegistry.ofDialects_find? (builtin.addAll ds hall)
      exact ⟨r, (compilers_eq_ok_iff dialectsOf? files s).2 ⟨ds, hds, hall, hr⟩⟩
  · obtain ⟨ds', hds', hall, hmade⟩ := (compilers_eq_ok_iff dialectsOf? files s).1 hr
    cases hds.symm.trans hds'
    obtain ⟨r', hr', hfind⟩ := CompilerRegistry.ofDialects_find? (builtin.addAll ds hall)
    cases hmade.symm.trans hr'
    refine ⟨ordered_pairwise r.distinct, names_perm hfind, fun c hc n => ?_, fun d hd n => ?_, fun name hc hd n => ?_⟩
    · exact CompilerRegistry.compile_of_find? (find?_of_mem_builtins hfind hc) n
    · exact CompilerRegistry.compile_of_find? (find?_of_mem_dialects hfind hd) n
    · exact CompilerRegistry.compile_of_find?_none (find?_of_not_mem hfind hc hd) n

end Settings

end SqlPlan
