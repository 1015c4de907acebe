import Mathlib.Data.List.Nodup
import SqlPlan.Dialect.Registry
import SqlPlan.Proofs.Nodes

/-!
# Changes of dialect registries

A registry changes by calls that register one dialect, several of them, or those that a text is read as. A call either
adds all its dialects to the registry or leaves it as it was: the names are looked up ahead of the first registration,
and then every registration succeeds. So a dialect stays under its name whatever is registered later.

* `registerAll_eq_ok_iff`: when several dialects are registered, and what the registry is then.
* `RegistryCall.run_change`: what one call can do.
* `RegistryCall.registered_after`: what holds along every sequence of calls.
-/

namespace SqlPlan

/-- Names are distinct, so a lookup finds every member of the list. -/
theorem find?_name_eq_some_iff {α : Type} {nameOf : α → String} {l : List α} (hl : (l.map nameOf).Nodup)
    {name : String} {a : α} : l.find? (nameOf · == name) = some a ↔ a ∈ l ∧ nameOf a = name := by
  constructor
  · intro h
    exact ⟨List.mem_of_find?_eq_some h, by simpa using List.find?_some h⟩
  · rintro ⟨ha, rfl⟩
    have hfound : (l.find? (nameOf · == nameOf a)).isSome := List.find?_isSome.2 ⟨a, ha, by simp⟩
    obtain ⟨b, hb⟩ := Option.isSome_iff_exists.1 hfound
    have hname : nameOf b = nameOf a := by simpa using List.find?_some hb
    rw [hb, List.inj_on_of_nodup_map hl (List.mem_of_find?_eq_some hb) ha hname]

namespace DialectRegistry

/-- The names of the dialects are different from each other and from all names in the registry. -/
structure Admits (r : DialectRegistry) (ds : List Dialect) : Prop where
  distinct : (ds.map (·.name)).Nodup
  free : ∀ d ∈ ds, r.contains d.name = false

/-- The registry with several dialects of new names. -/
def addAll (r : DialectRegistry) (ds : List Dialect) (h : r.Admits ds) : DialectRegistry where
  dialects := r.dialects ++ ds
  distinct := by
    rw [List.map_append, List.nodup_append]
    refine ⟨r.distinct, h.distinct, ?_⟩
    rintro name hname _ hname' rfl
    obtain ⟨d, hd, rfl⟩ := List.mem_map.1 hname'
    have hfree := h.free d hd
    rw [contains_iff.2 hname] at hfree
    cases hfree

variable {r : DialectRegistry} {d : Dialect} {ds : List Dialect}

/-- A name is free after a registration if it was free ahead of it and is not among the new ones. -/
theorem contains_addAll (h : r.Admits ds) (name : String) :
    (r.addAll ds h).contains name = false ↔ r.contains name = false ∧ name ∉ ds.map (·.name) := by
  simp only [← Bool.not_eq_true, contains_iff, addAll, List.map_append, List.mem_append, not_or]

private theorem admits_singleton_iff : r.Admits [d] ↔ ¬r.contains d.name := by
  constructor
  · intro h
    simp [h.free d List.mem_cons_self]
  · intro h
    exact ⟨by simp, by simpa using h⟩

/-- A registry admits dialects exactly if it admits the first of them, and the others once those are added. -/
theorem admits_append_iff {es : List Dialect} :
    r.Admits (ds ++ es) ↔ ∃ h : r.Admits ds, (r.addAll ds h).Admits es := by
  constructor
  · rintro ⟨hdistinct, hfree⟩
    rw [List.map_append, List.nodup_append] at hdistinct
    obtain ⟨hds, hes, hdisjoint⟩ := hdistinct
    refine ⟨⟨hds, fun d hd => hfree d (List.mem_append_left es hd)⟩, hes, fun e he => ?_⟩
    rw [contains_addAll]
    refine ⟨hfree e (List.mem_append_right ds he), fun hmem => ?_⟩
    exact hdisjoint e.name hmem e.name (List.mem_map_of_mem he) rfl
  · rintro ⟨h, hdistinct, hfree⟩
    have hes (e : Dialect) (he : e ∈ es) := (contains_addAll h e.name).1 (hfree e he)
    refine ⟨?_, fun d hd => ?_⟩
    · rw [List.map_append, List.nodup_append]
      refine ⟨h.distinct, hdistinct, ?_⟩
      rintro name hname _ hname' rfl
      obtain ⟨e, he, rfl⟩ := List.mem_map.1 hname'
      exact (hes e he).2 hname
    · rcases List.mem_append.1 hd with hd | hd
      · exact h.free d hd
      · exact (hes d hd).1

private theorem addAll_addAll {es : List Dialect} (h : r.Admits ds) (h' : (r.addAll ds h).Admits es)
    (hall : r.Admits (ds ++ es)) : (r.addAll ds h).addAll es h' = r.addAll (ds ++ es) hall := by
  simp [addAll]

/-- Dialects can be added in two steps or in one. -/
theorem addAll_append_iff {es : List Dialect} {s : DialectRegistry} (h : r.Admits ds) :
    (∃ h' : (r.addAll ds h).Admits es, s = (r.addAll ds h).addAll es h') ↔
      ∃ hall : r.Admits (ds ++ es), s = r.addAll (ds ++ es) hall := by
  constructor
  · rintro ⟨h', rfl⟩
    have hall : r.Admits (ds ++ es) := admits_append_iff.2 ⟨h, h'⟩
    exact ⟨hall, addAll_addAll h h' hall⟩
  · rintro ⟨hall, rfl⟩
    obtain ⟨_, h'⟩ := admits_append_iff.1 hall
    exact ⟨h', (addAll_addAll h h' hall).symm⟩

/-! ### Registering dialects -/

/-- A change that begins with a look at the registry. -/
private theorem run_getThe_bind {α : Type} (f : DialectRegistry → Registration α) :
    (getThe DialectRegistry >>= f).run r = (f r).run r := rfl

private theorem register_of_not_contains (h : ¬r.contains d.name) : (register d).run r = .ok () (r.add d h) := by
  unfold register
  rw [run_getThe_bind, dif_neg h]
  rfl

private theorem register_of_contains (h : r.contains d.name) : (register d).run r = .error (.duplicate d.name) r := by
  unfold register
  rw [run_getThe_bind, dif_pos h]
  rfl

/-- Dialects of new names are registered one after the other without a failure. -/
private theorem forM_register (h : r.Admits ds) : (ds.forM register).run r = .ok () (r.addAll ds h) := by
  induction ds generalizing r with
  | nil => simp [addAll, List.forM]
  | cons d ds ih =>
    -- the names of the others are still free when the first dialect is there
    obtain ⟨hd, hds⟩ := admits_append_iff.1 (show r.Admits ([d] ++ ds) from h)
    rw [List.forM_eq_forM, List.forM_cons, EStateM.run_bind, register_of_not_contains (admits_singleton_iff.1 hd)]
    exact (ih hds).trans (congrArg _ (addAll_addAll hd hds h))

/-- The names are looked up as the registry admits the dialects. -/
private theorem repeatedName?_eq_none_iff_admits :
    repeatedName? (r.dialects.map (·.name)) (ds.map (·.name)) = none ↔ r.Admits ds := by
  have hfree : (∀ name ∈ ds.map (·.name), name ∉ r.dialects.map (·.name)) ↔ ∀ d ∈ ds, r.contains d.name = false := by
    simp only [List.forall_mem_map, ← contains_iff, Bool.not_eq_true]
  rw [repeatedName?_eq_none_iff, hfree]
  exact ⟨fun h => ⟨h.1, h.2⟩, fun h => ⟨h.distinct, h.free⟩⟩

/-- Dialects of new names are registered, all of them. -/
theorem registerAll_of_admits (h : r.Admits ds) : (registerAll ds).run r = .ok () (r.addAll ds h) := by
  unfold registerAll
  rw [run_getThe_bind, repeatedName?_eq_none_iff_admits.2 h]
  exact forM_register h

/-- No dialect is registered if one of the names is taken. -/
theorem registerAll_of_not_admits (h : ¬r.Admits ds) :
    ∃ name, (registerAll ds).run r = .error (.duplicate name) r := by
  rw [← repeatedName?_eq_none_iff_admits, ← ne_eq, Option.ne_none_iff_exists'] at h
  obtain ⟨name, hname⟩ := h
  refine ⟨name, ?_⟩
  unfold registerAll
  rw [run_getThe_bind, hname]
  rfl

/-- Several dialects are registered exactly if their names are new, and then the registry has them and what it had. -/
theorem registerAll_eq_ok_iff {s : DialectRegistry} :
    (registerAll ds).run r = .ok () s ↔ ∃ h : r.Admits ds, s = r.addAll ds h := by
  by_cases h : r.Admits ds
  · simp [registerAll_of_admits h, h, eq_comm]
  · obtain ⟨name, hname⟩ := registerAll_of_not_admits h
    simp [hname, h]

section Texts

variable {read? : String → Option (List Dialect)} {text : String}

/-- The dialects of a text are registered, and their names are returned. -/
theorem registerText_of_admits (hread : read? text = some ds) (h : r.Admits ds) :
    (registerText read? text).run r = .ok (ds.map (·.name)) (r.addAll ds h) := by
  unfold registerText
  rw [hread]
  dsimp only
  rw [EStateM.run_bind, registerAll_of_admits h]
  rfl

/-- No dialect is registered if the text cannot be read or one of the names is taken. -/
theorem registerText_of_not_admits (h : ∀ ds, read? text = some ds → ¬r.Admits ds) :
    ∃ e, (registerText read? text).run r = .error e r := by
  unfold registerText
  cases hread : read? text with
  | none => exact ⟨.malformed, rfl⟩
  | some ds =>
    obtain ⟨name, hname⟩ := registerAll_of_not_admits (h ds hread)
    refine ⟨.duplicate name, ?_⟩
    dsimp only
    rw [EStateM.run_bind, hname]

end Texts

/-! ### Lookups -/

/-- A dialect is found under its name and no other. -/
theorem find?_eq_some_iff {name : String} : r.find? name = some d ↔ d ∈ r.dialects ∧ d.name = name :=
  find?_name_eq_some_iff r.distinct

private theorem get_eq_ok_iff {name : String} : r.get name = .ok d ↔ d ∈ r.dialects ∧ d.name = name := by
  rw [← find?_eq_some_iff]
  unfold get
  cases r.find? name <;> simp

/-- Dialects that are added leave the lookups of other names alone. -/
private theorem get_addAll_of_not_mem (h : r.Admits ds) {name : String} (hname : name ∉ ds.map (·.name)) :
    (r.addAll ds h).get name = r.get name := by
  have hnone : ds.find? (·.name == name) = none := by
    rw [List.find?_eq_none]
    intro d hd heq
    exact hname (List.mem_map.2 ⟨d, hd, by simpa using heq⟩)
  have hfind : (r.addAll ds h).find? name = r.find? name := by
    unfold find? addAll
    rw [List.find?_append, hnone, Option.or_none]
  unfold get
  rw [hfind]

/-- A dialect that is registered stays under its name. -/
private theorem get_addAll_of_get (h : r.Admits ds) {name : String} (hget : r.get name = .ok d) :
    (r.addAll ds h).get name = .ok d := by
  obtain ⟨hd, rfl⟩ := get_eq_ok_iff.1 hget
  exact get_eq_ok_iff.2 ⟨List.mem_append_left ds hd, rfl⟩

end DialectRegistry

/-! ### Sequences of calls -/

/-- A call that changes a registry. -/
inductive RegistryCall where
  | register (d : Dialect)
  | registerAll (ds : List Dialect)
  | registerText (text : String)

namespace RegistryCall

open DialectRegistry

variable (read? : String → Option (List Dialect)) (r : DialectRegistry)

/-- The change that a call makes, with texts read as dialects by `read?`. -/
def change : RegistryCall → Registration Unit
  | register d => DialectRegistry.register d
  | registerAll ds => DialectRegistry.registerAll ds
  | registerText text => do
    let _names ← DialectRegistry.registerText read? text
    return

/-- The registry after a call, whether it fails or not. -/
def next (call : RegistryCall) : DialectRegistry :=
  match (call.change read?).run r with
  | .ok _ s => s
  | .error _ s => s

/-- The registry after a sequence of calls. -/
def after (calls : List RegistryCall) : DialectRegistry := calls.foldl (next read?) r

/-- A call fails and changes nothing, or it adds dialects of new names. -/
theorem run_change (call : RegistryCall) :
    (∃ e, (call.change read?).run r = .error e r) ∨
      ∃ ds, ∃ h : r.Admits ds, (call.change read?).run r = .ok () (r.addAll ds h) := by
  cases call with
  | register d =>
    by_cases h : r.contains d.name
    · exact .inl ⟨_, register_of_contains h⟩
    · exact .inr ⟨[d], admits_singleton_iff.2 h, register_of_not_contains h⟩
  | registerAll ds =>
    by_cases h : r.Admits ds
    · exact .inr ⟨ds, h, registerAll_of_admits h⟩
    · obtain ⟨name, hname⟩ := registerAll_of_not_admits h
      exact .inl ⟨_, hname⟩
  | registerText text =>
    unfold change
    by_cases h : ∃ ds, read? text = some ds ∧ r.Admits ds
    · obtain ⟨ds, hread, hds⟩ := h
      refine .inr ⟨ds, hds, ?_⟩
      rw [EStateM.run_bind, registerText_of_admits hread hds]
      rfl
    · obtain ⟨e, he⟩ := registerText_of_not_admits fun ds hread hds => h ⟨ds, hread, hds⟩
      refine .inl ⟨e, ?_⟩
      rw [EStateM.run_bind, he]

/-- What is registered ahead of a call is registered after it. -/
theorem get_next {name : String} {d : Dialect} (h : r.get name = .ok d) (call : RegistryCall) :
    (next read? r call).get name = .ok d := by
  unfold next
  rcases run_change read? r call with ⟨e, he⟩ | ⟨ds, hds, hok⟩
  · rw [he]
    exact h
  · rw [hok]
    exact get_addAll_of_get hds h

private theorem get_after {name : String} {d : Dialect} (h : r.get name = .ok d) (calls : List RegistryCall) :
    (after read? r calls).get name = .ok d := by
  induction calls generalizing r with
  | nil => exact h
  | cons call calls ih => exact ih (next read? r call) (get_next read? r h call)

/-- After any calls, a further call that fails changes nothing. Several dialects are registered exactly if their names
are new, and then the registry is as it was with these dialects under their names. What a lookup finds it finds after
all later calls. -/
theorem registered_after (calls : List RegistryCall) :
    (∀ (call : RegistryCall) (e : RegistryError) (s : DialectRegistry),
      (call.change read?).run (after read? r calls) = .error e s → s = after read? r calls) ∧
    (∀ ds : List Dialect, (∃ s, (DialectRegistry.registerAll ds).run (after read? r calls) = .ok () s) ↔
      (ds.map (·.name)).Nodup ∧ ∀ d ∈ ds, (after read? r calls).contains d.name = false) ∧
    (∀ (ds : List Dialect) (s : DialectRegistry),
      (DialectRegistry.registerAll ds).run (after read? r calls) = .ok () s →
        s.dialects = (after read? r calls).dialects ++ ds ∧ (∀ d ∈ ds, s.get d.name = .ok d) ∧
          ∀ name, name ∉ ds.map (·.name) → s.get name = (after read? r calls).get name) ∧
    ∀ (name : String) (d : Dialect), (after read? r calls).get name = .ok d →
      ∀ later : List RegistryCall, (after read? r (calls ++ later)).get name = .ok d := by
  refine ⟨fun call e s hrun => ?_, fun ds => ⟨?_, fun h => ?_⟩, fun ds s hrun => ?_, fun name d hget later => ?_⟩
  · rcases run_change read? (after read? r calls) call with ⟨e', he⟩ | ⟨ds, hds, hok⟩
    · rw [he] at hrun
      cases hrun
      rfl
    · rw [hok] at hrun
      cases hrun
  · rintro ⟨s, hs⟩
    obtain ⟨h, -⟩ := registerAll_eq_ok_iff.1 hs
    exact ⟨h.distinct, h.free⟩
  · exact ⟨_, registerAll_of_admits ⟨h.1, h.2⟩⟩
  · obtain ⟨h, rfl⟩ := registerAll_eq_ok_iff.1 hrun
    refine ⟨rfl, fun d hd => ?_, fun name hname => get_addAll_of_not_mem h hname⟩
    exact get_eq_ok_iff.2 ⟨List.mem_append_right _ hd, rfl⟩
  · unfold after at hget ⊢
    rw [List.foldl_append]
    exact get_after read? _ hget later

end RegistryCall

end SqlPlan
