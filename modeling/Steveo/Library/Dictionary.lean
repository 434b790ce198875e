import Mathlib.Data.List.Basic
import Mathlib.Data.List.Nodup

/-!
# Insertion-ordered dictionaries

A dictionary remembers the order in which its keys were first bound.  Rebinding a key keeps its
position, and removing a key forgets it.  Keys are distinct by construction.
-/

namespace Steveo

/-- A finite map whose entries stand in the order in which their keys were first bound. -/
structure Dictionary (κ α : Type*) where
  /-- The bindings, oldest key first. -/
  entries : List (κ × α)
  /-- No key is bound twice. -/
  distinct : (entries.map Prod.fst).Nodup

namespace Dictionary

variable {κ α : Type*}

/-- The dictionary without bindings. -/
def empty : Dictionary κ α := ⟨[], List.nodup_nil⟩

/-- The bound values, oldest key first. -/
def values (dictionary : Dictionary κ α) : List α := dictionary.entries.map Prod.snd

variable [DecidableEq κ]

/-- The value bound to a key. -/
def get (dictionary : Dictionary κ α) (key : κ) : Option α := dictionary.entries.lookup key

/-- Replace the value of a bound key in place, or bind a new key after all others. -/
def setEntries (entries : List (κ × α)) (key : κ) (value : α) : List (κ × α) :=
  match entries with
  | [] => [(key, value)]
  | entry :: entries =>
      if entry.1 = key then (key, value) :: entries else entry :: setEntries entries key value

private theorem mem_setEntries_keys (entries : List (κ × α)) (key : κ) (value : α) (other : κ) :
    other ∈ (setEntries entries key value).map Prod.fst ↔
      other = key ∨ other ∈ entries.map Prod.fst := by
  induction entries with
  | nil => simp [setEntries]
  | cons entry entries induction =>
      by_cases same : entry.1 = key
      · simp only [setEntries, same, if_true, List.map_cons, List.mem_cons]
        tauto
      · simp only [setEntries, same, if_false, List.map_cons, List.mem_cons, induction]
        tauto

private theorem setEntries_distinct (entries : List (κ × α)) (key : κ) (value : α)
    (distinct : (entries.map Prod.fst).Nodup) :
    ((setEntries entries key value).map Prod.fst).Nodup := by
  induction entries with
  | nil => simp [setEntries]
  | cons entry entries induction =>
      rw [List.map_cons, List.nodup_cons] at distinct
      by_cases same : entry.1 = key
      · simp only [setEntries, same, if_true, List.map_cons, List.nodup_cons]
        exact ⟨same ▸ distinct.1, distinct.2⟩
      · rw [setEntries, if_neg same, List.map_cons, List.nodup_cons, mem_setEntries_keys, not_or]
        exact ⟨⟨same, distinct.1⟩, induction distinct.2⟩

/-- Bind a key. -/
def set (dictionary : Dictionary κ α) (key : κ) (value : α) : Dictionary κ α :=
  ⟨setEntries dictionary.entries key value,
    setEntries_distinct dictionary.entries key value dictionary.distinct⟩

/-- Remove a key together with its binding. -/
def erase (dictionary : Dictionary κ α) (key : κ) : Dictionary κ α :=
  ⟨dictionary.entries.filter fun entry => entry.1 ≠ key,
    dictionary.distinct.sublist (List.filter_sublist.map Prod.fst)⟩

@[simp] theorem get_empty (key : κ) : (empty : Dictionary κ α).get key = none := rfl

private theorem lookup_setEntries (entries : List (κ × α)) (key : κ) (value : α) (other : κ) :
    (setEntries entries key value).lookup other =
      if other = key then some value else entries.lookup other := by
  induction entries with
  | nil =>
      by_cases same : other = key
      · simp [setEntries, same]
      · simp [setEntries, List.lookup_cons, same, beq_false_of_ne same]
  | cons entry entries induction =>
      obtain ⟨name, bound⟩ := entry
      by_cases here : name = key
      · subst here
        by_cases same : other = name
        · simp [setEntries, same]
        · simp [setEntries, List.lookup_cons, same, beq_false_of_ne same]
      · by_cases same : other = name
        · subst same
          simp [setEntries, here]
        · have different : (other == name) = false := by simpa using same
          simp only [setEntries, here, if_false, List.lookup_cons, different, induction]

@[simp] theorem get_set (dictionary : Dictionary κ α) (key other : κ) (value : α) :
    (dictionary.set key value).get other =
      if other = key then some value else dictionary.get other :=
  lookup_setEntries dictionary.entries key value other

private theorem lookup_filter_ne (entries : List (κ × α)) (key other : κ) :
    (entries.filter fun entry => entry.1 ≠ key).lookup other =
      if other = key then none else entries.lookup other := by
  induction entries with
  | nil => simp
  | cons entry entries induction =>
      obtain ⟨name, bound⟩ := entry
      by_cases here : name = key
      · subst here
        by_cases same : other = name
        · simpa [same] using induction
        · simpa [List.lookup_cons, same, beq_false_of_ne same] using induction
      · have kept : decide (name ≠ key) = true := by simpa using here
        simp only [List.filter_cons, kept, if_true, List.lookup_cons, induction]
        by_cases same : other = name
        · subst same
          simp [here]
        · simp [beq_false_of_ne same]

@[simp] theorem get_erase (dictionary : Dictionary κ α) (key other : κ) :
    (dictionary.erase key).get other = if other = key then none else dictionary.get other :=
  lookup_filter_ne dictionary.entries key other

theorem mem_entries_iff_get (dictionary : Dictionary κ α) (key : κ) (value : α) :
    (key, value) ∈ dictionary.entries ↔ dictionary.get key = some value := by
  obtain ⟨entries, distinct⟩ := dictionary
  simp only [get]
  induction entries with
  | nil => simp
  | cons entry entries induction =>
      obtain ⟨name, bound⟩ := entry
      rw [List.map_cons, List.nodup_cons] at distinct
      by_cases same : key = name
      · subst same
        simp only [List.mem_cons, Prod.mk.injEq, true_and, List.lookup_cons, beq_self_eq_true,
          Option.some.injEq]
        constructor
        · rintro (rfl | member)
          · rfl
          · exact absurd (List.mem_map_of_mem (f := Prod.fst) member) distinct.1
        · exact fun equal => Or.inl equal.symm
      · have different : (key == name) = false := by simpa using same
        simp only [List.mem_cons, Prod.mk.injEq, same, false_and, false_or, List.lookup_cons,
          different]
        exact induction distinct.2

/-- Binding a key replaces its binding and keeps all others. -/
theorem mem_entries_set {dictionary : Dictionary κ α} {key : κ} {value : α} {entry : κ × α} :
    entry ∈ (dictionary.set key value).entries ↔
      entry = (key, value) ∨ entry.1 ≠ key ∧ entry ∈ dictionary.entries := by
  obtain ⟨name, bound⟩ := entry
  rw [mem_entries_iff_get, mem_entries_iff_get, get_set]
  by_cases same : name = key
  · subst same
    simp [eq_comm]
  · simp [same]

/-- Binding a key brings in no other value. -/
theorem mem_values_set {dictionary : Dictionary κ α} {key : κ} {value other : α}
    (member : other ∈ (dictionary.set key value).values) :
    other = value ∨ other ∈ dictionary.values := by
  obtain ⟨entry, found, rfl⟩ := List.mem_map.mp member
  rcases mem_entries_set.mp found with rfl | ⟨-, found⟩
  · exact Or.inl rfl
  · exact Or.inr (List.mem_map_of_mem found)

/-- Binding a list of distinct keys binds each of them and keeps all others. -/
theorem get_foldl_set {β : Type*} (value : α → β) {entries : List (κ × α)}
    (distinct : (entries.map Prod.fst).Nodup) (dictionary : Dictionary κ β) (key : κ) :
    (entries.foldl (fun bound entry => bound.set entry.1 (value entry.2)) dictionary).get key =
      ((entries.lookup key).map value).or (dictionary.get key) := by
  induction entries generalizing dictionary with
  | nil => rfl
  | cons entry entries induction =>
      obtain ⟨name, first⟩ := entry
      obtain ⟨fresh, distinct⟩ := List.nodup_cons.mp distinct
      rw [List.foldl_cons, induction distinct, get_set]
      by_cases same : key = name
      · subst same
        have unbound : entries.lookup key = none := by
          rw [List.lookup_eq_none_iff]
          intro entry member
          exact bne_iff_ne.mpr fun equal => fresh (List.mem_map.mpr ⟨entry, member, equal.symm⟩)
        simp [unbound]
      · simp [List.lookup_cons, same, beq_false_of_ne same]

end Dictionary

end Steveo
