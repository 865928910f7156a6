import EntityModel.Entity.Basic
import Std.Data.HashMap

/-!
# Entity tables

An entity table holds one answer for each type that was asked about: the entity of the type, or that
the type has none.
-/

namespace EntityModel

/-- What is known about types. -/
structure EntityTable where
  answers : Std.HashMap TypeRef (Option Entity) := {}
  /-- The number of the next new entity. -/
  next : Nat := 0

namespace EntityTable

variable {table : EntityTable} {t u : TypeRef} {answer : Option Entity}

/-- The answer for a type, if there is one yet. -/
def get? (table : EntityTable) (t : TypeRef) : Option (Option Entity) :=
  table.answers[t]?

def contains (table : EntityTable) (t : TypeRef) : Bool :=
  (table.get? t).isSome

/-- The table with an answer for a type, in place of an earlier one. -/
def set (table : EntityTable) (t : TypeRef) (answer : Option Entity) : EntityTable :=
  { table with answers := table.answers.insert t answer }

def erase (table : EntityTable) (t : TypeRef) : EntityTable :=
  { table with answers := table.answers.erase t }

/-- The types of the table with their entities. -/
def managed (table : EntityTable) : List (TypeRef × Entity) :=
  table.answers.toList.filterMap fun (t, answer) => answer.map (t, ·)

/-- A new table answers nothing. -/
@[simp]
theorem get?_empty : ({} : EntityTable).get? t = none := by
  simp [get?]

/-- What was entered for a type is its answer. -/
@[simp]
theorem get?_set_self : (table.set t answer).get? t = some answer := by
  simp [get?, set]

/-- Writing leaves the answers for all other types alone. -/
theorem get?_set_of_ne (h : u ≠ t) : (table.set t answer).get? u = table.get? u := by
  simp [get?, set, Std.HashMap.getElem?_insert, Ne.symm h]

/-- To note that a type without an answer has no entity leaves all entities alone. -/
theorem get?_set_none_iff {e : Entity} (absent : table.get? t = none) :
    (table.set t none).get? u = some (some e) ↔ table.get? u = some (some e) := by
  by_cases h : u = t
  · rw [h, get?_set_self, absent]
    exact iff_of_false nofun nofun
  · rw [get?_set_of_ne h]

/-- What was erased has no answer. -/
@[simp]
theorem get?_erase_self : (table.erase t).get? t = none := by
  simp [get?, erase]

/-- Erasing leaves the answers for all other types alone. -/
theorem get?_erase_of_ne (h : u ≠ t) : (table.erase t).get? u = table.get? u := by
  simp [get?, erase, Std.HashMap.getElem?_erase, Ne.symm h]

/-- A table contains the types that it answers. -/
theorem contains_eq_true : table.contains t = true ↔ ∃ answer, table.get? t = some answer :=
  Option.isSome_iff_exists

/-- A table does not contain the types that it has no answer for. -/
theorem contains_eq_false : table.contains t = false ↔ table.get? t = none := by
  simp [contains]

/-- The managed types are those whose answer is an entity. -/
theorem mem_managed_iff {e : Entity} : (t, e) ∈ table.managed ↔ table.get? t = some (some e) := by
  simp only [managed, List.mem_filterMap, get?]
  constructor
  · rintro ⟨⟨u, answer⟩, h, hu⟩
    cases answer with
    | none => simp at hu
    | some e' =>
      simp only [Option.map_some, Option.some.injEq, Prod.mk.injEq] at hu
      obtain ⟨rfl, rfl⟩ := hu
      exact Std.HashMap.mem_toList_iff_getElem?_eq_some.mp h
  · intro h
    exact ⟨(t, some e), Std.HashMap.mem_toList_iff_getElem?_eq_some.mpr h, rfl⟩

end EntityTable

end EntityModel
