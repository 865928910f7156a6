import EntityModel.Context.Mapping
import EntityModel.Context.Table

/-!
# Discovery

The entity of a type is made by adding its properties one after the other. Every property is
followed to the type behind it, whose entity is made in between. An entity is in the table from the
moment it is made, without properties yet, so that types that lead back to it find it there and are
not followed again. When all of its properties are added, the sealed entity takes its place. If a
property cannot be added or a type behind one has no declaration, the entity is taken out of the
table again, and so are all entities that were waiting for it. The entities that were completed on
the way stay.

Type arguments may grow from type to type without end. Such a discovery has no outcome.
-/

namespace EntityModel

/-- A discovery under way. -/
structure Discovery where
  table : EntityTable
  /-- The entities that were completed, the newest first. -/
  completed : List Entity := []

namespace Discovery

/-- A new entity, without properties, enters the table. -/
def start (d : Discovery) (e : Entity) : Discovery :=
  { d with table := { d.table.set e.type (some e) with next := d.table.next + 1 } }

/-- An entity with all of its properties takes the place of the one that was started. -/
def complete (d : Discovery) (e : Entity) : Discovery :=
  { table := d.table.set e.type (some e), completed := e :: d.completed }

/-- The entity of a type is given up. -/
def withdraw (d : Discovery) (t : TypeRef) : Discovery :=
  { d with table := d.table.erase t }

variable {d : Discovery} {e : Entity} {t u : TypeRef}

/-- The entity that is started is in the table. -/
@[simp]
theorem get?_start_self : (d.start e).table.get? e.type = some (some e) :=
  EntityTable.get?_set_self

/-- Starting an entity leaves the answers for other types. -/
theorem get?_start_of_ne (h : t ≠ e.type) : (d.start e).table.get? t = d.table.get? t :=
  EntityTable.get?_set_of_ne h

/-- The entity that is completed is in the table. -/
@[simp]
theorem get?_complete_self : (d.complete e).table.get? e.type = some (some e) :=
  EntityTable.get?_set_self

/-- Completing an entity leaves the answers for other types. -/
theorem get?_complete_of_ne (h : t ≠ e.type) : (d.complete e).table.get? t = d.table.get? t :=
  EntityTable.get?_set_of_ne h

/-- Nothing is known of a type whose entity was given up. -/
@[simp]
theorem get?_withdraw_self : (d.withdraw t).table.get? t = none :=
  EntityTable.get?_erase_self

/-- Giving up an entity leaves the answers for other types. -/
theorem get?_withdraw_of_ne (h : u ≠ t) : (d.withdraw t).table.get? u = d.table.get? u :=
  EntityTable.get?_erase_of_ne h

/-- The type of a started entity is answered. -/
@[simp]
theorem contains_start_self : (d.start e).table.contains e.type = true :=
  EntityTable.contains_eq_true.mpr ⟨_, get?_start_self⟩

/-- Starting an entity answers no other type. -/
theorem contains_start_of_ne (h : t ≠ e.type) :
    (d.start e).table.contains t = d.table.contains t :=
  congrArg Option.isSome (get?_start_of_ne h)

/-- Types that were answered before an entity was started still are. -/
theorem contains_start (h : d.table.contains t = true) : (d.start e).table.contains t = true := by
  by_cases ht : t = e.type
  · rw [ht]
    exact contains_start_self
  · rwa [contains_start_of_ne ht]

/-- The type of a completed entity is answered. -/
@[simp]
theorem contains_complete_self : (d.complete e).table.contains e.type = true :=
  EntityTable.contains_eq_true.mpr ⟨_, get?_complete_self⟩

/-- Completing an entity answers no other type. -/
theorem contains_complete_of_ne (h : t ≠ e.type) :
    (d.complete e).table.contains t = d.table.contains t :=
  congrArg Option.isSome (get?_complete_of_ne h)

/-- The type of an entity that was given up is not answered. -/
@[simp]
theorem contains_withdraw_self : (d.withdraw t).table.contains t = false :=
  EntityTable.contains_eq_false.mpr get?_withdraw_self

/-- Giving up an entity takes away no other answer. -/
theorem contains_withdraw_of_ne (h : u ≠ t) :
    (d.withdraw t).table.contains u = d.table.contains u :=
  congrArg Option.isSome (get?_withdraw_of_ne h)

end Discovery

namespace Mapping

def blank (m : Mapping) (d : Discovery) (t : TypeRef) (decl : TypeDecl) : Entity :=
  .make d.table.next t decl m.catalog m.rules.order

/-- An entity in its final form. -/
def finish (m : Mapping) (e : Entity) : Entity :=
  e.verify.withAccess m.rules.access

mutual

/-- Sees to it that a type has an answer. -/
def visit (m : Mapping) (t : TypeRef) (d : Discovery) : Option (Except Error Unit × Discovery) :=
  -- a type that is under way is in the table already, which ends cycles
  if d.table.contains t then some (.ok (), d)
  else
    match m.outline t with
    | .error err => some (.error err, d)
    | .ok (decl, ps) => do
      let e := m.blank d t decl
      match ← (m |>.populate e ps (d.start e)) with
      | (.ok populated, d) => some (.ok (), d.complete (m.finish populated))
      -- only this type is taken back, what was completed behind it stays
      | (.error err, d) => some (.error err, d.withdraw t)
partial_fixpoint

/-- Adds properties to an entity and follows each of them. -/
def populate (m : Mapping) (e : Entity) (ps : List EntityProperty) (d : Discovery) :
    Option (Except Error Entity × Discovery) :=
  match ps with
  | [] => some (.ok e, d)
  | p :: ps =>
    match e.extend p with
    | .error err => some (.error err, d)
    | .ok extended =>
      match m.nestedType? e.type p with
      | none => m |>.populate extended ps d
      | some t => do
        match ← (m |>.visit t d) with
        | (.ok (), d) => m |>.populate extended ps d
        | (.error err, d) => some (.error err, d)
partial_fixpoint

end

end Mapping

end EntityModel
