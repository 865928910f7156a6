import EntityModel.Catalog.Basic
import EntityModel.Distinct

/-!
# Superclass chains

The properties of a type are declared on it and on its superclasses. The chain of superclasses is
followed with the type arguments given at each step; it ends at a type that is not declared or that
was met before, so it is finite in every catalog.
-/

namespace EntityModel

/-- A declared type on a superclass chain with the bindings of its type parameters there. -/
structure Level where
  decl : TypeDecl
  bindings : TypeRef.Bindings
  deriving DecidableEq, Repr

namespace Level

/-- The fields of the level with their types at this place of the chain. -/
def fields (l : Level) : List FieldDecl :=
  l.decl.fields.map fun f => { f with type := f.type.subst l.bindings }

/-- The accessors of the level with their types at this place of the chain. -/
def accessors (l : Level) : List AccessorDecl :=
  l.decl.accessors.map fun a => { a with type := a.type.subst l.bindings }

end Level

namespace Catalog

def without (pool : List TypeDecl) (name : String) : List TypeDecl :=
  pool.filter fun d => d.name != name

/-- Taking out a name that is declared leaves fewer declarations. -/
theorem length_without_lt {pool : List TypeDecl} {name : String} {d : TypeDecl}
    (h : pool.find? (fun d => d.name == name) = some d) :
    (without pool name).length < pool.length := by
  have hd : d ∈ pool := List.mem_of_find?_eq_some h
  have hn : d.name = name := by simpa using List.find?_some h
  exact List.length_filter_lt_length_iff_exists.mpr ⟨d, hd, by simp [hn]⟩

/-- The chain from a type through the declarations that are left to be met. -/
def chain (pool : List TypeDecl) (t : TypeRef) : List Level :=
  match _h : pool.find? (fun d => d.name == t.name) with
  | none => []
  | some d =>
    let bindings := d.bindings t
    ⟨d, bindings⟩ ::
      match d.superclass with
      | none => []
      -- the pool lacks the declaration from here on, so a chain that leads back to it ends
      | some s => chain (without pool t.name) (s.subst bindings)
termination_by pool.length
decreasing_by exact length_without_lt ‹_›

/-- The levels of a type: the type itself, then its superclasses. The type has to be declared. -/
def hierarchy (c : Catalog) (t : TypeRef) : Except Error (List Level) :=
  match chain c.declarations t with
  | [] => .error (.unregistered t.text)
  | levels => .ok levels

/-- The fields of a type and its superclasses, own fields first. -/
def fieldsOf (c : Catalog) (t : TypeRef) : Except Error (List FieldDecl) := do
  return (← c.hierarchy t).flatMap Level.fields

/-- The accessors of a type and its superclasses; of several with one name the nearest one counts.
-/
def accessorsOf (c : Catalog) (t : TypeRef) : Except Error (List AccessorDecl) := do
  return distinctOn (·.name) [] ((← c.hierarchy t).flatMap Level.accessors)

/-- The type of the first field of a name on a chain. -/
def fieldType? (levels : List Level) (name : String) : Option TypeRef :=
  levels.findSome? fun l => (l.decl.field? name).map fun f => f.type.subst l.bindings

/-- The type of the first accessor of a name on a chain. -/
def accessorType? (levels : List Level) (name : String) : Option TypeRef :=
  levels.findSome? fun l => (l.decl.accessor? name).map fun a => a.type.subst l.bindings

/-- The type of a property of a named type: of a field anywhere on the chain, else of an accessor.
-/
def propertyType? (c : Catalog) (owner : TypeRef) (name : String) : Option TypeRef :=
  if owner.isNamed then
    let levels := chain c.declarations owner
    (fieldType? levels name).or (accessorType? levels name)
  else none

end Catalog

end EntityModel
