import EntityModel.Catalog.Hierarchy

/-!
# Supertypes

Superclasses and interfaces span a graph over the declared names, possibly with cycles and with
names that are not declared. It is walked depth first, the first declared supertype first; every
declared type is visited once. Assignability and the methods visible on a type are read off this
walk.
-/

namespace EntityModel.Catalog

/-- The declarations met on a walk from a stack of names, in the order of the visit. -/
def visit (pool : List TypeDecl) (stack : List String) : List TypeDecl :=
  match stack with
  | [] => []
  | name :: rest =>
    match _h : pool.find? (fun d => d.name == name) with
    | none => visit pool rest
    -- supertypes go before the names that wait, so the walk goes deep first
    | some d => d :: visit (without pool name) (d.supertypes.map TypeRef.name ++ rest)
termination_by (pool.length, stack.length)
decreasing_by
  · exact Prod.Lex.right _ (Nat.lt_succ_self _)
  · exact Prod.Lex.left _ _ (length_without_lt ‹_›)

/-- The methods visible on a type: its own, then the inherited ones. Of several methods with one
signature the first one met counts. -/
def methodsOf (c : Catalog) (name : String) : List Method :=
  distinctOn (fun m => (m.name, m.parameterTypes)) []
    ((visit c.declarations [name]).flatMap (·.methods))

/-- Whether a walk from a stack of names comes to a name, declared or not. -/
def reaches (pool : List TypeDecl) (stack : List String) (target : String) : Bool :=
  match stack with
  | [] => false
  | name :: rest =>
    if name = target then true
    else
      match _h : pool.find? (fun d => d.name == name) with
      | none => reaches pool rest target
      | some d => reaches (without pool name) (d.supertypes.map TypeRef.name ++ rest) target
termination_by (pool.length, stack.length)
decreasing_by
  · exact Prod.Lex.right _ (Nat.lt_succ_self _)
  · exact Prod.Lex.left _ _ (length_without_lt ‹_›)

/-- Whether a type is, or transitively extends, the raw type of another one. -/
def isSubtype (c : Catalog) (source target : TypeRef) : Bool :=
  reaches c.declarations [source.name] target.name

end EntityModel.Catalog
