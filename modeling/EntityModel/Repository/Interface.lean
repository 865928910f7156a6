import EntityModel.Catalog.Supertypes

/-!
# Repository interfaces

A repository is described by an interface together with the type of the aggregates it manages and
the type of their identifiers. Both types can be read off the interface: it extends the marker
interface, directly or through generic interfaces in between, with the two types as arguments.
-/

namespace EntityModel

/-- A repository interface and the types it is about. -/
structure RepositoryInterface where
  decl : TypeDecl
  domainType : TypeRef
  idType : TypeRef
  /-- The declarations that the interface belongs to. -/
  catalog : Catalog
  deriving DecidableEq, Repr

namespace RepositoryInterface

def marker : String := "Repository"

/-- A declared interface with given types. -/
def make (c : Catalog) (name : String) (domainType idType : TypeRef) :
    Except Error RepositoryInterface := do
  return { decl := ← c.required (.of name), domainType, idType, catalog := c }

/-- The two arguments of a reference to the marker interface. -/
def markerTypes? (t : TypeRef) : Option (TypeRef × TypeRef) :=
  if t.name = marker then
    match t.arguments with
    | [domainType, idType] => some (domainType, idType)
    | _ => none
  else none

/-- The arguments of the first reference to the marker interface that is met from a queue of
interfaces, the nearest ones first. The interfaces of every declared type are queued once. -/
def typesFrom (pool : List TypeDecl) (queue : List TypeRef) : Option (TypeRef × TypeRef) :=
  match queue with
  | [] => none
  | t :: rest =>
    match markerTypes? t with
    | some types => some types
    | none =>
      match _h : pool.find? (fun d => d.name == t.name) with
      | none => typesFrom pool rest
      | some d =>
        typesFrom (Catalog.without pool t.name) (rest ++ d.interfaces.map (·.subst (d.bindings t)))
termination_by (pool.length, queue.length)
decreasing_by
  · exact Prod.Lex.right _ (Nat.lt_succ_self _)
  · exact Prod.Lex.left _ _ (Catalog.length_without_lt ‹_›)

/-- A declared interface that extends the marker interface. -/
def ofName (c : Catalog) (name : String) : Except Error RepositoryInterface := do
  let d ← c.required (.of name)
  match typesFrom c.declarations d.interfaces with
  | some (domainType, idType) => make c name domainType idType
  | none => throw (.noRepositoryTypes name marker)

def name (r : RepositoryInterface) : String :=
  r.decl.name

/-- The methods of the interface, its own and the inherited ones. -/
def methods (r : RepositoryInterface) : List Method :=
  r.catalog.methodsOf r.name

def isMarker (r : RepositoryInterface) : Bool :=
  r.name == marker

end RepositoryInterface

end EntityModel
