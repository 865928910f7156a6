import EntityModel.Context.Basic
import EntityModel.Entity.Path
import EntityModel.Path.Basic
import EntityModel.Text.CharClass
import EntityModel.Text.Pieces

/-!
# Paths through a context

A dotted source is resolved into an entity path name by name: each name has to be a property of
the entity reached so far. All paths from a type can be listed too; a path is not continued to a
type that it has already passed, so that types which lead back to each other yield finitely many
paths.
-/

namespace EntityModel

namespace ContextM

/-- The property of a name after a path has led to an entity. -/
def propertyAt (e : Entity) (path : EntityPath) (name : String) : Except Error EntityProperty :=
  match e.property? name with
  | some p => .ok p
  | none => .error (.propertyReference name e.type.text (path.properties.map (·.name)))

/-- Continues a path, which has led to an entity, by the properties of the given names. -/
def follow (e : Entity) (path : EntityPath) (name : String) : List String → ContextM EntityPath
  | [] => do path.append (← propertyAt e path name)
  | next :: names => do
    let p ← propertyAt e path name
    let target ← requiredEntity (← p.type.requiredActual)
    follow target (← path.append p) next names

/-- The path that a dotted source resolves to. An empty source is the empty path. -/
def resolve (source : String) (t : TypeRef) : ContextM EntityPath := do
  if source = "" then return {}
  else
    match (Text.pieces '.' source.toList).map String.ofList with
    | [] => return {}
    | name :: names => follow (← requiredEntity t) {} name names

/-- The path of a dotted source from a type, which is resolved once. Blanks around the source do not
count. -/
def path (source : String) (t : TypeRef) : ContextM EntityPath := do
  let source := Text.trim source
  match (← get).path? t source with
  | some path => return path
  | none =>
    let path ← resolve source t
    -- only a path is remembered, a failure is met again
    modify fun c => { c with paths := ((t, source), path) :: c.paths }
    return path

/-- The path of properties that a property path names. -/
def pathOf (p : PropertyPath) : ContextM EntityPath :=
  path p.dotPath p.head.owner

/-- The properties by which paths go on from an entity: the persistent ones, then those that hold
associations. -/
def candidates (e : Entity) : List EntityProperty :=
  e.persistent ++ e.associations.filterMap fun a => e.property? a.inverse

end ContextM

/-- All paths that continue a base into a type and end in an accepted property, in the order of a
walk that goes deep first. -/
def Context.pathsFrom (c : Context) (accepts : EntityProperty → Bool) (t : TypeRef)
    (base : EntityPath) : Option (Except Error (List EntityPath) × Context) :=
  StateT.run (ExceptT.run (show ContextM (List EntityPath) from do
    match ← ContextM.entity? t.actual with
    | none => return []
    | some e =>
      let found ← (ContextM.candidates e).mapM fun p => do
        -- no path gets behind a type twice, so the walk ends where types lead back to each other
        if base.passes p.actual then return []
        else
          let path ← base.append p
          let further ← if p.isEntity then
              (fun c => c |>.pathsFrom accepts p.actual path : ContextM (List EntityPath))
            else pure []
          return (if accepts p then path :: further else further)
      return found.flatten)) c
partial_fixpoint

/-- All paths from a type that end in an accepted property, the shortest first. -/
def ContextM.findPaths (accepts : EntityProperty → Bool) (t : TypeRef) :
    ContextM (List EntityPath) := do
  let found ← ExceptT.mk fun c => c.pathsFrom accepts t {}
  -- the sort is stable, so paths of one length stay in the order of the walk
  return found.mergeSort fun p q => decide (p.length ≤ q.length)

end EntityModel
