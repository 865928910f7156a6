import EntityModel.Declaration.Basic

/-!
# Persistence constructors

Instances of an entity are built by one of its declared constructors: the one that is marked for it,
else the one without parameters, else the only one. A record whose choice is open takes its largest
constructor. A class that declares none has one without parameters.
-/

namespace EntityModel

/-- The constructor that builds the instances of an entity. -/
structure PersistenceConstructor where
  /-- The parameters, with their types at the entity's type arguments. -/
  parameters : List ParameterDecl
  /-- Whether the constructor was marked. -/
  isAnnotated : Bool
  deriving DecidableEq, Repr

/-- Whether a constructor is marked to build persistent instances. -/
def ConstructorDecl.isMarked (c : ConstructorDecl) : Bool :=
  Annotation.isPresent c.annotations .persistenceCreator

/-- The constructor with the most parameters, the last one of several. -/
def ConstructorDecl.largest? (cs : List ConstructorDecl) : Option ConstructorDecl :=
  cs.foldl (fun best c =>
    match best with
    | none => some c
    -- a tie goes to the later constructor
    | some b => if b.parameters.length ≤ c.parameters.length then some c else some b) none

namespace PersistenceConstructor

def isNoArg (c : PersistenceConstructor) : Bool :=
  c.parameters.isEmpty

/-- Whether a property of a name is passed to the constructor. -/
def hasParameter (c : PersistenceConstructor) (name : String) : Bool :=
  c.parameters.any fun p => p.name == name

/-- A declared constructor at the given type arguments. -/
def ofDecl (bindings : TypeRef.Bindings) (c : ConstructorDecl) : PersistenceConstructor where
  parameters := c.parameters.map fun p => { p with type := p.type.subst bindings }
  isAnnotated := c.isMarked

/-- The declared constructor that is taken, if the choice is not open. -/
def choose? (kind : DeclKind) (cs : List ConstructorDecl) : Option ConstructorDecl :=
  match cs.find? (·.isMarked) with
  | some marked => some marked
  | none =>
    let noArg := cs.find? (·.isNoArg)
    let candidates := cs.filter fun c => !c.isNoArg
    -- a record takes its largest constructor where there is a choice at all
    if kind = .record ∧ (1 < candidates.length ∨ (noArg.isSome ∧ candidates ≠ [])) then
      ConstructorDecl.largest? candidates
    else
      match noArg, candidates with
      | some c, _ => some c
      | none, [only] => some only
      | none, _ => none

/-- The constructor that builds the instances of a declared type. -/
def discover (d : TypeDecl) (t : TypeRef) : Option PersistenceConstructor :=
  match d.kind with
  | .interface | .enum | .unsupported => none
  | kind =>
    if d.constructors.isEmpty then
      -- a plain type without constructors is built without arguments
      if kind = .plain then some (ofDecl (d.bindings t) {}) else none
    else (choose? kind d.constructors).map (ofDecl (d.bindings t))

end PersistenceConstructor

end EntityModel
