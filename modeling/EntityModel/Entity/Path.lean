import EntityModel.Entity.Property

/-!
# Entity paths

An entity path is a chain of properties of entities in which every property belongs to the type
behind the property before it. The empty path is a path too; it is its own parent and starts every
path.
-/

namespace EntityModel

/-- A chain of properties of entities. -/
structure EntityPath where
  properties : List EntityProperty := []
  deriving DecidableEq, Repr, Inhabited

namespace EntityPath

def of (p : EntityProperty) : EntityPath := ⟨[p]⟩

def length (path : EntityPath) : Nat := path.properties.length

def isEmpty (path : EntityPath) : Bool := path.properties.isEmpty

def base? (path : EntityPath) : Option EntityProperty := path.properties.head?

def leaf? (path : EntityPath) : Option EntityProperty := path.properties.getLast?

def requiredLeaf (path : EntityPath) : Except Error EntityProperty :=
  match path.leaf? with
  | some p => .ok p
  | none => .error .noLeaf

/-- The names that a conversion gives to the properties, joined by a delimiter. Properties without a
name, or with an empty one, are left out; without any name there is no text. -/
def joined? (path : EntityPath) (delimiter : String) (convert : EntityProperty → Option String) :
    Option String :=
  match (path.properties.filterMap convert).filter (· ≠ "") with
  | [] => none
  | names => some (delimiter.intercalate names)

def dotPath (path : EntityPath) : String :=
  (path.joined? "." fun p => some p.name).getD ""

def debugText (path : EntityPath) : String :=
  "PersistentPropertyPath(" ++ Text.quoted path.dotPath ++ ")"

/-- The path with a further property, which must belong to the type behind the last one. Belonging
is a matter of raw names. -/
def append (path : EntityPath) (p : EntityProperty) : Except Error EntityPath :=
  match path.leaf? with
  | none => .ok ⟨path.properties ++ [p]⟩
  | some leaf =>
    if leaf.actual.name = p.owner.name then .ok ⟨path.properties ++ [p]⟩
    else .error (.cannotAppend p.name p.owner.text path.dotPath leaf.actual.text)

/-- The path continued by all properties of another one. -/
def appendPath (path other : EntityPath) : Except Error EntityPath :=
  other.properties.foldlM append path

def parent (path : EntityPath) : EntityPath :=
  ⟨path.properties.dropLast⟩

/-- Whether another path starts with all properties of this one. -/
def isBaseOf (path other : EntityPath) : Bool :=
  path.length ≤ other.length &&
    (path.properties.zip other.properties).all fun (p, q) => p.same q

/-- The rest of a path behind a base, or the whole path if it does not start with that base. -/
def behind (path base : EntityPath) : EntityPath :=
  if base.isBaseOf path then ⟨path.properties.drop base.length⟩ else path

def same (path other : EntityPath) : Bool :=
  path.length == other.length && path.isBaseOf other

/-- Whether a type is behind a property of the path. -/
def passes (path : EntityPath) (t : TypeRef) : Bool :=
  path.properties.any fun p => decide (p.actual = t)

end EntityPath

end EntityModel
