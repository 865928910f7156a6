import EntityModel.Catalog.Supertypes
import EntityModel.Entity.Constructor
import EntityModel.Entity.Newness
import EntityModel.Entity.Property
import EntityModel.Value.Basic

/-!
# Entities

An entity is the shape of a type under the mapping: its properties in order, those of them that
are stored as values, its associations, identifier and version. Properties are added one by one
until the entity is verified, which puts them into the order of a comparator if there is one.

Two answers are settled when they are first given and stay as they are: the properties with an
annotation, once the entity is verified, and the rule by which new instances are told.
-/

namespace EntityModel

abbrev PropertyOrder := EntityProperty → EntityProperty → Ordering

namespace PropertyOrder

def byName : PropertyOrder := fun p q => compare p.name q.name

def byNameDescending : PropertyOrder := fun p q => compare q.name p.name

def byNameLength : PropertyOrder := fun p q => compare p.name.utf8ByteSize q.name.utf8ByteSize

def byType : PropertyOrder := fun p q => compare p.type.text q.type.text

/-- The properties in this order; properties that it does not tell apart keep their order. -/
def sort (order : PropertyOrder) (ps : List EntityProperty) : List EntityProperty :=
  ps.mergeSort fun p q => order p q != .gt

end PropertyOrder

/-- How the values of an entity's instances are accessed. -/
inductive Access where
  /-- The fields of the instance are read and written. -/
  | direct
  /-- Access is refused to the entities of the given names. -/
  | refused (names : List String)
  deriving DecidableEq, Repr

/-- Whether a kind of access applies to the entities of a name. -/
def Access.supports : Access → String → Bool
  | direct, _ => true
  | refused names, name => names.contains name

/-- The shape of a type under the mapping. -/
structure Entity where
  /-- Which entity this is among all that were ever made. -/
  serial : Nat
  type : TypeRef
  decl : TypeDecl
  constructor : Option PersistenceConstructor
  order : Option PropertyOrder
  /-- Whether instances carry a flag that tells new ones. -/
  hasFlag : Bool
  properties : List EntityProperty := []
  /-- The properties that are neither transient nor associations. -/
  persistent : List EntityProperty := []
  /-- The properties in the order in which they were added. -/
  added : List EntityProperty := []
  associations : List Association := []
  id : Option EntityProperty := none
  version : Option EntityProperty := none
  isVerified : Bool := false
  access : Access := .direct
  /-- The properties with an annotation, as they were first answered after verification. -/
  annotated : List (AnnotationKind × List EntityProperty) := []
  /-- The rule for new instances, as it was first derived. -/
  newness : Option (Except Error NewnessRule) := none

namespace Entity

/-- An entity of a declared type, without properties yet. -/
def make (serial : Nat) (type : TypeRef) (decl : TypeDecl) (c : Catalog)
    (order : Option PropertyOrder) : Entity where
  serial
  type
  decl
  constructor := PersistenceConstructor.discover decl type
  order
  hasFlag := c.isSubtype type (.of NewnessRule.flagType)

def name (e : Entity) : String := e.type.name

def text (e : Entity) : String := "PersistentEntity(" ++ e.type.text ++ ")"

def debugText (e : Entity) : String :=
  Text.record "PersistentEntity"
    [("type", Text.quoted e.type.text),
     ("properties", Text.bracketed (e.properties.map fun p => Text.quoted p.name)),
     ("verified", Text.truth e.isVerified)]

def isConstructorArgument (e : Entity) (p : EntityProperty) : Bool :=
  e.constructor.any (·.hasParameter p.name)

/-- Whether the entity has a property of the same name and type. -/
def hasProperty (e : Entity) (p : EntityProperty) : Bool :=
  e.properties.any fun q => q.name == p.name && decide (q.type = p.type)

/-- The entity with a new property at the end. -/
def push (e : Entity) (p : EntityProperty) : Entity :=
  { e with
    -- a second identifier or version was refused before, so none is replaced here
    id := if p.isId then some p else e.id
    version := if p.isVersion then some p else e.version
    persistent := if !p.isTransient && !p.isAssociation then e.persistent ++ [p] else e.persistent
    added := e.added ++ [p]
    properties := e.properties ++ [p] }

/-- Adds a property. One that is already there is not added again; a second identifier or version is
refused. -/
def add (e : Entity) (p : EntityProperty) : Except Error Entity :=
  if e.hasProperty p then .ok e
  else
    match (if p.isId then e.id else none), (if p.isVersion then e.version else none) with
    | some existing, _ => .error (.duplicateId e.type.text existing.name p.name)
    | none, some existing => .error (.duplicateVersion e.type.text existing.name p.name)
    | none, none => .ok (e.push p)

/-- Adds an association that is not there yet. -/
def addAssociation (e : Entity) (a : Association) : Entity :=
  if a ∈ e.associations then e else { e with associations := e.associations ++ [a] }

/-- Adds a property together with the association that it holds. -/
def extend (e : Entity) (p : EntityProperty) : Except Error Entity := do
  let added ← e.add p
  return p.association?.elim added added.addAssociation

/-- The place of the last property of a name. -/
def lastIndex? (ps : List EntityProperty) (name : String) : Option Nat :=
  (ps.zipIdx.reverse.find? fun (p, _) => p.name == name).map (·.2)

/-- Whether an association comes before another one, or at the same place, by the properties that
hold them. Associations without a property come last. -/
def precedes (ps : List EntityProperty) (a b : Association) : Bool :=
  match lastIndex? ps a.inverse, lastIndex? ps b.inverse with
  | some i, some j => decide (i ≤ j)
  | none, some _ => false
  | _, none => true

/-- Puts the properties into their final order and seals the entity. -/
def verify (e : Entity) : Entity :=
  match e.order with
  | none => { e with isVerified := true }
  | some order =>
    let properties := order.sort e.properties
    { e with
      properties
      persistent := order.sort e.persistent
      associations := e.associations.mergeSort (precedes properties)
      isVerified := true }

/-- The entity with another kind of access, if that applies to it. -/
def withAccess (e : Entity) (access : Access) : Entity :=
  if access.supports e.name then { e with access } else e

/-- The property of a name, the first one that was added. -/
def property? (e : Entity) (name : String) : Option EntityProperty :=
  e.added.find? fun p => p.name == name

/-- The property of a name, which must be there. -/
def requiredProperty (e : Entity) (name : String) : Except Error EntityProperty :=
  match e.property? name with
  | some p => .ok p
  | none => .error (.missingProperty name e.type.text)

def requiredId (e : Entity) : Except Error EntityProperty :=
  match e.id with
  | some p => .ok p
  | none => .error (.missingId e.type.text)

/-- The properties that carry an annotation of a kind at the moment. -/
def withAnnotation (e : Entity) (kind : AnnotationKind) : List EntityProperty :=
  e.properties.filter (·.isAnnotated kind)

/-- The properties that carry an annotation of a kind, settled by the first answer after
verification. -/
def propertiesWith (e : Entity) (kind : AnnotationKind) : List EntityProperty × Entity :=
  if !e.isVerified then (e.withAnnotation kind, e)
  else
    match e.annotated.find? fun a => a.1 == kind with
    | some (_, ps) => (ps, e)
    | none =>
      let ps := e.withAnnotation kind
      (ps, { e with annotated := (kind, ps) :: e.annotated })

/-- Whether a property has the name of the identifier property. -/
def isIdProperty (e : Entity) (p : EntityProperty) : Bool :=
  e.id.any fun i => i.name == p.name

/-- Whether a property has the name of the version property. -/
def isVersionProperty (e : Entity) (p : EntityProperty) : Bool :=
  e.version.any fun v => v.name == p.name

/-- The first annotation of a kind on the type. -/
def annotation? (e : Entity) (kind : AnnotationKind) : Option Annotation :=
  e.decl.annotation? kind

/-- The alias of the type, unless it is empty. -/
def alias? (e : Entity) : Option String :=
  match e.annotation? .typeAlias with
  | some (.typeAlias a) => if a = "" then none else some a
  | _ => none

def isImmutable (e : Entity) : Bool :=
  (e.annotation? .immutable).isSome

/-- Whether some property has to be written after an instance was built. -/
def requiresPopulation (e : Entity) : Bool :=
  !e.isImmutable && e.properties.any fun p => !(e.isConstructorArgument p || p.isTransient)

/-- A value as an instance of the entity: it has to be a bean, of whatever type. -/
def instanceOf (e : Entity) (v : Value) : Except Error Bean :=
  match v.bean? with
  | some b => .ok b
  | none => .error (.notAnInstance e.name v.typeName)

/-- The identifier of an instance, null if there is none. -/
def identifier (e : Entity) (v : Value) : Except Error Value := do
  let b ← e.instanceOf v
  return (e.id.map fun p => b.get p.name).getD .null

/-- The rule for new instances as the properties say it at the moment. -/
def newnessRule (e : Entity) : Except Error NewnessRule :=
  if e.hasFlag then .ok .flag
  else
    match e.version.or e.id with
    | some p => NewnessRule.ofProperty p.name p.type
    | none => .ok .always

/-- Whether an instance is new. The rule is settled by the first question about a bean. -/
def isNew (e : Entity) (v : Value) : Except Error Bool × Entity :=
  match e.instanceOf v with
  | .error err => (.error err, e)
  | .ok b =>
    let rule := e.newness.getD e.newnessRule
    (rule.bind (·.isNew b), { e with newness := some rule })

end Entity

def requiredIdentifier (v : Value) : Except Error Value :=
  if v.isNull then .error .noIdentifier else .ok v

end EntityModel
