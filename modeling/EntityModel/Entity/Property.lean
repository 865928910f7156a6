import EntityModel.Declaration.Basic
import EntityModel.SimpleTypes
import EntityModel.Text.Quoted

/-!
# Entity properties

A property of an entity is backed by a field, by an accessor, or by both under one name. Its
classification is derived from the annotations of what backs it and of the owning type, and from its
type.
-/

namespace EntityModel

/-- What a property is read from and written to. -/
inductive Backing where
  /-- A field, perhaps with an accessor of the same name. -/
  | field (field : FieldDecl) (accessor : Option AccessorDecl)
  /-- An accessor alone. -/
  | accessor (accessor : AccessorDecl)
  deriving DecidableEq, Repr

namespace Backing

def name : Backing → String
  | field f _ => f.name
  | accessor a => a.name

def type : Backing → TypeRef
  | field f _ => f.type
  | accessor a => a.type

def field? : Backing → Option FieldDecl
  | field f _ => some f
  | accessor _ => none

def accessor? : Backing → Option AccessorDecl
  | field _ a => a
  | accessor a => some a

def isFieldBacked (b : Backing) : Bool :=
  b.field?.isSome

def hasAccessor (b : Backing) : Bool :=
  b.accessor?.any (·.hasAccessor)

def hasGetter (b : Backing) : Bool :=
  b.accessor?.any (·.hasGetter)

def hasSetter (b : Backing) : Bool :=
  b.accessor?.any (·.hasSetter)

def hasWither (b : Backing) : Bool :=
  b.accessor?.any (·.hasWither)

/-- The annotations of the field, then those of the accessor. -/
def annotations (b : Backing) : List Annotation :=
  b.field?.elim [] (·.annotations) ++ b.accessor?.elim [] (·.annotations)

/-- A property that nothing sets once it is built: without a setter, on a final field or on none. -/
def isImmutable (b : Backing) : Bool :=
  !b.hasSetter && b.field?.all (·.modifiers.isFinal)

end Backing

/-- How the identifier property of an entity is recognized. -/
inductive IdRule where
  /-- By its annotation. -/
  | annotated
  /-- By its name alone. -/
  | named (name : String)
  deriving DecidableEq, Repr

/-- A link from a property to the aggregate that it references. -/
structure Association where
  /-- The name of the property that holds the reference. -/
  inverse : String
  owner : TypeRef
  target : TypeRef
  deriving DecidableEq, Repr

structure EntityProperty where
  backing : Backing
  /-- The type of the owning entity. -/
  owner : TypeRef
  ownerIsInterface : Bool
  ownerAnnotations : List Annotation
  /-- The type behind the property if its values may be entities. -/
  entityType : Option TypeRef
  idRule : IdRule
  deriving DecidableEq, Repr

namespace EntityProperty

/-- The type behind a property, unless it is simple or cannot be an entity in its form. -/
def entityTypeOf (simple : SimpleTypes) (type : TypeRef) : Option TypeRef :=
  let t := type.actual
  if simple.isSimple t || t.isCollectionLike || t.isMap || t.isVariable then none else some t

/-- The property of a declared type, referred to as `owner`. -/
def make (backing : Backing) (owner : TypeRef) (decl : TypeDecl) (simple : SimpleTypes)
    (idRule : IdRule) : EntityProperty where
  backing
  owner
  ownerIsInterface := decl.isInterface
  ownerAnnotations := decl.annotations
  entityType := entityTypeOf simple backing.type
  idRule

def name (p : EntityProperty) : String := p.backing.name

def type (p : EntityProperty) : TypeRef := p.backing.type

/-- The type behind one container. -/
def actual (p : EntityProperty) : TypeRef := p.type.actual

def rawTypeName (p : EntityProperty) : String := p.type.name

def annotation? (p : EntityProperty) (kind : AnnotationKind) : Option Annotation :=
  Annotation.find? p.backing.annotations kind

def isAnnotated (p : EntityProperty) (kind : AnnotationKind) : Bool :=
  (p.annotation? kind).isSome

/-- The first annotation of a kind on the property, else on the owning type. -/
def ownOrOwnerAnnotation? (p : EntityProperty) (kind : AnnotationKind) : Option Annotation :=
  (p.annotation? kind).or <| Annotation.find? p.ownerAnnotations kind

def isId (p : EntityProperty) : Bool :=
  match p.idRule with
  | .annotated => p.isAnnotated .id
  | .named n => p.name == n

def isVersion (p : EntityProperty) : Bool :=
  p.isAnnotated .version

def isTransient (p : EntityProperty) : Bool :=
  p.backing.field?.any (·.modifiers.isTransient) || p.isAnnotated .transient

def isAssociation (p : EntityProperty) : Bool :=
  !p.isTransient && p.isAnnotated .reference

def isWritable (p : EntityProperty) : Bool :=
  !p.isTransient && !p.isAnnotated .readOnly

def isReadable (p : EntityProperty) : Bool :=
  !p.isTransient

/-- Reached through accessors and not through the field: always on interfaces, else on request. -/
def usesPropertyAccess (p : EntityProperty) : Bool :=
  p.ownOrOwnerAnnotation? .accessType == some (.accessType .property) || p.ownerIsInterface

def isEntity (p : EntityProperty) : Bool :=
  !p.isTransient && p.entityType.isSome

def isImmutable (p : EntityProperty) : Bool := p.backing.isImmutable

def isCollectionLike (p : EntityProperty) : Bool := p.type.isCollectionLike

def isMap (p : EntityProperty) : Bool := p.type.isMap

/-- The type that a reference annotation names, else the type behind the property. -/
def associationTarget? (p : EntityProperty) : Option TypeRef :=
  match p.annotation? .reference with
  | none => none
  | some (.reference (some target)) => some (.of target)
  | some _ => some p.actual

def association? (p : EntityProperty) : Option Association :=
  if p.isAssociation then p.associationTarget?.map (⟨p.name, p.owner, ·⟩) else none

/-- The entity types behind the property, one at most. -/
def entityTypes (p : EntityProperty) : List TypeRef :=
  if p.isEntity then p.entityType.toList else []

def debugText (p : EntityProperty) : String :=
  let core := Text.record "PropertyCore"
    [("name", Text.quoted p.name), ("type", Text.quoted p.type.text),
     ("owner", Text.quoted p.owner.text)]
  Text.record "AnnotationBasedPersistentProperty" [("core", core)]

/-- Whether two properties agree in name, owner and type. -/
def same (p q : EntityProperty) : Bool :=
  p.name == q.name && decide (p.owner = q.owner) && decide (p.type = q.type)

end EntityProperty

end EntityModel
