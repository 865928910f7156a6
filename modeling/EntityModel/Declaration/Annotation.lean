/-!
# Annotations

Annotations mark types, fields, accessors, constructors and methods for the mapping. Each one has a
kind, by which it is looked for; the kind of a custom annotation is its name.
-/

namespace EntityModel

/-- How the properties of a type are reached. -/
inductive AccessMode where
  | field
  | property
  deriving DecidableEq, Repr

/-- A marker of a declared element. -/
inductive Annotation where
  | id
  | version
  | transient
  /-- A reference to another aggregate, whose type may be named. -/
  | reference (target : Option String)
  | readOnly
  | typeAlias (name : String)
  | immutable
  | accessType (access : AccessMode)
  | persistenceCreator
  | query (text : String)
  | domainEvents
  | custom (name : String)
  deriving DecidableEq, Repr

/-- What an annotation is looked for by. -/
inductive AnnotationKind where
  | id
  | version
  | transient
  | reference
  | readOnly
  | typeAlias
  | immutable
  | accessType
  | persistenceCreator
  | query
  | domainEvents
  | custom (name : String)
  deriving DecidableEq, Repr

namespace Annotation

def kind : Annotation → AnnotationKind
  | id => .id
  | version => .version
  | transient => .transient
  | reference _ => .reference
  | readOnly => .readOnly
  | typeAlias _ => .typeAlias
  | immutable => .immutable
  | accessType _ => .accessType
  | persistenceCreator => .persistenceCreator
  | query _ => .query
  | domainEvents => .domainEvents
  | custom name => .custom name

def find? (annotations : List Annotation) (kind : AnnotationKind) : Option Annotation :=
  List.find? (fun a => a.kind == kind) annotations

def isPresent (annotations : List Annotation) (kind : AnnotationKind) : Bool :=
  (find? annotations kind).isSome

end Annotation

end EntityModel
