import EntityModel.TypeRef
import EntityModel.Declaration.Annotation

/-!
# Declarations

A type is declared by its name, kind, parameters and supertypes together with its fields,
accessors, constructors and methods. Declarations are plain data; what they mean together is for
the catalog that holds them.
-/

namespace EntityModel

structure FieldModifiers where
  isStatic : Bool := false
  isFinal : Bool := false
  isSynthetic : Bool := false
  isTransient : Bool := false
  deriving DecidableEq, Repr, Inhabited

structure FieldDecl where
  name : String
  type : TypeRef
  modifiers : FieldModifiers := {}
  annotations : List Annotation := []
  deriving DecidableEq, Repr

/-- A named group of a getter, a setter and a wither. -/
structure AccessorDecl where
  name : String
  type : TypeRef
  hasGetter : Bool := true
  hasSetter : Bool := false
  hasWither : Bool := false
  annotations : List Annotation := []
  deriving DecidableEq, Repr

def AccessorDecl.hasAccessor (a : AccessorDecl) : Bool :=
  a.hasGetter || a.hasSetter

/-- The accessor can stand for a property without a field. -/
def AccessorDecl.supportsStandalone (a : AccessorDecl) : Bool :=
  a.hasGetter

structure ParameterDecl where
  name : String
  type : TypeRef
  deriving DecidableEq, Repr

structure ConstructorDecl where
  parameters : List ParameterDecl := []
  annotations : List Annotation := []
  deriving DecidableEq, Repr, Inhabited

def ConstructorDecl.isNoArg (c : ConstructorDecl) : Bool :=
  c.parameters.isEmpty

structure MethodModifiers where
  isDefault : Bool := false
  isStatic : Bool := false
  isBridge : Bool := false
  deriving DecidableEq, Repr, Inhabited

structure Method where
  declaringType : String := ""
  name : String
  parameterTypes : List TypeRef := []
  returnType : Option TypeRef := none
  modifiers : MethodModifiers := {}
  annotations : List Annotation := []
  deriving DecidableEq, Repr

/-- What tells methods apart: where they are declared, their name and their parameter types. -/
structure MethodIdentity where
  declaringType : String
  name : String
  parameterTypes : List TypeRef
  deriving DecidableEq, Repr

namespace Method

/-- The identity of a method; return type, modifiers and annotations do not take part in it. -/
def identity (m : Method) : MethodIdentity :=
  ⟨m.declaringType, m.name, m.parameterTypes⟩

/-- The same name and parameter types, wherever declared. -/
def matchesSignature (m other : Method) : Bool :=
  m.name == other.name && decide (m.parameterTypes = other.parameterTypes)

/-- The text of a method: its declaring type if there is one, name and parameter types. -/
def text (m : Method) : String :=
  (if m.declaringType = "" then "" else m.declaringType ++ ".") ++ m.name ++ "(" ++
    ", ".intercalate (m.parameterTypes.map TypeRef.text) ++ ")"

/-- The method declared on a type unless it says where it is declared. -/
def declaredOn (m : Method) (type : String) : Method :=
  if m.declaringType = "" then { m with declaringType := type } else m

def annotation? (m : Method) (kind : AnnotationKind) : Option Annotation :=
  Annotation.find? m.annotations kind

/-- Signatures match if name and parameter types are equal; where methods were declared does not
count. -/
theorem matchesSignature_iff {m other : Method} :
    m.matchesSignature other = true ↔
      m.name = other.name ∧ m.parameterTypes = other.parameterTypes := by
  simp [matchesSignature]

/-- The identity of a method includes its signature. -/
theorem matchesSignature_of_identity {m other : Method} (h : m.identity = other.identity) :
    m.matchesSignature other = true := by
  cases m
  cases other
  cases h
  exact matchesSignature_iff.mpr ⟨rfl, rfl⟩

end Method

inductive DeclKind where
  /-- An ordinary class. -/
  | plain
  | interface
  | enum
  | record
  /-- Known by name, but without a structure of its own. -/
  | unsupported
  deriving DecidableEq, Repr

structure TypeDecl where
  name : String
  kind : DeclKind := .plain
  typeParameters : List String := []
  superclass : Option TypeRef := none
  interfaces : List TypeRef := []
  fields : List FieldDecl := []
  accessors : List AccessorDecl := []
  constructors : List ConstructorDecl := []
  methods : List Method := []
  annotations : List Annotation := []
  deriving DecidableEq, Repr

namespace TypeDecl

def isInterface (d : TypeDecl) : Bool :=
  d.kind == .interface

def annotation? (d : TypeDecl) (kind : AnnotationKind) : Option Annotation :=
  Annotation.find? d.annotations kind

def field? (d : TypeDecl) (name : String) : Option FieldDecl :=
  d.fields.find? fun f => f.name == name

def accessor? (d : TypeDecl) (name : String) : Option AccessorDecl :=
  d.accessors.find? fun a => a.name == name

/-- The supertypes in the order of their declaration, the superclass first. -/
def supertypes (d : TypeDecl) : List TypeRef :=
  d.superclass.toList ++ d.interfaces

/-- The type parameters bound to the arguments of a reference to the type. Only a named reference
has arguments to bind. -/
def bindings (d : TypeDecl) : TypeRef → TypeRef.Bindings
  | .named _ as => TypeRef.bind d.typeParameters as
  | _ => []

/-- The declaration with its methods declared on it unless they say otherwise. -/
def claimMethods (d : TypeDecl) : TypeDecl :=
  { d with methods := d.methods.map (·.declaredOn d.name) }

end TypeDecl

end EntityModel
