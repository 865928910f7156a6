import EntityModel.Catalog.Basic
import EntityModel.Entity.Basic
import EntityModel.Entity.Mappable
import EntityModel.TypeRef.Debug

/-!
# Mappings

A mapping is a catalog of declarations together with the rules by which its types become entities:
which types are eligible, which declared elements become properties, how the identifier is
recognized and in which order properties end up.
-/

namespace EntityModel

structure MappingRules where
  /-- Whether lookups answer only types that were added before. -/
  isStrict : Bool := false
  simpleTypes : SimpleTypes := .default
  /-- The types that are added by `ContextM.addInitial`. -/
  initial : List TypeRef := []
  order : Option PropertyOrder := none
  /-- The access that the entities get to which it applies. -/
  access : Access := .direct
  idRule : IdRule := .annotated
  /-- Whether only declared types are eligible. -/
  declaredOnly : Bool := false

def Access.debugText : Access → String
  | direct => "BeanPropertyAccessorFactory"
  | refused names => "RejectingFactory(" ++ Text.bracketed (names.map Text.quoted) ++ ")"

def MappingRules.debugText (rules : MappingRules) : String :=
  Text.record "MappingConfig"
    [("strict", Text.truth rules.isStrict),
     ("initial_entity_set", Text.bracketed (rules.initial.map TypeRef.debugText)),
     ("has_property_comparator", Text.truth rules.order.isSome),
     ("accessor_factory", rules.access.debugText)]

/-- A catalog and the rules by which its types become entities. -/
structure Mapping where
  catalog : Catalog
  rules : MappingRules := {}

namespace Mapping

/-- The simple types of a mapping: those of its rules and all declared enumerations. -/
def simpleTypes (m : Mapping) : SimpleTypes :=
  let enums := m.catalog.declarations.filter fun d => d.kind == .enum
  ⟨enums.map (·.name) ++ m.rules.simpleTypes.names⟩

/-- Whether a type may become an entity: it is named and not simple, and nothing about its
declaration speaks against it. -/
def isEligible (m : Mapping) (t : TypeRef) : Bool :=
  t.isNamed && !m.simpleTypes.isSimple t &&
    match m.catalog.find? t.name with
    | some d => d.kind != .enum && d.kind != .unsupported
    | none => !m.rules.declaredOnly

/-- Fields, each with the first accessor of its name that no earlier field took, and the accessors
that are left. -/
def pairUp : List FieldDecl → List AccessorDecl → List Backing × List AccessorDecl
  | [], accessors => ([], accessors)
  | f :: fs, accessors =>
    let (backings, rest) := pairUp fs (accessors.eraseP fun a => a.name == f.name)
    (.field f (accessors.find? fun a => a.name == f.name) :: backings, rest)

/-- The mappable elements behind a type: fields before accessors of their own. -/
def backings (c : Catalog) (t : TypeRef) : Except Error (List Backing) := do
  let (paired, rest) :=
    pairUp ((← c.fieldsOf t).filter (·.isMappable)) (← c.accessorsOf t)
  let standalone := rest.filter fun a => a.supportsStandalone && a.isMappable
  return paired ++ standalone.map .accessor

/-- Whether a property takes part in an entity: it is not transient, and without a field it has to
be reached through accessors. -/
def takesPart (p : EntityProperty) : Bool :=
  !p.isTransient && (p.backing.isFieldBacked || p.usesPropertyAccess)

/-- The properties of a declared type in the order in which they are added to its entity. -/
def propertiesOf (m : Mapping) (t : TypeRef) (d : TypeDecl) :
    Except Error (List EntityProperty) := do
  let made := (← backings m.catalog t).map fun b =>
    EntityProperty.make b t d m.simpleTypes m.rules.idRule
  return made.filter takesPart

/-- What a type becomes an entity by: its declaration and the properties of its entity. -/
def outline (m : Mapping) (t : TypeRef) : Except Error (TypeDecl × List EntityProperty) := do
  let decl ← m.catalog.required t
  return (decl, ← m.propertiesOf t decl)

/-- The type that becomes an entity together with an owner, because a property of the owner's entity
leads to it. Properties of the owner's own raw type are not followed. -/
def nestedType? (m : Mapping) (owner : TypeRef) (p : EntityProperty) : Option TypeRef :=
  if p.rawTypeName = owner.name then none else p.entityTypes.find? m.isEligible

end Mapping

end EntityModel
