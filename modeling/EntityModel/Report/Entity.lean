import EntityModel.Context.Basic
import EntityModel.Entity.Path
import EntityModel.Report.TypeRef

/-!
# Reports of entities

The report of an entity shows its shape, the report of a property its classification, also with
regard to the entity that it belongs to.
-/

namespace EntityModel

def PersistenceConstructor.report (c : PersistenceConstructor) : Json :=
  .ofMembers [
    ("parameters", .ofList (fun p => .array [.string p.name, p.type.encode]) c.parameters),
    ("annotated", .bool c.isAnnotated),
    ("no_arg", .bool c.isNoArg)]

def Association.report (a : Association) : Json :=
  .array [.string a.inverse, a.owner.shown, a.target.encode]

namespace EntityProperty

def names (ps : List EntityProperty) : Json := .ofStrings (ps.map (·.name))

/-- What a property of an entity can be, with whether it is. The entity is always there as long as
its property is. -/
def flags (p : EntityProperty) (e : Entity) : List (String × Bool) := [
  ("id", p.isId),
  ("version", p.isVersion),
  ("transient", p.isTransient),
  ("association", p.isAssociation),
  ("writable", p.isWritable),
  ("readable", p.isReadable),
  ("property_access", p.usesPropertyAccess),
  ("collection", p.isCollectionLike),
  ("map", p.isMap),
  ("array", p.type.isArray),
  ("entity", p.isEntity),
  ("immutable", p.isImmutable),
  ("field_backed", p.backing.isFieldBacked),
  ("getter", p.backing.hasGetter),
  ("setter", p.backing.hasSetter),
  ("wither", p.backing.hasWither),
  ("has_accessor", p.backing.hasAccessor),
  ("constructor_argument", e.isConstructorArgument p),
  ("entity_id", e.isIdProperty p),
  ("entity_version", e.isVersionProperty p),
  ("owner_alive", true)]

def report (e : Entity) (p : EntityProperty) : Json :=
  .ofMembers [
    ("name", .string p.name),
    ("flags", .ofStrings (((p.flags e).filter (·.2)).map (·.1))),
    ("type", p.type.shown),
    ("raw", .string p.rawTypeName),
    ("actual", p.actual.shown),
    ("component", .ofOption TypeRef.shown p.type.component?),
    ("map_value", .ofOption TypeRef.shown p.type.mapValue?),
    ("owner", p.owner.shown),
    ("association", .ofOption Association.report p.association?),
    ("association_target", .ofOption TypeRef.shown p.associationTarget?),
    ("entity_types", .array (TypeRef.encodeAll p.entityTypes)),
    ("annotations", Annotation.encodeAll p.backing.annotations)]

end EntityProperty

/-- The report of what a property is read from and written to. -/
def Backing.report (b : Backing) : Json :=
  .array [.string b.name, b.type.shown, .bool b.isFieldBacked, .bool b.accessor?.isSome,
    .bool b.hasAccessor]

def Entity.report (e : Entity) : Json :=
  .ofMembers [
    ("display", .string e.text),
    ("debug", .string e.debugText),
    ("name", .string e.name),
    ("type", e.type.encode),
    ("kind", .string e.decl.kind.word),
    ("verified", .bool e.isVerified),
    ("properties", EntityProperty.names e.properties),
    ("persistent", EntityProperty.names e.persistent),
    ("associations", .ofList Association.report e.associations),
    ("id", .ofString? (e.id.map (·.name))),
    ("required_id", Error.reportOr (fun p => .string p.name) e.requiredId),
    ("version", .ofString? (e.version.map (·.name))),
    ("has", .array [.bool e.id.isSome, .bool e.version.isSome]),
    ("alias", .ofString? e.alias?),
    ("immutable", .bool e.isImmutable),
    ("population", .bool e.requiresPopulation),
    ("constructor", .ofOption PersistenceConstructor.report e.constructor)]

def EntityPath.report (p : EntityPath) : Json :=
  .ofMembers [
    ("dot", .string p.dotPath),
    ("display", .string p.dotPath),
    ("debug", .string p.debugText),
    ("len", .ofNat p.length),
    ("empty", .bool p.isEmpty),
    ("base", .ofString? (p.base?.map (·.name))),
    ("leaf", Error.reportOr (fun q => .string q.name) p.requiredLeaf),
    ("owners", .ofList (fun q => q.owner.shown) p.properties),
    ("types", .ofList (fun q => q.type.shown) p.properties)]

def Delivery.report (d : Delivery) : Json :=
  .array [.ofNat d.listener, d.entity.type.shown, .bool d.entity.isVerified,
    .ofNat d.entity.properties.length]

def SkippedWrite.report (w : SkippedWrite) : Json :=
  .ofMembers [("bean", .string w.root), ("path", .string w.path), ("property", .string w.property)]

end EntityModel
