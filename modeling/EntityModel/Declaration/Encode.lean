import EntityModel.Declaration.Basic
import EntityModel.Json.Basic

/-!
# Declarations as JSON

The written form of types, annotations, methods and declarations. Every member is written, also
those with their default value; only the arguments of a named type are left out where there are
none.
-/

namespace EntityModel

def CollectionKind.word : CollectionKind → String
  | .list => "list"
  | .set => "set"

def AccessMode.word : AccessMode → String
  | .field => "field"
  | .property => "property"

def DeclKind.word : DeclKind → String
  | .plain => "class"
  | .interface => "interface"
  | .enum => "enum"
  | .record => "record"
  | .unsupported => "unsupported"

namespace TypeRef

mutual

def encode : TypeRef → Json
  | .named n [] => .object [("kind", .string "named"), ("name", .string n)]
  | .named n (a :: as) =>
    .object [("arguments", .array (encode a :: encodeAll as)), ("kind", .string "named"),
      ("name", .string n)]
  | .collection k t =>
    .object [("collection", .string k.word), ("element", encode t), ("kind", .string "collection")]
  | .array t => .object [("component", encode t), ("kind", .string "array")]
  | .map k v => .object [("key", encode k), ("kind", .string "map"), ("value", encode v)]
  | .optional t => .object [("inner", encode t), ("kind", .string "optional")]
  | .variable n => .object [("kind", .string "variable"), ("name", .string n)]

def encodeAll : List TypeRef → List Json
  | [] => []
  | t :: ts => encode t :: encodeAll ts

end

/-- The document of a type, or null where there is none. -/
def encode? : Option TypeRef → Json
  | some t => encode t
  | none => .null

end TypeRef

namespace Annotation

def word : Annotation → String
  | id => "id"
  | version => "version"
  | transient => "transient"
  | reference _ => "reference"
  | readOnly => "read_only"
  | typeAlias _ => "type_alias"
  | immutable => "immutable"
  | accessType _ => "access_type"
  | persistenceCreator => "persistence_creator"
  | query _ => "query"
  | domainEvents => "domain_events"
  | custom _ => "custom"

def content? : Annotation → Option Json
  | reference target => some (Json.ofString? target)
  | typeAlias a => some (.string a)
  | accessType access => some (.string access.word)
  | query text => some (.string text)
  | custom name => some (.string name)
  | _ => none

def encode (a : Annotation) : Json :=
  .object (("annotation", .string a.word) :: (a.content?.map (("value", ·))).toList)

end Annotation

def Annotation.encodeAll (annotations : List Annotation) : Json :=
  .array (annotations.map encode)

def FieldModifiers.encode (m : FieldModifiers) : Json :=
  .object [("is_final", .bool m.isFinal), ("is_static", .bool m.isStatic),
    ("is_synthetic", .bool m.isSynthetic), ("is_transient", .bool m.isTransient)]

def FieldDecl.encode (f : FieldDecl) : Json :=
  .object [("annotations", Annotation.encodeAll f.annotations), ("modifiers", f.modifiers.encode),
    ("name", .string f.name), ("type_info", f.type.encode)]

def AccessorDecl.encode (a : AccessorDecl) : Json :=
  .object [("annotations", Annotation.encodeAll a.annotations), ("has_getter", .bool a.hasGetter),
    ("has_setter", .bool a.hasSetter), ("has_wither", .bool a.hasWither), ("name", .string a.name),
    ("type_info", a.type.encode)]

def ParameterDecl.encode (p : ParameterDecl) : Json :=
  .object [("name", .string p.name), ("type_info", p.type.encode)]

def ConstructorDecl.encode (c : ConstructorDecl) : Json :=
  .object [("annotations", Annotation.encodeAll c.annotations),
    ("parameters", .array (c.parameters.map ParameterDecl.encode))]

def MethodModifiers.encode (m : MethodModifiers) : Json :=
  .object [("is_bridge", .bool m.isBridge), ("is_default", .bool m.isDefault),
    ("is_static", .bool m.isStatic)]

def Method.encode (m : Method) : Json :=
  .object [("annotations", Annotation.encodeAll m.annotations),
    ("declaring_type", .string m.declaringType), ("modifiers", m.modifiers.encode),
    ("name", .string m.name), ("parameter_types", .array (TypeRef.encodeAll m.parameterTypes)),
    ("return_type", TypeRef.encode? m.returnType)]

def TypeDecl.encode (d : TypeDecl) : Json :=
  .object [("accessors", .array (d.accessors.map AccessorDecl.encode)),
    ("annotations", Annotation.encodeAll d.annotations),
    ("constructors", .array (d.constructors.map ConstructorDecl.encode)),
    ("fields", .array (d.fields.map FieldDecl.encode)),
    ("interfaces", .array (TypeRef.encodeAll d.interfaces)),
    ("kind", .string d.kind.word),
    ("methods", .array (d.methods.map Method.encode)),
    ("name", .string d.name),
    ("superclass", TypeRef.encode? d.superclass),
    ("type_parameters", Json.ofStrings d.typeParameters)]

end EntityModel
