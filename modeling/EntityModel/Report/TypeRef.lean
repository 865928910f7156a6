import EntityModel.Declaration.Decode
import EntityModel.Json.Printer
import EntityModel.Report.Error

/-!
# Reports of types and methods

Types are shown by their text or by their document, which can be read again.
-/

namespace EntityModel

def TypeRef.shown (t : TypeRef) : Json := .string t.text

/-- Whether the written document of a type reads as the same type. -/
def TypeRef.readsBack (t : TypeRef) : Bool :=
  (JsonNode.ofText? t.encode.compact).bind (TypeRef.decode (2 * t.size)) == some t

/-- Everything that can be asked about a type, also under bindings of its variables. -/
def TypeRef.reportMembers (t : TypeRef) (b : TypeRef.Bindings) : List (String × Json) := [
  ("display", t.shown),
  ("name", .string t.name),
  ("arguments", .ofList shown t.arguments),
  ("collection_like", .bool t.isCollectionLike),
  ("map", .bool t.isMap),
  ("array", .bool t.isArray),
  ("optional", .bool t.isOptional),
  ("variable", .bool t.isVariable),
  ("primitive", .bool t.isPrimitive),
  ("component", .ofOption shown t.component?),
  ("map_value", .ofOption shown t.mapValue?),
  ("actual", t.actual.encode),
  ("leaf_actual", t.leafActual.encode),
  ("required_actual", Error.reportOr encode t.requiredActual),
  ("resolved", (t.subst b).encode),
  ("unbound", .bool t.hasVariables),
  ("json", t.encode),
  ("reparsed_equal", .bool t.readsBack)]

def Method.report (m : Method) : Json :=
  .ofMembers [
    ("sig", .string m.text),
    ("returns", .ofOption TypeRef.shown m.returnType),
    ("modifiers", m.modifiers.encode),
    ("annotations", Annotation.encodeAll m.annotations)]

end EntityModel
