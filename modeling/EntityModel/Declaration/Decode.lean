import EntityModel.Declaration.Encode
import EntityModel.Json.Node

/-!
# Reading declarations

Declarations are read from JSON trees. Members without a default have to be there, no known member
may be repeated, and members that are not known are ignored, whatever they hold. Null stands only
for a missing superclass, return type or reference target.

A type reference is held back until its kind is known, and so is the content of an annotation that
stands before its word. Nothing in a type reference is ignored unread: all of it has to be a
document within the nesting limit. What was held back is also read a little more freely: a word may
stand in an object around an empty object, and the kind of a type inside another one may be an
index.

Every reader takes the room that is left for nested containers.
-/

namespace EntityModel.JsonNode

/-- The members of an object whose names all denote. -/
def namedMembers? : JsonNode → Option (List (String × JsonNode))
  | .object members => members.mapM fun (name, n) => name.map ((·, n))
  | _ => none

/-- The member of a name: there may be none, but not two. -/
def unique? (members : List (String × JsonNode)) (name : String) : Option (Option JsonNode) :=
  match members.filter fun m => m.1 == name with
  | [] => some none
  | [m] => some (some m.2)
  | _ => none

/-- A member that has to be there. -/
def required? {α : Type} (members : List (String × JsonNode)) (name : String)
    (read : JsonNode → Option α) : Option α :=
  match unique? members name with
  | some (some n) => read n
  | _ => none

/-- A member with a default. -/
def optional? {α : Type} (members : List (String × JsonNode)) (name : String) (default : α)
    (read : JsonNode → Option α) : Option α :=
  match unique? members name with
  | some (some n) => read n
  | some none => some default
  | none => none

/-- A string that denotes. -/
def text? : JsonNode → Option String
  | .string content => content
  | _ => none

def bool? : JsonNode → Option Bool
  | .bool b => some b
  | _ => none

/-- An array whose items are all read alike. -/
def list? {α : Type} (read : JsonNode → Option α) : JsonNode → Option (List α)
  | .array items => items.mapM read
  | _ => none

def nullable? {α : Type} (read : JsonNode → Option α) : JsonNode → Option (Option α)
  | .null => some none
  | n => (read n).map some

/-- One of a few words. It may also stand as the name of an object's only member, which is null. -/
def word? {α : Type} (ofWord : String → Option α) : JsonNode → Option α
  | .string content => content.bind ofWord
  | .object [(name, .null)] => name.bind ofWord
  | _ => none

/-- One of a few words in a tree that was held back. The only member of the object that it names may
also be an empty object. -/
def heldWord? {α : Type} (ofWord : String → Option α) : JsonNode → Option α
  | .object [(name, .object [])] => name.bind ofWord
  | n => word? ofWord n

/-- A word, or its index among a few words in place of it. -/
def wordOrIndex? (words : List String) : JsonNode → Option String
  | .numeral n =>
    match n.value? with
    | some (.integer i) => if 0 ≤ i then words[i.toNat]? else none
    | _ => none
  | n => text? n

/-- Whether the first of two members to come is the one of the given name. -/
def precedes (members : List (String × JsonNode)) (name other : String) : Bool :=
  match members.find? fun m => m.1 == name || m.1 == other with
  | some m => m.1 == name
  | none => false

end EntityModel.JsonNode

namespace EntityModel

open JsonNode

def CollectionKind.ofWord : String → Option CollectionKind
  | "list" => some .list
  | "set" => some .set
  | _ => none

def AccessMode.ofWord : String → Option AccessMode
  | "field" => some .field
  | "property" => some .property
  | _ => none

def DeclKind.ofWord : String → Option DeclKind
  | "class" => some .plain
  | "interface" => some .interface
  | "enum" => some .enum
  | "record" => some .record
  | "unsupported" => some .unsupported
  | _ => none

/-- The words for the kinds of types, in the order of their indices. -/
def TypeRef.kindWords : List String :=
  ["named", "collection", "array", "map", "optional", "variable"]

/-- The type of a kind with the given members, where `inner` reads the types inside it. -/
def TypeRef.ofMembers? (inner : JsonNode → Option TypeRef) (kind : String)
    (members : List (String × JsonNode)) : Option TypeRef := do
  match kind with
  | "named" =>
    return .named (← required? members "name" text?)
      (← optional? members "arguments" [] (list? inner))
  | "collection" =>
    return .collection (← required? members "collection" (heldWord? CollectionKind.ofWord))
      (← required? members "element" inner)
  | "array" => return .array (← required? members "component" inner)
  | "map" => return .map (← required? members "key" inner) (← required? members "value" inner)
  | "optional" => return .optional (← required? members "inner" inner)
  | "variable" => return .variable (← required? members "name" text?)
  | _ => none

/-- Reads a type inside another one that nests at most `depth` further types. Its kind may be an
index. -/
def TypeRef.decodeInner (depth : Nat) (n : JsonNode) : Option TypeRef :=
  match depth with
  | 0 => none
  | depth + 1 => do
    let members ← namedMembers? n
    let kind ← required? members "kind" (wordOrIndex? TypeRef.kindWords)
    TypeRef.ofMembers? (TypeRef.decodeInner depth) kind members

/-- Reads a type that nests containers at most `room` deep. -/
def TypeRef.decode (room : Nat) (n : JsonNode) : Option TypeRef := do
  guard (n.toJson? room).isSome
  let members ← namedMembers? n
  let kind ← required? members "kind" text?
  TypeRef.ofMembers? (TypeRef.decodeInner room) kind members

/-- The kind of annotations of a word; custom annotations have none. -/
def AnnotationKind.ofWord : String → Option AnnotationKind
  | "id" => some .id
  | "version" => some .version
  | "transient" => some .transient
  | "reference" => some .reference
  | "read_only" => some .readOnly
  | "type_alias" => some .typeAlias
  | "immutable" => some .immutable
  | "access_type" => some .accessType
  | "persistence_creator" => some .persistenceCreator
  | "query" => some .query
  | "domain_events" => some .domainEvents
  | _ => none

/-- An annotation of a word without content. -/
def Annotation.plain? : String → Option Annotation
  | "id" => some .id
  | "version" => some .version
  | "transient" => some .transient
  | "read_only" => some .readOnly
  | "immutable" => some .immutable
  | "persistence_creator" => some .persistenceCreator
  | "domain_events" => some .domainEvents
  | _ => none

/-- The annotation of a word with its content, where `readMode` reads a mode of access. -/
def Annotation.withContent? (readMode : JsonNode → Option AccessMode) (word : String)
    (content : Option JsonNode) : Option Annotation :=
  match word with
  | "reference" =>
    match content with
    | none => some (.reference none)
    | some n => (nullable? text? n).map .reference
  | "type_alias" => (content.bind text?).map .typeAlias
  | "access_type" => (content.bind readMode).map .accessType
  | "query" => (content.bind text?).map .query
  | "custom" => (content.bind text?).map .custom
  | word =>
    match content with
    | none | some .null => Annotation.plain? word
    | _ => none

def Annotation.decode (n : JsonNode) : Option Annotation := do
  let members ← namedMembers? n
  let word ← required? members "annotation" (word? some)
  let readMode := if precedes members "value" "annotation" then heldWord? else word?
  Annotation.withContent? (readMode AccessMode.ofWord) word (← unique? members "value")

def FieldModifiers.decode (n : JsonNode) : Option FieldModifiers := do
  let members ← namedMembers? n
  return {
    isStatic := ← optional? members "is_static" false bool?
    isFinal := ← optional? members "is_final" false bool?
    isSynthetic := ← optional? members "is_synthetic" false bool?
    isTransient := ← optional? members "is_transient" false bool? }

def FieldDecl.decode (room : Nat) (n : JsonNode) : Option FieldDecl := do
  let members ← namedMembers? n
  return {
    name := ← required? members "name" text?
    type := ← required? members "type_info" (TypeRef.decode (room - 1))
    modifiers := ← optional? members "modifiers" {} FieldModifiers.decode
    annotations := ← optional? members "annotations" [] (list? Annotation.decode) }

def AccessorDecl.decode (room : Nat) (n : JsonNode) : Option AccessorDecl := do
  let members ← namedMembers? n
  return {
    name := ← required? members "name" text?
    type := ← required? members "type_info" (TypeRef.decode (room - 1))
    hasGetter := ← optional? members "has_getter" true bool?
    hasSetter := ← optional? members "has_setter" false bool?
    hasWither := ← optional? members "has_wither" false bool?
    annotations := ← optional? members "annotations" [] (list? Annotation.decode) }

def ParameterDecl.decode (room : Nat) (n : JsonNode) : Option ParameterDecl := do
  let members ← namedMembers? n
  return {
    name := ← required? members "name" text?
    type := ← required? members "type_info" (TypeRef.decode (room - 1)) }

def ConstructorDecl.decode (room : Nat) (n : JsonNode) : Option ConstructorDecl := do
  let members ← namedMembers? n
  return {
    parameters := ← optional? members "parameters" [] (list? (ParameterDecl.decode (room - 2)))
    annotations := ← optional? members "annotations" [] (list? Annotation.decode) }

def MethodModifiers.decode (n : JsonNode) : Option MethodModifiers := do
  let members ← namedMembers? n
  return {
    isDefault := ← optional? members "is_default" false bool?
    isStatic := ← optional? members "is_static" false bool?
    isBridge := ← optional? members "is_bridge" false bool? }

def Method.decode (room : Nat) (n : JsonNode) : Option Method := do
  let members ← namedMembers? n
  return {
    declaringType := ← optional? members "declaring_type" "" text?
    name := ← required? members "name" text?
    parameterTypes := ← optional? members "parameter_types" [] (list? (TypeRef.decode (room - 2)))
    returnType := ← optional? members "return_type" none (nullable? (TypeRef.decode (room - 1)))
    modifiers := ← optional? members "modifiers" {} MethodModifiers.decode
    annotations := ← optional? members "annotations" [] (list? Annotation.decode) }

def TypeDecl.decode (room : Nat) (n : JsonNode) : Option TypeDecl := do
  let members ← namedMembers? n
  return {
    name := ← required? members "name" text?
    kind := ← optional? members "kind" .plain (word? DeclKind.ofWord)
    typeParameters := ← optional? members "type_parameters" [] (list? text?)
    superclass := ← optional? members "superclass" none (nullable? (TypeRef.decode (room - 1)))
    interfaces := ← optional? members "interfaces" [] (list? (TypeRef.decode (room - 2)))
    fields := ← optional? members "fields" [] (list? (FieldDecl.decode (room - 2)))
    accessors := ← optional? members "accessors" [] (list? (AccessorDecl.decode (room - 2)))
    constructors :=
      ← optional? members "constructors" [] (list? (ConstructorDecl.decode (room - 2)))
    methods := ← optional? members "methods" [] (list? (Method.decode (room - 2)))
    annotations := ← optional? members "annotations" [] (list? Annotation.decode) }

def TypeDecl.decodeList (room : Nat) : JsonNode → Option (List TypeDecl) :=
  list? (TypeDecl.decode (room - 1))

/-- Reads the declarations of a text, an array of them. -/
def TypeDecl.listOfText? (text : String) : Option (List TypeDecl) :=
  (JsonNode.ofText? text).bind (TypeDecl.decodeList nestingLimit)

end EntityModel
