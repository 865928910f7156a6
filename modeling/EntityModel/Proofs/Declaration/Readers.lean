import EntityModel.Proofs.Json.Denotes

/-!
# Declarations are read back

Types, annotations, modifiers, fields, accessors, constructors, methods and declarations are each
read back from every tree that denotes what they are written as. Members come in any order; the
arguments of a named type and the content of an annotation that are not written are what the reader
takes for missing members.
-/

namespace EntityModel

open JsonNode

variable {α : Type} {room : Nat} {n : JsonNode} {members : List (String × JsonNode)}

/-! ### Words -/

/-- The word of a kind of collections is read as that kind. -/
lemma CollectionKind.ofWord_word : ∀ k : CollectionKind, ofWord k.word = some k
  | .list | .set => rfl

/-- The word of an access mode is read as that mode. -/
lemma AccessMode.ofWord_word : ∀ m : AccessMode, ofWord m.word = some m
  | .field | .property => rfl

/-- The word of a kind of declarations is read as that kind. -/
lemma DeclKind.ofWord_word : ∀ k : DeclKind, ofWord k.word = some k
  | .plain | .interface | .enum | .record | .unsupported => rfl

/-! ### Types -/

namespace TypeRef

/-- Types are written one by one. -/
lemma encodeAll_eq (ts : List TypeRef) : encodeAll ts = ts.map encode := by
  induction ts with
  | nil => rfl
  | cons t ts ih => rw [encodeAll, ih, List.map_cons]

/-- The word for the kind of a type. -/
def kindWord : TypeRef → String
  | .named _ _ => "named"
  | .collection _ _ => "collection"
  | .array _ => "array"
  | .map _ _ => "map"
  | .optional _ => "optional"
  | .variable _ => "variable"

/-- The members that a type is written with. -/
def encodeMembers : TypeRef → Dictionary Json
  | .named n [] => [("kind", .string "named"), ("name", .string n)]
  | .named n (a :: as) => [("arguments", .array ((a :: as).map encode)), ("kind", .string "named"),
      ("name", .string n)]
  | .collection k t => [("collection", .string k.word), ("element", encode t),
      ("kind", .string "collection")]
  | .array t => [("component", encode t), ("kind", .string "array")]
  | .map k v => [("key", encode k), ("kind", .string "map"), ("value", encode v)]
  | .optional t => [("inner", encode t), ("kind", .string "optional")]
  | .variable n => [("kind", .string "variable"), ("name", .string n)]

/-- A type is written as an object. -/
lemma encode_eq (t : TypeRef) : t.encode = .object t.encodeMembers := by
  cases t with
  | named n as =>
    cases as with
    | nil => rfl
    | cons a as =>
      rw [encode, encodeAll_eq]
      rfl
  | collection | array | map | optional | «variable» => rfl

/-- The members of a type tell its kind. -/
lemma kind_encodeMembers (t : TypeRef) :
    t.encodeMembers.get? "kind" = some (.string t.kindWord) := by
  cases t with
  | named n as => cases as <;> rfl
  | collection | array | map | optional | «variable» => rfl

/-- A type is read from its members if the types inside it are read. -/
lemma ofMembers?_eq_some {inner : JsonNode → Option TypeRef} {t : TypeRef}
    (holds : Holds room members t.encodeMembers)
    (reads : ∀ u r m, r ≤ room → m.Denotes r (encode u) → inner m = some u) :
    ofMembers? inner t.kindWord members = some t := by
  -- types that stand in a member are read with the same room, those in a list with less
  have here (u m) : m.Denotes room (encode u) → inner m = some u := reads u room m room.le_refl
  cases t with
  | named n as =>
    -- a type without arguments is written without the member for them
    cases as with
    | nil =>
      have name : required? members "name" text? = some n :=
        holds.required rfl (reads_text n room)
      have arguments : optional? members "arguments" [] (list? inner) = some [] :=
        holds.optional_none rfl
      simp [kindWord, ofMembers?, name, arguments]
    | cons a as =>
      have name : required? members "name" text? = some n :=
        holds.required rfl (reads_text n room)
      have arguments : optional? members "arguments" [] (list? inner) = some (a :: as) :=
        holds.optional rfl fun m denotes =>
          list?_eq_some denotes fun u m => reads u (room - 1) m (room.sub_le 1)
      simp [kindWord, ofMembers?, name, arguments]
  | collection k t =>
    have kind : required? members "collection" (heldWord? CollectionKind.ofWord) = some k :=
      holds.required rfl (reads_heldWord CollectionKind.ofWord_word k room)
    have element : required? members "element" inner = some t := holds.required rfl (here t)
    simp [kindWord, ofMembers?, kind, element]
  | array t =>
    have component : required? members "component" inner = some t := holds.required rfl (here t)
    simp [kindWord, ofMembers?, component]
  | map k v =>
    have key : required? members "key" inner = some k := holds.required rfl (here k)
    have value : required? members "value" inner = some v := holds.required rfl (here v)
    simp [kindWord, ofMembers?, key, value]
  | optional t =>
    have inner : required? members "inner" inner = some t := holds.required rfl (here t)
    simp [kindWord, ofMembers?, inner]
  | «variable» n =>
    have name : required? members "name" text? = some n := holds.required rfl (reads_text n room)
    simp [kindWord, ofMembers?, name]

/-- A type inside another one is read back if there is room for it. -/
theorem decodeInner_eq_some {depth : Nat} (t : TypeRef) (le : room ≤ depth)
    (denotes : n.Denotes room t.encode) : decodeInner depth n = some t := by
  induction depth generalizing t room n with
  | zero =>
    rw [encode_eq] at denotes
    exact absurd le (Nat.not_le_of_gt denotes.room_pos)
  | succ depth ih =>
    rw [encode_eq] at denotes
    obtain ⟨members, named, holds⟩ := denotes.members
    have kind : required? members "kind" (wordOrIndex? kindWords) = some t.kindWord := by
      refine holds.required t.kind_encodeMembers fun n denotes => ?_
      rw [denotes.eq_string]
      rfl
    have read : ofMembers? (decodeInner depth) t.kindWord members = some t :=
      ofMembers?_eq_some holds fun u r m le' => ih u (by omega)
    simp [decodeInner, named, kind, read]

/-- A type is read as it was written, in as much room as it needs. -/
theorem reads : Reads decode encode := by
  intro t room n denotes
  have fits : (n.toJson? room).isSome := by rw [denotes.denoted, Option.isSome_some]
  have guarded : guard (n.toJson? room).isSome = some () := if_pos fits
  rw [encode_eq] at denotes
  obtain ⟨members, named, holds⟩ := denotes.members
  have kind : required? members "kind" text? = some t.kindWord :=
    holds.required t.kind_encodeMembers (reads_text t.kindWord _)
  have read : ofMembers? (decodeInner room) t.kindWord members = some t :=
    ofMembers?_eq_some holds fun u r m le => decodeInner_eq_some u (by omega)
  rw [decode, guarded]
  simp [named, kind, read]

/-- Types are read as they were written, each in the room inside the list. -/
lemma reads_all :
    Reads (fun room => list? (decode (room - 1))) fun ts => .array (encodeAll ts) := by
  intro ts room n denotes
  simp only [encodeAll_eq] at denotes
  exact reads.list ts room n denotes

/-- A type that may be missing is read as it was written. -/
lemma reads_nullable : Reads (fun room => nullable? (decode room)) encode? := by
  intro o room n denotes
  have notNull (t : TypeRef) : t.encode ≠ .null := by
    rw [encode_eq]
    exact Json.noConfusion
  cases o with
  | none => exact reads.nullable notNull none room n denotes
  | some t => exact reads.nullable notNull (some t) room n denotes

end TypeRef

/-! ### Annotations -/

namespace Annotation

/-- The value of an annotation is its content, if it has one. -/
lemma get?_value (a : Annotation) :
    Dictionary.get? (("annotation", .string a.word) :: (a.content?.map (("value", ·))).toList)
      "value" = a.content? := by
  cases a.content? <;> rfl

/-- An annotation is read from its word and what denotes its content. -/
lemma withContent?_eq_some {readMode : JsonNode → Option AccessMode} {content : Option JsonNode}
    {a : Annotation} (related : Option.Rel (Denotes room) content a.content?)
    (reads : ∀ m n, n.Denotes room (.string (AccessMode.word m)) → readMode n = some m) :
    withContent? readMode a.word content = some a := by
  cases a with
  | id | version | transient | readOnly | immutable | persistenceCreator | domainEvents =>
    -- annotations differ in their content: none, a text, or a text that may be null
    cases related with
    | none => rfl
  | reference target =>
    cases related with
    | some denotes =>
      cases target with
      | none =>
        rw [denotes.eq_null]
        rfl
      | some target =>
        rw [denotes.eq_string]
        rfl
  | typeAlias s | query s | custom s =>
    cases related with
    | some denotes =>
      rw [denotes.eq_string]
      rfl
  | accessType m =>
    cases related with
    | some denotes => exact congrArg (Option.map accessType) (reads m _ denotes)

/-- An annotation is read as it was written. -/
theorem reads : Reads (fun _ => decode) encode := by
  intro a room n denotes
  obtain ⟨members, named, holds⟩ := denotes.members
  have word : required? members "annotation" (word? some) = some a.word := by
    refine holds.required rfl fun n denotes => ?_
    rw [denotes.eq_string]
    rfl
  obtain ⟨content, unique, related⟩ := holds "value"
  rw [get?_value] at related
  -- a word is read alike before and after the name of the annotation
  have read : withContent? ((if precedes members "value" "annotation" then heldWord? else word?)
      AccessMode.ofWord) a.word content = some a := by
    refine withContent?_eq_some related fun m n denotes => ?_
    split
    · exact reads_heldWord AccessMode.ofWord_word m _ n denotes
    · exact reads_word AccessMode.ofWord_word m _ n denotes
  simp [decode, named, word, unique, read]

/-- Annotations are read as they were written. -/
lemma reads_all : Reads (fun _ => list? decode) encodeAll :=
  reads.list

end Annotation

/-! ### Fields, accessors, constructors and methods -/

/-- The modifiers of a field are read as they were written. -/
theorem FieldModifiers.reads : Reads (fun _ => decode) encode := by
  intro f room n denotes
  obtain ⟨members, named, holds⟩ := denotes.members
  have isStatic : optional? members "is_static" false bool? = some f.isStatic :=
    holds.optional rfl (reads_bool _ _)
  have isFinal : optional? members "is_final" false bool? = some f.isFinal :=
    holds.optional rfl (reads_bool _ _)
  have isSynthetic : optional? members "is_synthetic" false bool? = some f.isSynthetic :=
    holds.optional rfl (reads_bool _ _)
  have isTransient : optional? members "is_transient" false bool? = some f.isTransient :=
    holds.optional rfl (reads_bool _ _)
  simp [decode, named, isStatic, isFinal, isSynthetic, isTransient]

/-- A field is read as it was written. -/
theorem FieldDecl.reads : Reads decode encode := by
  intro f room n denotes
  obtain ⟨members, named, holds⟩ := denotes.members
  have name : required? members "name" text? = some f.name := holds.required rfl (reads_text _ _)
  have type : required? members "type_info" (TypeRef.decode (room - 1)) = some f.type :=
    holds.required rfl (TypeRef.reads _ _)
  have modifiers : optional? members "modifiers" {} FieldModifiers.decode = some f.modifiers :=
    holds.optional rfl (FieldModifiers.reads _ _)
  have annotations :
      optional? members "annotations" [] (list? Annotation.decode) = some f.annotations :=
    holds.optional rfl <| Annotation.reads_all _ _
  simp [decode, named, name, type, modifiers, annotations]

/-- An accessor is read as it was written. -/
theorem AccessorDecl.reads : Reads decode encode := by
  intro a room n denotes
  obtain ⟨members, named, holds⟩ := denotes.members
  have name : required? members "name" text? = some a.name := holds.required rfl (reads_text _ _)
  have type : required? members "type_info" (TypeRef.decode (room - 1)) = some a.type :=
    holds.required rfl (TypeRef.reads _ _)
  have hasGetter : optional? members "has_getter" true bool? = some a.hasGetter :=
    holds.optional rfl (reads_bool _ _)
  have hasSetter : optional? members "has_setter" false bool? = some a.hasSetter :=
    holds.optional rfl (reads_bool _ _)
  have hasWither : optional? members "has_wither" false bool? = some a.hasWither :=
    holds.optional rfl (reads_bool _ _)
  have annotations :
      optional? members "annotations" [] (list? Annotation.decode) = some a.annotations :=
    holds.optional rfl <| Annotation.reads_all _ _
  simp [decode, named, name, type, hasGetter, hasSetter, hasWither, annotations]

/-- A parameter is read as it was written. -/
theorem ParameterDecl.reads : Reads decode encode := by
  intro p room n denotes
  obtain ⟨members, named, holds⟩ := denotes.members
  have name : required? members "name" text? = some p.name := holds.required rfl (reads_text _ _)
  have type : required? members "type_info" (TypeRef.decode (room - 1)) = some p.type :=
    holds.required rfl (TypeRef.reads _ _)
  simp [decode, named, name, type]

/-- A constructor is read as it was written. -/
theorem ConstructorDecl.reads : Reads decode encode := by
  intro c room n denotes
  obtain ⟨members, named, holds⟩ := denotes.members
  have parameters : optional? members "parameters" []
      (list? (ParameterDecl.decode (room - 2))) = some c.parameters :=
    holds.optional rfl (ParameterDecl.reads.list _ _)
  have annotations :
      optional? members "annotations" [] (list? Annotation.decode) = some c.annotations :=
    holds.optional rfl <| Annotation.reads_all _ _
  simp [decode, named, parameters, annotations]

/-- The modifiers of a method are read as they were written. -/
theorem MethodModifiers.reads : Reads (fun _ => decode) encode := by
  intro m room n denotes
  obtain ⟨members, named, holds⟩ := denotes.members
  have isDefault : optional? members "is_default" false bool? = some m.isDefault :=
    holds.optional rfl (reads_bool _ _)
  have isStatic : optional? members "is_static" false bool? = some m.isStatic :=
    holds.optional rfl (reads_bool _ _)
  have isBridge : optional? members "is_bridge" false bool? = some m.isBridge :=
    holds.optional rfl (reads_bool _ _)
  simp [decode, named, isDefault, isStatic, isBridge]

/-- A method is read as it was written. -/
theorem Method.reads : Reads decode encode := by
  intro m room n denotes
  obtain ⟨members, named, holds⟩ := denotes.members
  have declaringType : optional? members "declaring_type" "" text? = some m.declaringType :=
    holds.optional rfl (reads_text _ _)
  have name : required? members "name" text? = some m.name := holds.required rfl (reads_text _ _)
  have parameterTypes : optional? members "parameter_types" []
      (list? (TypeRef.decode (room - 2))) = some m.parameterTypes :=
    holds.optional rfl (TypeRef.reads_all _ _)
  have returnType : optional? members "return_type" none
      (nullable? (TypeRef.decode (room - 1))) = some m.returnType :=
    holds.optional rfl (TypeRef.reads_nullable _ _)
  have modifiers : optional? members "modifiers" {} MethodModifiers.decode = some m.modifiers :=
    holds.optional rfl (MethodModifiers.reads _ _)
  have annotations :
      optional? members "annotations" [] (list? Annotation.decode) = some m.annotations :=
    holds.optional rfl <| Annotation.reads_all _ _
  simp [decode, named, declaringType, name, parameterTypes, returnType, modifiers, annotations]

/-! ### Declarations -/

/-- A declaration is read back with everything in it. -/
theorem TypeDecl.reads : Reads decode encode := by
  intro d room n denotes
  obtain ⟨members, named, holds⟩ := denotes.members
  -- every member is written under a name of its own, and read by it whatever stands around it
  have name : required? members "name" text? = some d.name := holds.required rfl (reads_text _ _)
  have kind : optional? members "kind" .plain (word? DeclKind.ofWord) = some d.kind :=
    holds.optional rfl (reads_word DeclKind.ofWord_word _ _)
  have typeParameters :
      optional? members "type_parameters" [] (list? text?) = some d.typeParameters :=
    holds.optional rfl (reads_text.list _ _)
  have superclass : optional? members "superclass" none
      (nullable? (TypeRef.decode (room - 1))) = some d.superclass :=
    holds.optional rfl (TypeRef.reads_nullable _ _)
  have interfaces : optional? members "interfaces" []
      (list? (TypeRef.decode (room - 2))) = some d.interfaces :=
    holds.optional rfl (TypeRef.reads_all _ _)
  have fields : optional? members "fields" []
      (list? (FieldDecl.decode (room - 2))) = some d.fields :=
    holds.optional rfl (FieldDecl.reads.list _ _)
  have accessors : optional? members "accessors" []
      (list? (AccessorDecl.decode (room - 2))) = some d.accessors :=
    holds.optional rfl (AccessorDecl.reads.list _ _)
  have constructors : optional? members "constructors" []
      (list? (ConstructorDecl.decode (room - 2))) = some d.constructors :=
    holds.optional rfl (ConstructorDecl.reads.list _ _)
  have methods : optional? members "methods" []
      (list? (Method.decode (room - 2))) = some d.methods :=
    holds.optional rfl (Method.reads.list _ _)
  have annotations :
      optional? members "annotations" [] (list? Annotation.decode) = some d.annotations :=
    holds.optional rfl <| Annotation.reads_all _ _
  simp [decode, named, name, kind, typeParameters, superclass, interfaces, fields, accessors,
    constructors, methods, annotations]

/-- A list of declarations is read back. -/
theorem TypeDecl.reads_all : Reads decodeList fun ds => .array (ds.map encode) :=
  reads.list

end EntityModel
