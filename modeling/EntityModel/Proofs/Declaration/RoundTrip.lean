import EntityModel.Proofs.Catalog.PropertyTypes
import EntityModel.Proofs.Declaration.Readers
import EntityModel.Proofs.Json.Text

/-!
# Catalogs of written declarations

What declarations are written as has no numbers in it and is in the order of its names, so its
compact text can be read wherever there is room. Every text of a declaration is read to that
declaration. A text of several declarations makes a catalog just if their names are distinct, and
the catalog then holds these declarations and no others (`TypeDecl.declarations_roundTrip`).
-/

namespace EntityModel

open Json JsonNode

/-! ### Declarations are plain documents -/

/-- An object is plain if its names come in order and its values are plain. -/
lemma isPlain_object {ms : Dictionary Json} (names : List String) (named : ms.names = names)
    (ordered : names.Pairwise (· < ·)) (inside : ∀ m ∈ ms, m.2.IsPlain) :
    (Json.object ms).IsPlain := by
  rw [← named] at ordered
  exact .object (List.pairwise_map.mp ordered) inside

namespace TypeRef

mutual

/-- The JSON form of a type is plain: it has no numbers, and its members are in order. -/
theorem isPlain_encode : ∀ t : TypeRef, t.encode.IsPlain
  | .named _ [] => isPlain_object ["kind", "name"] rfl (by decide) (by simp)
  | .named _ (a :: as) => by
    have arguments : (Json.array (encode a :: encodeAll as)).IsPlain :=
      .array (List.forall_mem_cons.mpr ⟨isPlain_encode a, isPlain_encodeAll as⟩)
    exact isPlain_object ["arguments", "kind", "name"] rfl (by decide) (by simp [arguments])
  | .collection _ t =>
    isPlain_object ["collection", "element", "kind"] rfl (by decide) (by simp [isPlain_encode t])
  | .array t =>
    isPlain_object ["component", "kind"] rfl (by decide) (by simp [isPlain_encode t])
  | .map k v =>
    isPlain_object ["key", "kind", "value"] rfl (by decide)
      (by simp [isPlain_encode k, isPlain_encode v])
  | .optional t =>
    isPlain_object ["inner", "kind"] rfl (by decide) (by simp [isPlain_encode t])
  | .variable _ => isPlain_object ["kind", "name"] rfl (by decide) (by simp)

/-- The JSON forms of types are plain. -/
theorem isPlain_encodeAll : ∀ ts : List TypeRef, ∀ j ∈ encodeAll ts, j.IsPlain
  | [] => nofun
  | t :: ts => List.forall_mem_cons.mpr ⟨isPlain_encode t, isPlain_encodeAll ts⟩

end

/-- The JSON form of a type that may be missing is plain. -/
lemma isPlain_encode? : ∀ o : Option TypeRef, (encode? o).IsPlain
  | none => .null
  | some t => t.isPlain_encode

end TypeRef

namespace Annotation

/-- The content of an annotation is plain. -/
lemma isPlain_of_content? {a : Annotation} {j : Json} (h : a.content? = some j) : j.IsPlain := by
  cases a with
  | reference target =>
    cases h
    cases target with
    | none => exact .null
    | some target => exact .string target
  | typeAlias | accessType | query | custom =>
    cases h
    exact .string _
  | _ => cases h

/-- The JSON form of an annotation is plain, since its content is. -/
lemma isPlain_encode (a : Annotation) : a.encode.IsPlain := by
  rw [encode]
  cases content : a.content? with
  | none => exact isPlain_object ["annotation"] rfl (by decide) (by simp)
  | some j =>
    have plain := isPlain_of_content? content
    exact isPlain_object ["annotation", "value"] rfl (by decide) (by simp [plain])

/-- The JSON forms of annotations are plain. -/
@[simp]
lemma isPlain_encodeAll (as : List Annotation) : (encodeAll as).IsPlain :=
  isPlain_list isPlain_encode as

end Annotation

/-- The JSON form of modifiers of a field is an object of truth values. -/
lemma FieldModifiers.isPlain_encode (m : FieldModifiers) : m.encode.IsPlain :=
  isPlain_object ["is_final", "is_static", "is_synthetic", "is_transient"] rfl (by decide) (by simp)

/-- The JSON form of a field is plain, since its parts are. -/
lemma FieldDecl.isPlain_encode (f : FieldDecl) : f.encode.IsPlain :=
  isPlain_object ["annotations", "modifiers", "name", "type_info"] rfl (by decide)
    (by simp [f.modifiers.isPlain_encode, f.type.isPlain_encode])

/-- The JSON form of an accessor is plain, since its parts are. -/
lemma AccessorDecl.isPlain_encode (a : AccessorDecl) : a.encode.IsPlain :=
  isPlain_object ["annotations", "has_getter", "has_setter", "has_wither", "name", "type_info"] rfl
    (by decide) (by simp [a.type.isPlain_encode])

/-- The JSON form of a parameter is plain, since its type is. -/
lemma ParameterDecl.isPlain_encode (p : ParameterDecl) : p.encode.IsPlain :=
  isPlain_object ["name", "type_info"] rfl (by decide) (by simp [p.type.isPlain_encode])

/-- The JSON form of a constructor is plain, since its parts are. -/
lemma ConstructorDecl.isPlain_encode (c : ConstructorDecl) : c.encode.IsPlain := by
  have parameters := isPlain_list ParameterDecl.isPlain_encode c.parameters
  exact isPlain_object ["annotations", "parameters"] rfl (by decide) (by simp [parameters])

/-- The JSON form of modifiers of a method is an object of truth values. -/
lemma MethodModifiers.isPlain_encode (m : MethodModifiers) : m.encode.IsPlain :=
  isPlain_object ["is_bridge", "is_default", "is_static"] rfl (by decide) (by simp)

/-- The JSON form of a method is plain, since its parts are. -/
lemma Method.isPlain_encode (m : Method) : m.encode.IsPlain := by
  have parameterTypes := IsPlain.array (TypeRef.isPlain_encodeAll m.parameterTypes)
  have returnType := TypeRef.isPlain_encode? m.returnType
  exact isPlain_object
    ["annotations", "declaring_type", "modifiers", "name", "parameter_types", "return_type"] rfl
    (by decide) (by simp [m.modifiers.isPlain_encode, parameterTypes, returnType])

namespace TypeDecl

/-- The JSON form of a declaration is plain, since its parts are. -/
lemma isPlain_encode (d : TypeDecl) : d.encode.IsPlain := by
  have interfaces := IsPlain.array (TypeRef.isPlain_encodeAll d.interfaces)
  have fields := isPlain_list FieldDecl.isPlain_encode d.fields
  have accessors := isPlain_list AccessorDecl.isPlain_encode d.accessors
  have constructors := isPlain_list ConstructorDecl.isPlain_encode d.constructors
  have methods := isPlain_list Method.isPlain_encode d.methods
  have typeParameters := isPlain_list IsPlain.string d.typeParameters
  have superclass := TypeRef.isPlain_encode? d.superclass
  exact isPlain_object ["accessors", "annotations", "constructors", "fields", "interfaces", "kind",
    "methods", "name", "superclass", "type_parameters"] rfl (by decide)
    (by simp [interfaces, fields, accessors, constructors, methods, ofStrings, typeParameters,
      superclass])

/-- The document of a list of declarations. -/
def encodeList (ds : List TypeDecl) : Json :=
  .array (ds.map encode)

/-- The JSON form of declarations is plain, since each of them is. -/
lemma isPlain_encodeList (ds : List TypeDecl) : (encodeList ds).IsPlain :=
  isPlain_list isPlain_encode ds

end TypeDecl

/-! ### Catalogs of lists -/

namespace Catalog

variable {c c' : Catalog} {d : TypeDecl} {ds : List TypeDecl} {name : String}

/-- The names that are declared, in the order of registration. -/
def names (c : Catalog) : List String :=
  c.declarations.map (·.name)

/-- A catalog contains the names of its declarations. -/
lemma contains_iff : c.contains name = true ↔ name ∈ c.names := by
  simp [contains, find?, names, List.find?_isSome]

/-- Declarations are added one by one, as long as their names are new. -/
lemma addAll_cons (c : Catalog) (d : TypeDecl) (ds : List TypeDecl) :
    c.addAll (d :: ds) = if d.name ∈ c.names then .error (.alreadyRegistered d.name)
      else addAll ⟨c.declarations ++ [d]⟩ ds := by
  rw [addAll, List.foldlM_cons, add]
  simp only [contains_iff]
  split <;> rfl

/-- Names stay distinct if the further ones are distinct and new. -/
lemma nodup_names_append {ds : List TypeDecl} : (names ⟨c.declarations ++ ds⟩).Nodup ↔
    c.names.Nodup ∧ (ds.map (·.name)).Nodup ∧ ∀ d ∈ ds, d.name ∉ c.names := by
  rw [names, List.map_append, List.nodup_append', List.disjoint_comm, ← names]
  refine and_congr_right fun _ => and_congr_right fun _ => ?_
  exact List.forall_mem_map (P := fun name => name ∉ c.names)

/-- Declarations are added if their names are new and distinct, and all of them are kept. -/
theorem addAll_eq_ok_iff (distinct : c.names.Nodup) :
    c.addAll ds = .ok c' ↔ (names ⟨c.declarations ++ ds⟩).Nodup ∧ c' = ⟨c.declarations ++ ds⟩ := by
  induction ds generalizing c with
  | nil =>
    have kept : (⟨c.declarations ++ []⟩ : Catalog) = c := by rw [List.append_nil]
    rw [kept, addAll, List.foldlM_nil]
    simp [pure, Except.pure, distinct, eq_comm]
  | cons d ds ih =>
    have next : c.declarations ++ d :: ds = c.declarations ++ [d] ++ ds := by simp
    rw [addAll_cons, next]
    split
    case isTrue known =>
      refine ⟨nofun, fun ⟨distinct, _⟩ => ?_⟩
      rw [← next, nodup_names_append] at distinct
      exact absurd known (distinct.2.2 d List.mem_cons_self)
    case isFalse new =>
      apply ih
      rw [nodup_names_append]
      exact ⟨distinct, List.nodup_singleton _, List.forall_mem_singleton.mpr new⟩

/-- Where names are distinct every declaration is found under its name. -/
lemma find?_eq_some_iff (distinct : c.names.Nodup) :
    c.find? name = some d ↔ d ∈ c.declarations ∧ d.name = name := by
  constructor
  · exact fun found => ⟨mem_of_find? found, name_of_find? found⟩
  · rintro ⟨held, rfl⟩
    exact find?_of_pairwise (List.pairwise_map.mp distinct) held

end Catalog

/-! ### Texts of declarations -/

namespace TypeDecl

open Catalog

/-- A declaration is read back from every tree that denotes what it is written as, and its compact
text is read to such a tree wherever there is room. A text of several declarations makes a catalog
just if no two of them share a name, and the catalog then finds these declarations by their names
and no others; their compact text is such a text unless it is nested too deeply. -/
theorem declarations_roundTrip :
    (∀ (d : TypeDecl) (room : Nat), d.encode.depth ≤ room →
      Spells room d.encode.compact d.encode) ∧
    (∀ (d : TypeDecl) (room : Nat) (n : JsonNode), n.Denotes room d.encode →
      decode room n = some d) ∧
    (∀ ds : List TypeDecl, (encodeList ds).depth ≤ nestingLimit →
      Spells nestingLimit (encodeList ds).compact (encodeList ds)) ∧
    ∀ (ds : List TypeDecl) (text : String), Spells nestingLimit text (encodeList ds) →
      ((∃ c, Catalog.ofText text = .ok c) ↔ (ds.map (·.name)).Nodup) ∧
      ∀ c, Catalog.ofText text = .ok c → c.declarations = ds ∧
        ∀ name d, c.find? name = some d ↔ d ∈ ds ∧ d.name = name := by
  refine ⟨fun d room => spells_compact d.isPlain_encode, TypeDecl.reads,
    fun ds => spells_compact (isPlain_encodeList ds), fun ds text ⟨n, spelled, denotes⟩ => ?_⟩
  -- a catalog is made of the declarations as they were read, unless two have one name
  have made (c : Catalog) :
      Catalog.ofText text = .ok c ↔ (ds.map (·.name)).Nodup ∧ c = ⟨ds⟩ := by
    have read : listOfText? text = some ds := by
      rw [listOfText?, spelled, Option.bind_some]
      exact reads_all ds nestingLimit n denotes
    rw [Catalog.ofText, read]
    exact addAll_eq_ok_iff List.nodup_nil
  refine ⟨⟨fun ⟨c, ok⟩ => ((made c).mp ok).1, fun distinct => ⟨⟨ds⟩, (made _).mpr ⟨distinct, rfl⟩⟩⟩,
    fun c ok => ?_⟩
  obtain ⟨distinct, rfl⟩ := (made c).mp ok
  exact ⟨rfl, fun name d => find?_eq_some_iff distinct⟩

namespace Sample

def author : TypeDecl where
  name := "Author"
  kind := .interface
  methods := [{
    name := "books"
    parameterTypes := [.array (.of "int")]
    returnType := some (.collection .set (.of "Book"))
    modifiers := { isDefault := true }
    annotations := [.query "from Book"] }]

def book : TypeDecl where
  name := "Book"
  typeParameters := ["T"]
  superclass := some (.named "Document" [.variable "T"])
  interfaces := [.of "Printable"]
  fields := [
    { name := "author", type := .optional (.of "Author"), annotations := [.reference none] },
    { name := "notes", type := .map (.of "int") (.of "String"), modifiers := { isFinal := true } }]
  accessors := [{ name := "title", type := .of "String", hasGetter := false, hasSetter := true }]
  constructors := [{
    parameters := [{ name := "author", type := .of "Author" }]
    annotations := [.persistenceCreator] }]
  annotations := [.accessType .property, .custom "Shelved"]

def note : TypeDecl where
  name := "Note"
  kind := .record
  typeParameters := ["T"]

/-- A note with its name first. -/
def noteTree : JsonNode :=
  .object [
    (some "name", .string (some "Note")),
    (some "kind", .string (some "record")),
    (some "type_parameters", .array [.string (some "T")]),
    (some "superclass", .null),
    (some "interfaces", .array []),
    (some "fields", .array []),
    (some "accessors", .array []),
    (some "constructors", .array []),
    (some "methods", .array []),
    (some "annotations", .array [])]

/-- The written note, with its members in another order, denotes its JSON form. -/
lemma noteTree_denotes : noteTree.Denotes 2 note.encode where
  unrepeated := by
    refine .object (by decide) ?_
    simp [Unrepeated.null, Unrepeated.string, Unrepeated.array]
  denoted := rfl

/-- A book is nested six levels deep at most. -/
lemma book_fits : book.encode.depth ≤ 6 := by decide

/-- Two declarations fit into the nesting that is read. -/
lemma books_fit : (encodeList [author, book]).depth ≤ nestingLimit := by decide

/-- A declaration fits twice, though it cannot be added twice. -/
lemma copies_fit : (encodeList [book, book]).depth ≤ nestingLimit := by decide

end Sample

/-- A declaration is read back, also from members in another order; two declarations make a catalog
that holds both, and one that is listed twice makes none. -/
theorem declarations_roundTrip_books :
    (JsonNode.ofText? Sample.book.encode.compact).bind (decode 6) = some Sample.book ∧
    decode 2 Sample.noteTree = some Sample.note ∧
    (∃ c, Catalog.ofText (encodeList [Sample.author, Sample.book]).compact = .ok c ∧
      c.find? "Author" = some Sample.author ∧ c.find? "Book" = some Sample.book) ∧
    ¬∃ c, Catalog.ofText (encodeList [Sample.book, Sample.book]).compact = .ok c := by
  obtain ⟨spelled, read, listed, made⟩ := declarations_roundTrip
  refine ⟨?_, read Sample.note 2 Sample.noteTree Sample.noteTree_denotes, ?_, ?_⟩
  · obtain ⟨n, text_eq, denotes⟩ := spelled Sample.book 6 Sample.book_fits
    rw [text_eq, Option.bind_some]
    exact read Sample.book 6 n denotes
  · obtain ⟨ok, held⟩ := made _ _ (listed [Sample.author, Sample.book] Sample.books_fit)
    obtain ⟨c, ok⟩ := ok.mpr (by decide)
    obtain ⟨-, found⟩ := held c ok
    have author := (found "Author" Sample.author).mpr (by simp [Sample.author])
    have book := (found "Book" Sample.book).mpr (by simp [Sample.book])
    exact ⟨c, ok, author, book⟩
  · rw [(made _ _ (listed [Sample.book, Sample.book] Sample.copies_fit)).1]
    decide

end TypeDecl

end EntityModel
