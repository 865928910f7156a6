import EntityModel.Declaration.Decode
import EntityModel.Text.Quoted

/-!
# Catalogs

A catalog holds the declarations of the types that are known. It grows by registration only, and a
registration yields a new catalog. Registration (`Catalog.add`, `Catalog.addAll`, `Catalog.ofText`)
refuses a name that is taken, so the names in a catalog that is made by it are distinct. The
structure itself takes any list; of several declarations of one name the first one counts.
-/

namespace EntityModel

/-- The declared types in the order of their registration. -/
structure Catalog where
  declarations : List TypeDecl := []
  deriving DecidableEq, Repr, Inhabited

namespace Catalog

def find? (c : Catalog) (name : String) : Option TypeDecl :=
  c.declarations.find? fun d => d.name == name

def contains (c : Catalog) (name : String) : Bool :=
  (c.find? name).isSome

/-- The declaration that a type refers to by its raw name. -/
def required (c : Catalog) (t : TypeRef) : Except Error TypeDecl :=
  match c.find? t.name with
  | some d => .ok d
  | none => .error (.unregistered t.text)

/-- The catalog with one more declaration, whose name must be new. -/
def add (c : Catalog) (d : TypeDecl) : Except Error Catalog :=
  if c.contains d.name then .error (.alreadyRegistered d.name)
  else .ok ⟨c.declarations ++ [d]⟩

/-- The catalog with further declarations, added one after the other. -/
def addAll (c : Catalog) (ds : List TypeDecl) : Except Error Catalog :=
  ds.foldlM add c

/-- The catalog of a JSON text that lists declarations. -/
def ofText (text : String) : Except Error Catalog :=
  match TypeDecl.listOfText? text with
  | some ds => ({} : Catalog).addAll ds
  | none => .error .unreadable

def sortedNames (c : Catalog) : List String :=
  (c.declarations.map (·.name)).mergeSort fun a b => decide (a ≤ b)

/-- The diagnostic text of a catalog: its sorted names. -/
def debugText (c : Catalog) : String :=
  Text.record "TypeRegistry" [("types", Text.bracketed (c.sortedNames.map Text.quoted))]

/-- A declaration that was found has the name that was looked for. -/
theorem name_of_find? {c : Catalog} {name : String} {d : TypeDecl} (h : c.find? name = some d) :
    d.name = name := by
  simpa using List.find?_some h

/-- A declaration that was found is one of the catalog. -/
theorem mem_of_find? {c : Catalog} {name : String} {d : TypeDecl} (h : c.find? name = some d) :
    d ∈ c.declarations :=
  List.mem_of_find?_eq_some h

end Catalog

end EntityModel
