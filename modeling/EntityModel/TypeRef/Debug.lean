import EntityModel.Text.Quoted
import EntityModel.TypeRef

/-!
# Diagnostic texts of types

The diagnostic text of a type shows how it is built, with the name of every part.
-/

namespace EntityModel

/-- The word for a kind of collection in diagnostic texts. -/
def CollectionKind.debugText : CollectionKind → String
  | .list => "List"
  | .set => "Set"

namespace TypeRef

mutual

def debugText : TypeRef → String
  | .named n as =>
    Text.record "Named" [("name", Text.quoted n), ("arguments", Text.bracketed (debugTexts as))]
  | .collection k t =>
    Text.record "Collection" [("collection", k.debugText), ("element", debugText t)]
  | .array t => Text.record "Array" [("component", debugText t)]
  | .map k v => Text.record "Map" [("key", debugText k), ("value", debugText v)]
  | .optional t => Text.record "Optional" [("inner", debugText t)]
  | .variable n => Text.record "Variable" [("name", Text.quoted n)]

def debugTexts : List TypeRef → List String
  | [] => []
  | t :: ts => debugText t :: debugTexts ts

end

end TypeRef

end EntityModel
