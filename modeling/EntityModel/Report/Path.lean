import EntityModel.Path.Basic
import EntityModel.Report.TypeRef

/-!
# Reports of property paths

The report of a path shows every node from its first segment to its leaf.
-/

namespace EntityModel.PropertyPath

def nodeReport (p : PropertyPath) : Json :=
  .ofMembers [
    ("segment", .string p.head.name),
    ("owner", p.head.owner.shown),
    ("type", p.head.type.shown),
    ("actual", p.head.actual.shown),
    ("collection", .bool p.head.isCollection),
    ("has_next", .bool p.next?.isSome),
    ("dot", .string p.dotPath)]

def briefMembers (p : PropertyPath) : List (String × Json) := [
  ("display", .string p.text),
  ("len", .ofNat p.length),
  ("leaf_type", p.leafType.encode)]

/-- What is reported of a path in full. A path always has a segment. -/
def reportMembers (p : PropertyPath) : List (String × Json) :=
  p.briefMembers ++ [
    ("segments", .ofList nodeReport p.nodes),
    ("leaf", .array [.string p.leaf.head.name, .ofNat p.leaf.length, .string p.leaf.dotPath]),
    ("empty", .bool false)]

end EntityModel.PropertyPath
