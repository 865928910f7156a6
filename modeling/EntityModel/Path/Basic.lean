import EntityModel.Catalog.Hierarchy

/-!
# Property paths

A property path leads from a type through the properties of nested types. It is a list of segments
that is never empty; the nodes of a path are its nonempty ends, which are paths themselves.
-/

namespace EntityModel

/-- A property on a path: the type it is declared for, its name and its declared type. -/
structure Segment where
  owner : TypeRef
  name : String
  type : TypeRef
  deriving DecidableEq, Repr

namespace Segment

/-- The type that the next segment belongs to. -/
def actual (s : Segment) : TypeRef :=
  s.type.actual

def isCollection (s : Segment) : Bool :=
  s.type.isCollectionLike

end Segment

/-- A chain of properties, one at least. -/
structure PropertyPath where
  head : Segment
  tail : List Segment
  deriving DecidableEq, Repr

namespace PropertyPath

/-- The segments from this node to the leaf. -/
def segments (p : PropertyPath) : List Segment :=
  p.head :: p.tail

/-- The path of a list of segments, if there are any. -/
def ofSegments? : List Segment → Option PropertyPath
  | [] => none
  | s :: ss => some ⟨s, ss⟩

/-- The number of segments from this node to the leaf. -/
def length (p : PropertyPath) : Nat :=
  p.segments.length

def next? (p : PropertyPath) : Option PropertyPath :=
  ofSegments? p.tail

def leafSegment (p : PropertyPath) : Segment :=
  p.tail.getLastD p.head

def leaf (p : PropertyPath) : PropertyPath :=
  ⟨p.leafSegment, []⟩

def leafType (p : PropertyPath) : TypeRef :=
  p.leafSegment.actual

/-- All nodes from this one to the leaf. -/
def nodes (p : PropertyPath) : List PropertyPath :=
  p :: go p.tail
where
  /-- The nodes of the segments after the first one. -/
  go : List Segment → List PropertyPath
    | [] => []
    | s :: ss => ⟨s, ss⟩ :: go ss

def dotPath (p : PropertyPath) : String :=
  ".".intercalate (p.segments.map (·.name))

/-- The raw name of the owning type before the dot path. -/
def text (p : PropertyPath) : String :=
  p.head.owner.name ++ "." ++ p.dotPath

/-- The source that continues this path by a further one. -/
def nestedSource (p : PropertyPath) (source : String) : String :=
  p.dotPath ++ "." ++ source

end PropertyPath

end EntityModel
