import EntityModel.Json.Node
import EntityModel.Value.Equality
import EntityModel.Value.Json

/-!
# Tagged values

The tagged form of a value is a document from which the value can be told exactly. Scalars and lists
stand for themselves; a float is given by its bits, and sets, maps and beans are objects that name
their form. Reading also knows a form for sets that keeps equal elements.
-/

namespace EntityModel.Value

/-- The bits of a float as sixteen hexadecimal digits; all NaNs are written alike. -/
def floatTag (x : Binary64) : String :=
  if x.isNaN then "NaN"
  else
    let digits := Nat.toDigits 16 x.bits.toNat
    String.ofList (List.replicate (16 - digits.length) '0' ++ digits)

/-- The float of a tag. -/
def ofFloatTag? (tag : String) : Option Binary64 :=
  if tag = "NaN" then some .nan
  else
    (tag.toList.foldlM (fun n c => (JsonToken.hexValue? c).map (16 * n + ·)) 0).map fun bits =>
      ⟨bits.toUInt64⟩

mutual

def tagged : Value → Json
  | null => .null
  | integer i => .number (.integer i.toInt)
  | float x => .object [("f", .string (floatTag x))]
  | text s => .string s
  | boolean b => .bool b
  | list xs => .array (taggedEach xs)
  | set xs => .object [("set", .array (taggedEach xs))]
  | map es => .object [("map", .object (taggedEntries es))]
  | object t es => .object [("bean", .string t), ("fields", .object (taggedEntries es))]

def taggedEach : List Value → List Json
  | [] => []
  | x :: xs => tagged x :: taggedEach xs

/-- The tagged forms of the entries of a dictionary. -/
def taggedEntries : List (String × Value) → List (String × Json)
  | [] => []
  | (k, x) :: es => (k, tagged x) :: taggedEntries es

end

/-- The type that the members of a bean name. -/
def beanType? (members : List (Option String × JsonNode)) : Option String :=
  match members.find? fun m => m.1 == some "bean" with
  | some (_, .string content) => content
  | _ => none

mutual

def ofTagged? : JsonNode → Option Value
  | .null => some null
  | .bool b => some (boolean b)
  | .string content => content.map text
  | .numeral n => n.value?.map fun k => ofJson (.number k)
  | .array items => (ofTaggedEach? items).map list
  | .object [(some "f", .string content)] => (content.bind ofFloatTag?).map float
  | .object [(some "set", .array items)] => (ofTaggedEach? items).map setOf
  | .object [(some "rawset", .array items)] => (ofTaggedEach? items).map set
  | .object [(some "map", .object members)] =>
    (ofTaggedMembers? members).map fun es => map (Dictionary.ofEntries es)
  | .object members => do
    let type ← beanType? members
    return object type (Dictionary.ofEntries (← taggedFields? members))

def ofTaggedEach? : List JsonNode → Option (List Value)
  | [] => some []
  | n :: ns => do
    let x ← ofTagged? n
    return x :: (← ofTaggedEach? ns)

def ofTaggedMembers? : List (Option String × JsonNode) → Option (List (String × Value))
  | [] => some []
  | (name, n) :: ms => do
    let k ← name
    let x ← ofTagged? n
    return (k, x) :: (← ofTaggedMembers? ms)

/-- The fields among the members of a bean, which may be missing. -/
def taggedFields? : List (Option String × JsonNode) → Option (List (String × Value))
  | [] => some []
  | (some "fields", .object members) :: _ => ofTaggedMembers? members
  | _ :: ms => taggedFields? ms

end

end EntityModel.Value
