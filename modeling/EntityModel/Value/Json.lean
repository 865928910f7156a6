import EntityModel.Value.Basic
import EntityModel.Json.Printer

/-!
# Values as JSON

A bean is an object that names its type under `_class`; every other object is a map. Sets are
written as arrays, and floats without a text as null, so that not every value reads back as
itself.
-/

namespace EntityModel.Value

/-- The name under which the type of a bean is written. -/
def typeKey : String := "_class"

/-- Members with the type of a bean among them. A field of that name replaces it. -/
def withType (type : String) (members : Dictionary Json) : Dictionary Json :=
  match Dictionary.get? members typeKey with
  | some _ => members
  | none => members.insert typeKey (.string type)

mutual

def toJson : Value → Json
  | null => .null
  | integer i => .number (.integer i.toInt)
  | float x => if x.isFinite then .number (.float x) else .null
  | text s => .string s
  | boolean b => .bool b
  -- nothing in a document tells a set from a list
  | list xs | set xs => .array (toJsonEach xs)
  | map es => .object (toJsonEntries es)
  | object t es => .object (withType t (toJsonEntries es))

def toJsonEach : List Value → List Json
  | [] => []
  | x :: xs => toJson x :: toJsonEach xs

def toJsonEntries : List (String × Value) → List (String × Json)
  | [] => []
  | (k, x) :: es => (k, toJson x) :: toJsonEntries es

end

/-- A whole number of a document: an integer where a signed 64-bit word holds it, else the nearest
float. -/
def ofWhole (n : Int) : Value :=
  if minWord ≤ n ∧ n ≤ maxWord then .integer (Int64.ofInt n) else .float (Binary64.ofInt n)

/-- The value of an object with the given members: a bean if its type is named, else a map without
the member that would name it. -/
def ofMembers (type? : Option Json) (entries : Dictionary Value) : Value :=
  match type? with
  | some (.string t) => .object t (entries.erase typeKey)
  | _ => .map (entries.erase typeKey)

mutual

def ofJson : Json → Value
  | .null => null
  | .bool b => boolean b
  | .number (.integer n) => ofWhole n
  | .number (.float x) => float x
  | .string s => text s
  | .array items => list (ofJsonEach items)
  | .object members => ofMembers (Dictionary.get? members typeKey) (ofJsonMembers members)

def ofJsonEach : List Json → List Value
  | [] => []
  | j :: js => ofJson j :: ofJsonEach js

def ofJsonMembers : List (String × Json) → List (String × Value)
  | [] => []
  | (k, j) :: ms => (k, ofJson j) :: ofJsonMembers ms

end

/-- Floats are written without an exponent; an exact tie of two shortest decimals goes up. -/
def numberStyle : NumberStyle where
  tie := .up
  isPositional := fun _ => true
  wholeSuffix := []

/-- The text of a value. Lists, sets, maps and beans are written as compact JSON. -/
def display : Value → String
  | null => "NULL"
  | integer i => toString i.toInt
  | float x =>
    if x.isNaN then "NaN"
    else if x.isInfinite then if x.isNegative then "-Infinity" else "Infinity"
    else numberStyle.write x
  | text s => s
  | boolean b => if b then "true" else "false"
  | v => (toJson v).compact

end EntityModel.Value
