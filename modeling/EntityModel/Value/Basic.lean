import EntityModel.Dictionary
import EntityModel.Number.Shortest

/-!
# Values

Values are the data that beans hold: scalars, lists, sets, maps and beans themselves. A set is a
list in the order of insertion; `Value.setOf` keeps it free of duplicates. Maps and the fields of
beans are dictionaries.
-/

namespace EntityModel

inductive Value where
  | null
  | integer (i : Int64)
  | float (x : Binary64)
  | text (s : String)
  | boolean (b : Bool)
  | list (items : List Value)
  | set (items : List Value)
  | map (entries : List (String × Value))
  /-- A bean: an instance of the named type with its fields. -/
  | object (type : String) (fields : List (String × Value))
  deriving Repr, Inhabited

/-- An instance of a type: the name of its type and the values of its fields. -/
structure Bean where
  type : String
  fields : Dictionary Value := []
  deriving Repr, Inhabited

namespace Bean

/-- The value of a field; a field that is absent reads as null. -/
def get (b : Bean) (name : String) : Value :=
  (Dictionary.get? b.fields name).getD .null

def set (b : Bean) (name : String) (v : Value) : Bean :=
  { b with fields := b.fields.insert name v }

def contains (b : Bean) (name : String) : Bool :=
  (Dictionary.get? b.fields name).isSome

def toValue (b : Bean) : Value :=
  .object b.type b.fields

/-- A field that was set holds its value. -/
@[simp]
theorem get_set_self (b : Bean) (name : String) (v : Value) : (b.set name v).get name = v := by
  simp [get, set]

/-- Setting a field leaves the other fields as they are. -/
theorem get_set_of_ne (b : Bean) {name other : String} (v : Value) (h : other ≠ name) :
    (b.set name v).get other = b.get other := by
  simp [get, set, Dictionary.get?_insert_of_ne _ _ h]

/-- Of two values set for one field the last one stays. -/
@[simp]
theorem set_set (b : Bean) (name : String) (v w : Value) :
    (b.set name v).set name w = b.set name w := by
  simp [set]

/-- Setting a field does not change the type of a bean. -/
@[simp]
theorem type_set (b : Bean) (name : String) (v : Value) : (b.set name v).type = b.type := rfl

end Bean

namespace Value

/-- The name of a value's type: the type of a bean, a fixed word for all others. -/
def typeName : Value → String
  | null => "NULL"
  | integer _ => "INTEGER"
  | float _ => "FLOAT"
  | text _ => "TEXT"
  | boolean _ => "BOOLEAN"
  | list _ => "LIST"
  | set _ => "SET"
  | map _ => "MAP"
  | object type _ => type

def bean? : Value → Option Bean
  | object type fields => some ⟨type, fields⟩
  | _ => none

/-- The elements of a list or set. -/
def elements? : Value → Option (List Value)
  | list items | set items => some items
  | _ => none

def isNull : Value → Bool
  | null => true
  | _ => false

def isNumeric : Value → Bool
  | integer _ | float _ => true
  | _ => false

def bool? : Value → Option Bool
  | boolean b => some b
  | _ => none

def text? : Value → Option String
  | text s => some s
  | _ => none

def minWord : Int := Int64.minValue.toInt

def maxWord : Int := Int64.maxValue.toInt

/-- A number as a whole number. A float is cut off toward zero if its absolute value is at most
`2 ^ 63`, which itself counts as the largest word. -/
def int? : Value → Option Int64
  | integer i => some i
  | float x =>
    if x.isFinite then
      let (num, den) := x.toRatio
      if Nat.pow 2 63 * den < num then none else some (Int64.ofInt (min x.truncate maxWord))
    else none
  | _ => none

/-- A number as the nearest double-precision number. -/
def float? : Value → Option Binary64
  | float x => some x
  | integer i => some (Binary64.ofInt i.toInt)
  | _ => none

/-- A bean is read back from the value that it is. -/
@[simp]
theorem bean?_toValue (b : Bean) : b.toValue.bean? = some b := rfl

end Value

end EntityModel
