import EntityModel.Dictionary
import EntityModel.Number.Shortest

/-!
# JSON documents

A document is a tree of scalars, arrays and objects. Numbers are whole numbers in the range that a
64-bit word holds, signed or unsigned, or double-precision numbers; the members of an object are a
dictionary.
-/

namespace EntityModel

inductive JsonNumber where
  | integer (n : Int)
  | float (x : Binary64)
  deriving DecidableEq, Repr

inductive Json where
  | null
  | bool (b : Bool)
  | number (n : JsonNumber)
  | string (s : String)
  | array (items : List Json)
  | object (members : List (String × Json))
  deriving Repr, Inhabited

namespace Json

def ofMembers (members : List (String × Json)) : Json := .object (Dictionary.ofEntries members)

def ofList {α : Type} (encode : α → Json) (as : List α) : Json := .array (as.map encode)

def ofOption {α : Type} (encode : α → Json) : Option α → Json
  | some a => encode a
  | none => .null

def ofNat (n : Nat) : Json := .number (.integer n)

def ofStrings (texts : List String) : Json := .array (texts.map .string)

/-- A text, or null where there is none. -/
def ofString? : Option String → Json
  | some s => .string s
  | none => .null

end Json

end EntityModel
