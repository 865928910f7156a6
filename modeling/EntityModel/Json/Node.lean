import EntityModel.Dictionary
import EntityModel.Json.Token

/-!
# JSON trees as written

A tree as written keeps what a document drops: every member of an object in its order, repeated
names included, and scalars that denote nothing, such as a numeral out of range. A reader that
ignores a part of a text can then ignore the faults in it. Trees are read from tokens by a machine
that keeps a stack of the containers that are still open.
-/

namespace EntityModel

/-- A JSON tree as written. -/
inductive JsonNode where
  | null
  | bool (b : Bool)
  | numeral (n : Numeral)
  | string (content : Option String)
  | array (items : List JsonNode)
  | object (members : List (Option String × JsonNode))
  deriving Repr, Inhabited

namespace JsonNode

/-- A container that is still open, with what it holds so far, the last first. -/
inductive Frame where
  | array (items : List JsonNode)
  | object (members : List (Option String × JsonNode)) (name : Option String)

/-- What the next token has to be. -/
inductive Expect where
  /-- The start of a value. -/
  | value
  /-- The start of a value or the end of an empty array. -/
  | item
  /-- A name or the end of an empty object. -/
  | member
  /-- The name of a further member. -/
  | name
  /-- The colon after a name. -/
  | colon
  /-- A comma or the end of the container. -/
  | separator
  /-- Nothing more: the text is complete. -/
  | nothing (result : JsonNode)

/-- The state of reading: what comes next and the open containers, the innermost first. -/
structure Machine where
  expect : Expect
  stack : List Frame

namespace Machine

/-- Hands a complete value to the innermost open container. -/
def deliver (n : JsonNode) : List Frame → Machine
  | [] => ⟨.nothing n, []⟩
  | .array items :: stack => ⟨.separator, .array (n :: items) :: stack⟩
  | .object members name :: stack => ⟨.separator, .object ((name, n) :: members) none :: stack⟩

/-- Reads a token where a value starts. -/
def begin? (stack : List Frame) : JsonToken → Option Machine
  | .beginArray => some ⟨.item, .array [] :: stack⟩
  | .beginObject => some ⟨.member, .object [] none :: stack⟩
  | .null => some (deliver .null stack)
  | .bool b => some (deliver (.bool b) stack)
  | .numeral n => some (deliver (.numeral n) stack)
  | .string s => some (deliver (.string s) stack)
  | _ => none

def step (m : Machine) (t : JsonToken) : Option Machine :=
  match m.expect, m.stack, t with
  | .value, stack, t => begin? stack t
  | .item, .array _ :: stack, .endArray => some (deliver (.array []) stack)
  | .item, stack, t => begin? stack t
  | .member, .object _ _ :: stack, .endObject => some (deliver (.object []) stack)
  | .member, .object members _ :: stack, .string s => some ⟨.colon, .object members s :: stack⟩
  | .name, .object members _ :: stack, .string s => some ⟨.colon, .object members s :: stack⟩
  | .colon, stack, .colon => some ⟨.value, stack⟩
  | .separator, .array items :: stack, .comma => some ⟨.value, .array items :: stack⟩
  | .separator, .array items :: stack, .endArray => some (deliver (.array items.reverse) stack)
  | .separator, .object members name :: stack, .comma =>
    some ⟨.name, .object members name :: stack⟩
  | .separator, .object members _ :: stack, .endObject =>
    some (deliver (.object members.reverse) stack)
  | _, _, _ => none

def run (m : Machine) : List JsonToken → Option Machine
  | [] => some m
  | t :: ts => (m.step t).bind (·.run ts)

def start : Machine := ⟨.value, []⟩

end Machine

/-- The tree that a whole list of tokens denotes. -/
def ofTokens? (ts : List JsonToken) : Option JsonNode :=
  match Machine.start.run ts with
  | some ⟨.nothing n, _⟩ => some n
  | _ => none

/-- The tree of a text. -/
def ofText? (s : String) : Option JsonNode :=
  (JsonToken.ofText s).bind ofTokens?

/-- Containers nested deeper than this are not read as documents. -/
def nestingLimit : Nat := 127

mutual

/-- The document of a tree that nests containers at most `room` deep and whose scalars all denote
something. Of several members with one name the last one counts. -/
def toJson? (room : Nat) : JsonNode → Option Json
  | .null => some .null
  | .bool b => some (.bool b)
  | .numeral n => n.value?.map .number
  | .string s => s.map .string
  | .array items =>
    match room with
    | 0 => none
    | room + 1 => (items? room items).map .array
  | .object members =>
    match room with
    | 0 => none
    | room + 1 => (members? room members).map fun ms => .object (Dictionary.ofEntries ms)

def items? (room : Nat) : List JsonNode → Option (List Json)
  | [] => some []
  | n :: rest => do
    let j ← toJson? room n
    let js ← items? room rest
    return j :: js

def members? (room : Nat) : List (Option String × JsonNode) → Option (List (String × Json))
  | [] => some []
  | (name, n) :: rest => do
    let name ← name
    let j ← toJson? room n
    let ms ← members? room rest
    return (name, j) :: ms

end

end JsonNode

def Json.ofText? (s : String) : Option Json :=
  (JsonNode.ofText? s).bind (JsonNode.toJson? JsonNode.nestingLimit)

end EntityModel
