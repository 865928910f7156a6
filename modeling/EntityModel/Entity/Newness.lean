import EntityModel.TypeRef
import EntityModel.Value.Json

/-!
# New instances

An instance is new as long as it was never stored. It may say so itself; else its version or its
identifier tells: null, or zero if the property is a primitive number.
-/

namespace EntityModel

/-- How new instances are told from stored ones. -/
inductive NewnessRule where
  /-- The instance carries a flag. -/
  | flag
  /-- A property is null, or zero if it is primitive. -/
  | property (name : String) (isPrimitive : Bool)
  /-- Nothing tells them apart. -/
  | always
  deriving DecidableEq, Repr

namespace NewnessRule

/-- The name of the type whose instances carry the flag. -/
def flagType : String := "Persistable"

def flagField : String := "new"

/-- The rule by a version or identifier property, which must not be a primitive that is no number.
-/
def ofProperty (name : String) (type : TypeRef) : Except Error NewnessRule :=
  if type.isPrimitive && (type.name == "boolean" || type.name == "char") then
    .error (.notNumeric type.text)
  else .ok (.property name type.isPrimitive)

def isZero (v : Value) : Bool :=
  v.float?.any (·.isZero)

def isNew (rule : NewnessRule) (b : Bean) : Except Error Bool :=
  match rule with
  | flag =>
    match (b.get flagField).bool? with
    | some isNew => .ok isNew
    | none => .error (.flagNotBoolean b.type flagType flagField)
  | property name isPrimitive =>
    let v := b.get name
    if v.isNull then .ok true
    -- only a primitive is new by being zero, any other value is there or not
    else if !isPrimitive then .ok false
    else if v.isNumeric then .ok (isZero v)
    else .error (.undecidedNewness b.type v.display name)
  | always => .ok true

end NewnessRule

end EntityModel
