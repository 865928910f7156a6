import EntityModel.TypeRef

/-!
# Simple types

The values of a simple type are stored as they are and never taken apart into properties.
-/

namespace EntityModel

structure SimpleTypes where
  names : List String
  deriving DecidableEq, Repr

namespace SimpleTypes

/-- Primitives, boxed and textual types, points in time and other scalars. -/
def defaultNames : List String :=
  ["boolean", "byte", "char", "short", "int", "long", "float", "double",
   "bool", "i8", "i16", "i32", "i64", "i128", "u8", "u16", "u32", "u64", "u128", "f32", "f64",
   "Boolean", "Byte", "Character", "Short", "Integer", "Long", "Float", "Double",
   "String", "str", "Number", "BigInteger", "BigDecimal",
   "Date", "Instant", "LocalDate", "LocalTime", "LocalDateTime", "ZonedDateTime",
   "Duration", "Uuid", "UUID", "Locale", "Currency", "Url", "Bytes", "Object", "Enum"]

/-- The given names and, unless they are left out, the default ones. -/
def ofNames (custom : List String) (defaults : Bool) : SimpleTypes :=
  ⟨custom ++ if defaults then defaultNames else []⟩

def default : SimpleTypes := ofNames [] true

instance : Inhabited SimpleTypes := ⟨default⟩

def register (s : SimpleTypes) (name : String) : SimpleTypes :=
  ⟨name :: s.names⟩

/-- Whether a name is that of a simple type. -/
def isSimpleName (s : SimpleTypes) (name : String) : Bool :=
  s.names.contains name

/-- Only named types are simple, with whatever arguments; containers are taken apart. -/
def isSimple (s : SimpleTypes) : TypeRef → Bool
  | .named n _ => s.isSimpleName n
  | _ => false

end SimpleTypes

end EntityModel
