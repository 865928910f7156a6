/-!
# Errors

Everything that can go wrong while types are described, paths are resolved, entities are built and
repositories are called. An error is a cause with its data; the wording is in `Error.message`. The
causes that share a constructor are named below it.
-/

namespace EntityModel

/-- The causes of failure. Types appear in them by their text. -/
inductive Error where
  /-- A type has no property of a name; the names resolved before it are given. -/
  | propertyReference (property owner : String) (resolved : List String)
  /-- A property path grew beyond the limit. -/
  | depthExceeded (limit : Nat)
  | invalidArgument (text : String)
  | mapping (text : String)
  /-- A second identifier property. -/
  | duplicateId (owner existing candidate : String)
  /-- A second version property. -/
  | duplicateVersion (owner existing candidate : String)
  /-- A type that is not managed where only managed types are answered. -/
  | unknownEntity (type : String)
  /-- The description of a type is missing or unusable. -/
  | introspection (subject reason : String)
  /-- A value on the way along a path is null. -/
  | nullIntermediate (path property owner : String)
  | typeMismatch (text : String)
  /-- A property that no setter, wither or constructor writes. -/
  | immutableProperty (property owner : String)
  /-- No fragment declares a method. -/
  | noFragment (method : String)
  /-- No fragment that declares a method implements it. -/
  | noImplementation (method : String)
  | lock (text : String)
  deriving DecidableEq, Repr, Inhabited

namespace Error

def message : Error → String
  | propertyReference property owner resolved =>
    "No property '" ++ property ++ "' found for type '" ++ owner ++ "'" ++
      (if resolved.isEmpty then "" else "; Traversed path: " ++ ".".intercalate resolved)
  | depthExceeded limit =>
    "Trying to parse a path with depth greater than " ++ toString limit ++
      "; This has been disabled to prevent parsing overflows"
  | invalidArgument text => "Invalid argument: " ++ text
  | mapping text => "Mapping error: " ++ text
  | duplicateId owner existing candidate =>
    "Attempt to add id property '" ++ candidate ++ "' but already have property '" ++ existing ++
      "' registered as id on '" ++ owner ++ "'; Check your mapping configuration"
  | duplicateVersion owner existing candidate =>
    "Attempt to add version property '" ++ candidate ++ "' but already have property '" ++
      existing ++ "' registered as version on '" ++ owner ++ "'; Check your mapping configuration"
  | unknownEntity type => "Unknown persistent entity '" ++ type ++ "'"
  | introspection subject reason => "Introspection of '" ++ subject ++ "' failed: " ++ reason
  | nullIntermediate path property owner =>
    "Cannot access property '" ++ property ++ "' on null intermediate; Original path was '" ++
      path ++ "' on '" ++ owner ++ "'"
  | typeMismatch text => "Type mismatch: " ++ text
  | immutableProperty property owner =>
    "Cannot set property '" ++ property ++ "' on '" ++ owner ++
      "': no setter, no wither and not a constructor argument"
  | noFragment method => "No fragment found for method " ++ method
  | noImplementation method => "No implementation found for method " ++ method
  | lock text => "Lock error: " ++ text

/-- The number of names that were resolved before a property was not found, zero for other errors.
-/
def resolutionDepth : Error → Nat
  | propertyReference _ _ resolved => resolved.length
  | _ => 0

/-- Whether an error got further along a path than another one. -/
def isDeeperThan (e other : Error) : Bool :=
  decide (other.resolutionDepth < e.resolutionDepth)

def isPropertyReference : Error → Bool
  | propertyReference .. => true
  | _ => false

/-! ### Descriptions of types -/

def unregistered (type : String) : Error :=
  introspection type "no type descriptor registered"

def alreadyRegistered (name : String) : Error :=
  mapping ("Type '" ++ name ++ "' is already registered")

/-- A text is no list of type declarations. -/
def unreadable : Error :=
  introspection "json" "not a list of type declarations"

/-- The type behind a property is a type variable. -/
def unresolvedActualType (type : String) : Error :=
  invalidArgument ("Unable to resolve actual type of '" ++ type ++ "'")

/-! ### Paths -/

def emptySource (source : String) : Error :=
  invalidArgument ("Expected parsing to yield a property path from '" ++ source ++ "'")

/-- A property does not belong to the type at the end of a path. -/
def cannotAppend (property owner path leaf : String) : Error :=
  invalidArgument ("Cannot append property '" ++ property ++ "' of " ++ owner ++ " to path '" ++
    path ++ "' ending in " ++ leaf)

def noLeaf : Error :=
  invalidArgument "No leaf property found"

/-- The empty path leads nowhere that could be written. -/
def emptyPathWrite : Error :=
  invalidArgument "Cannot set a value through an empty path"

/-- A property of many values holds a value that is none of them. -/
def notAContainer (path type : String) : Error :=
  typeMismatch ("Expected a collection or map at '" ++ path ++ "' but found " ++ type)

/-! ### Entities and their values -/

def missingProperty (name type : String) : Error :=
  mapping ("Required property '" ++ name ++ "' not found for " ++ type)

def missingId (type : String) : Error :=
  mapping ("Required identifier property not found for " ++ type)

/-- A type that has to be an entity is none. -/
def missingEntity (type : String) : Error :=
  mapping ("Couldn't find PersistentEntity for type " ++ type)

def notAnInstance (entity type : String) : Error :=
  typeMismatch ("Expected an instance of '" ++ entity ++ "' but got " ++ type)

def notABean (type : String) : Error :=
  typeMismatch ("Expected a bean but got " ++ type)

/-- A property can be written only. -/
def noGetter (property owner : String) : Error :=
  mapping ("No getter available for property '" ++ property ++ "' on '" ++ owner ++ "'")

def rejected (entity : String) : Error :=
  mapping ("rejected " ++ entity)

def noIdentifier : Error :=
  invalidArgument "Could not obtain identifier"

/-- A primitive that is no number cannot tell new instances. -/
def notNumeric (type : String) : Error :=
  invalidArgument
    ("Only numeric primitives are supported as identifier / version field types; Got: " ++ type)

/-- The flag that tells new instances is no truth value. -/
def flagNotBoolean (type contract flag : String) : Error :=
  typeMismatch ("'" ++ type ++ "' implements " ++ contract ++ " but its '" ++ flag ++
    "' flag is not a boolean")

/-- The value of a primitive property is no number. -/
def undecidedNewness (type value property : String) : Error :=
  invalidArgument ("Could not determine whether '" ++ type ++ "' is new; unsupported value '" ++
    value ++ "' for property '" ++ property ++ "'")

/-! ### Repositories -/

def unimplementedFragment (contributor repository : String) : Error :=
  mapping ("Fragment " ++ contributor ++ " used in " ++ repository ++ " has no implementation")

/-- An interface does not lead to the repository marker. -/
def noRepositoryTypes (interface marker : String) : Error :=
  mapping ("Could not resolve domain and id type of " ++ interface ++ "; it does not extend " ++
    marker ++ "<T, ID>")

end Error

end EntityModel
