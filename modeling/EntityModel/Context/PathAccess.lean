import EntityModel.Context.Basic
import EntityModel.Entity.Access
import EntityModel.Entity.Path
import EntityModel.Value.Equality

/-!
# Access along paths

Values are read and written along entity paths. At every step the entity of the bean that is
actually there decides, not the declared type. A write rebuilds the beans on the way; it fans out
over the elements of lists, sets and maps.
-/

namespace EntityModel

/-- What a read does at a null on the way. -/
inductive ReadNulls where
  | reject
  /-- The answer is null. -/
  | answerNull
  deriving DecidableEq, Repr

/-- What a write does at a null on the way. -/
inductive WriteNulls where
  | reject
  /-- Nothing is written there. -/
  | skip
  /-- Nothing is written there, which is reported. -/
  | report
  deriving DecidableEq, Repr

/-- How a write treats nulls and containers on the way. -/
structure WriteOptions where
  nulls : WriteNulls := .reject
  /-- Whether to write to the elements of collections. -/
  intoCollections : Bool := true
  /-- Whether to write to the values of maps. -/
  intoMaps : Bool := true
  deriving DecidableEq, Repr

def WriteOptions.goesThrough (o : WriteOptions) (p : EntityProperty) : Bool :=
  if p.isCollectionLike then o.intoCollections
  else if p.isMap then o.intoMaps
  else true

namespace ContextM

def readProperty (target : Value) (p : EntityProperty) : ContextM Value := do
  let e ← entityForValue target
  Entity.read (← e.openInstance target) p

def writeProperty (target : Value) (p : EntityProperty) (v : Value) : ContextM Value := do
  let e ← entityForValue target
  return (← e.write (← e.openInstance target) p v).toValue

/-- The failure at a null on the way of a path, before one of its properties. -/
def nullBefore (root : Value) (path : EntityPath) (p : EntityProperty) : Error :=
  .nullIntermediate path.dotPath p.name root.typeName

/-- Reads on from a value that the path has led to. -/
def readOn (root : Value) (path : EntityPath) (nulls : ReadNulls) :
    Value → List EntityProperty → ContextM Value
  | current, [] => return current
  | current, p :: ps => do
    if current.isNull then
      match nulls with
      | .reject => throw (nullBefore root path p)
      | .answerNull => return .null
    else readOn root path nulls (← readProperty current p) ps

/-- The value at the end of a path, the bean itself for the empty path. -/
def readPath (root : Value) (path : EntityPath) (nulls : ReadNulls) : ContextM Value :=
  readOn root path nulls root path.properties

/-- What becomes of a write that meets a null before a property. -/
def skipNull (root : Value) (path : EntityPath) (nulls : WriteNulls) (p : EntityProperty) :
    ContextM (Option Value) := do
  match nulls with
  | .reject => throw (nullBefore root path p)
  | .skip => return none
  | .report =>
    modify fun c =>
      { c with skippedWrites := c.skippedWrites ++ [⟨root.typeName, path.dotPath, p.name⟩] }
    return none

/-- A container with every element that is not null updated. An update that is skipped leaves its
element alone. -/
def updateElements (path : EntityPath) (update : Value → ContextM (Option Value))
    (container : Value) : ContextM Value := do
  match container with
  | .list items => return .list (← items.mapM updateElement)
  | .set items => return .setOf (← items.mapM updateElement)
  | .map entries => return .map (← entries.mapM fun (k, v) => return (k, ← updateElement v))
  | other => throw (.notAContainer path.dotPath other.typeName)
where
  /-- One element updated. -/
  updateElement (element : Value) : ContextM Value := do
    if element.isNull then return element
    else return (← update element).getD element

/-- The bean `target` with a value written at the end of the properties that are left, `none` if the
write was skipped. -/
def writeOn (root : Value) (path : EntityPath) (options : WriteOptions) (v : Value) :
    List EntityProperty → Value → ContextM (Option Value)
  | [], _ => return some v
  | [p], target => some <$> writeProperty target p v
  | p :: next :: rest, target => do
    let child ← readProperty target p
    -- the write stops at the null, also if the path would go on to a container
    if child.isNull then skipNull root path options.nulls next
    else if p.isCollectionLike || p.isMap then
      if options.goesThrough p then
        let updated ← updateElements path (writeOn root path options v (next :: rest)) child
        some <$> writeProperty target p updated
      -- a container that the options leave out ends the write without a failure
      else return none
    else
      match ← writeOn root path options v (next :: rest) child with
      | none => return none
      | some updated => some <$> writeProperty target p updated

/-- The bean with a value written at the end of a path, unchanged if the write was skipped. -/
def writePath (root : Value) (path : EntityPath) (v : Value) (options : WriteOptions) :
    ContextM Value := do
  if path.isEmpty then throw .emptyPathWrite
  else return (← writeOn root path options v path.properties root).getD root

end ContextM

/-- A bean that is read and written along paths in a context. -/
structure PathAccessor where
  context : Context
  bean : Value

namespace PathAccessor

/-- The value at the end of a path. The context may know more entities afterwards. -/
def read (a : PathAccessor) (path : EntityPath) (nulls : ReadNulls := .reject) :
    Option (Except Error Value × PathAccessor) := do
  let (answer, context) ← (ContextM.readPath a.bean path nulls).runOn a.context
  return (answer, { a with context })

/-- Writes a value at the end of a path. If that fails the bean stays as it was. -/
def write (a : PathAccessor) (path : EntityPath) (v : Value) (options : WriteOptions := {}) :
    Option (Except Error Unit × PathAccessor) := do
  match ← (ContextM.writePath a.bean path v options).runOn a.context with
  | (.ok bean, context) => return (.ok (), { context, bean })
  | (.error e, context) => return (.error e, { a with context })

end PathAccessor

end EntityModel
