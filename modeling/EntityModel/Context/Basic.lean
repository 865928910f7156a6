import EntityModel.Context.Discovery
import EntityModel.Entity.Path

/-!
# Contexts

A context answers which entity a type has. It makes entities on demand, remembers every answer, and
tells its listeners about each entity that was made. Types that are no entities are remembered as
such, and so are the paths that were resolved.
-/

namespace EntityModel

/-- The message to a listener that an entity was made. -/
structure Delivery where
  /-- The number of the listener, in the order in which listeners were added. -/
  listener : Nat
  entity : Entity

/-- A write along a path that was left out because a value on the way was null. -/
structure SkippedWrite where
  /-- The type of the bean where the path starts. -/
  root : String
  path : String
  /-- The property whose owner was null. -/
  property : String
  deriving DecidableEq, Repr

/-- A mapping and what was found out under it so far. -/
structure Context where
  mapping : Mapping
  table : EntityTable := {}
  /-- The number of listeners. -/
  listeners : Nat := 0
  /-- Everything that listeners were told, in order. -/
  deliveries : List Delivery := []
  /-- The writes that were left out and had to be reported, in order. -/
  skippedWrites : List SkippedWrite := []
  /-- The paths that were resolved, by the type where they start and their source. -/
  paths : List ((TypeRef × String) × EntityPath) := []

/-- An operation on a context. What changed before a failure stays changed. An operation that makes
entities of types without end has no outcome. -/
abbrev ContextM := ExceptT Error (StateT Context Option)

namespace Context

/-- A context in which nothing was looked up yet. -/
def ofMapping (m : Mapping) : Context := { mapping := m }

def entities (c : Context) : List Entity := c.table.managed.map (·.2)

def managedTypes (c : Context) : List TypeRef := c.table.managed.map (·.1)

/-- Whether the entity of a type was made. -/
def has (c : Context) (t : TypeRef) : Bool :=
  (c.table.get? t).any Option.isSome

def addListener (c : Context) : Context :=
  { c with listeners := c.listeners + 1 }

def debugText (c : Context) : String :=
  Text.record "MappingContext"
    [("registry", c.mapping.catalog.debugText), ("config", c.mapping.rules.debugText)]

/-- The path of a source from a type, if it was resolved before. -/
def path? (c : Context) (t : TypeRef) (source : String) : Option EntityPath :=
  (c.paths.find? fun e => e.1 = (t, source)).map (·.2)

/-- A discovery that goes on from what is known. -/
def discovery (c : Context) : Discovery := { table := c.table }

/-- The context after a discovery: all listeners are told about each completed entity in the order
of completion. -/
def afterDiscovery (c : Context) (d : Discovery) : Context :=
  { c with
    table := d.table
    deliveries := c.deliveries ++
      d.completed.reverse.flatMap fun e => (List.range c.listeners).map fun l => ⟨l, e⟩ }

end Context

namespace ContextM

def runOn {α : Type} (x : ContextM α) (c : Context) : Option (Except Error α × Context) :=
  x.run.run c

/-- The entity of a type, which is made if there is no answer for the type yet, whether the type is
eligible or not. Also a failed discovery may have completed entities, which are announced. -/
def addEntity (t : TypeRef) : ContextM (Option Entity) :=
  ExceptT.mk fun c => do
    let (outcome, d) ← c.mapping.visit t c.discovery
    return (outcome.map fun _ => (d.table.get? t).join, c.afterDiscovery d)

/-- The entity of a type, if it has one. Under strict rules entities are not made on demand. -/
def entity? (t : TypeRef) : ContextM (Option Entity) := do
  let c ← get
  match c.table.get? t with
  | some answer => return answer
  | none =>
    if !c.mapping.isEligible t then
      -- that there is no entity is an answer, too, which later lookups find
      set { c with table := c.table.set t none }
      return none
    else if c.mapping.rules.isStrict then throw (.unknownEntity t.text)
    else addEntity t

/-- The entity of a type, which must have one. -/
def requiredEntity (t : TypeRef) : ContextM Entity := do
  match ← entity? t with
  | some e => return e
  | none => throw (.missingEntity t.text)

/-- Adds the initial types one after the other, strict or not. -/
def addInitial : ContextM Unit := do
  (← get).mapping.rules.initial.forM fun t => discard (addEntity t)

/-- The entity behind a property, if entities may be behind it. -/
def entityForProperty? (p : EntityProperty) : ContextM (Option Entity) := do
  if p.isEntity then entity? (← p.type.requiredActual) else return none

/-- The entity of the type that a value has itself. The value has to be a bean. -/
def entityForValue (v : Value) : ContextM Entity := do
  match v.bean? with
  | some b => requiredEntity (.of b.type)
  | none => throw (.notABean v.typeName)

end ContextM

end EntityModel
