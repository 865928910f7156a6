import EntityModel.Catalog.Hierarchy
import EntityModel.Repository.Composition

/-!
# Publishing of domain events

Aggregates may collect events in a property that is marked for it. When an aggregate was saved or
deleted through a repository, its events are published.
-/

namespace EntityModel

/-- The properties that hold the events of types, as far as they were looked for, by the name of the
type. -/
abbrev EventProperties := List (String × Option String)

/-- A repository whose calls publish events. -/
structure EventPublisher where
  composition : Composition
  catalog : Catalog
  properties : EventProperties := []

/-- A search for events. -/
abbrev EventSearch := ExceptT Error (StateM EventProperties)

namespace EventPublisher

def deleteMethods : List String := ["delete", "deleteAll", "deleteInBatch", "deleteAllInBatch"]

/-- Whether calls of a method publish events: it has one parameter and saves or deletes. -/
def publishes (m : Method) : Bool :=
  m.parameterTypes.length == 1 &&
    ("save".toList.isPrefixOf m.name.toList || deleteMethods.contains m.name)

def marksEvents (annotations : List Annotation) : Bool :=
  Annotation.isPresent annotations .domainEvents

/-- The property that holds the events of a declared type: the first marked field, else the first
marked accessor. -/
def eventProperty? (c : Catalog) (type : String) : Except Error (Option String) := do
  if c.contains type then
    match (← c.fieldsOf (.of type)).find? fun f => marksEvents f.annotations with
    | some f => return some f.name
    | none =>
      let accessor := (← c.accessorsOf (.of type)).find? fun a => marksEvents a.annotations
      return accessor.map (·.name)
  else return none

/-- The property that holds the events of a type, looked for once to a type. -/
def property? (c : Catalog) (type : String) : EventSearch (Option String) := do
  match (← get).find? fun p => p.1 = type with
  | some (_, property) => return property
  | none =>
    let property ← liftM (eventProperty? c type)
    modify fun properties => (type, property) :: properties
    return property

/-- The events of an aggregate: the elements of a list or set that are not null, else the value
itself unless it is null. -/
def eventsOf (c : Catalog) (aggregate : Value) : EventSearch (List Value) := do
  match aggregate.bean? with
  | none => return []
  | some b =>
    match ← property? c b.type with
    | none => return []
    | some property =>
      match b.get property with
      | .null => return []
      | .list events | .set events => return events.filter fun e => !e.isNull
      | event => return [event]

/-- The aggregates of an argument: its elements if it is a list or set, else the argument. -/
def aggregates (argument : Value) : List Value :=
  argument.elements?.getD [argument]

/-- The events of all aggregates of an argument, in order. -/
def collect (c : Catalog) (argument : Value) : EventSearch (List Value) := do
  return (← (aggregates argument).mapM (eventsOf c)).flatten

/-- The answer to a call, the events that it published, and the repository and the calls after it.
Events are published only if the call succeeded. -/
def invoke (p : EventPublisher) (m : Method) (arguments : List Value) (log : CallLog) :
    Except Error Value × List Value × EventPublisher × CallLog :=
  let (answer, composition, log) := p.composition.invoke m arguments log
  let p := { p with composition }
  match answer with
  | .error e => (.error e, [], p, log)
  | .ok v =>
    if publishes m then
      let (found, properties) := (collect p.catalog (arguments.headD .null)).run.run p.properties
      let p := { p with properties }
      match found with
      | .ok events => (.ok v, events, p, log)
      | .error e => (.error e, [], p, log)
    else (.ok v, [], p, log)

def debugText (p : EventPublisher) : String :=
  Text.record "EventPublishingRepository" [("composition", p.composition.debugText)]

end EventPublisher

end EntityModel
