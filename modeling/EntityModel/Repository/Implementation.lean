import EntityModel.Declaration.Basic
import EntityModel.Text.Quoted
import EntityModel.Value.Basic

/-!
# Implementations

An implementation is an object with methods that can be called. What it answers may depend on the
calls that were made to it before, which is why every call is recorded.
-/

namespace EntityModel

/-- A call of a method. -/
structure Call where
  method : Method
  arguments : List Value

/-- An object with methods that can be called. -/
structure Implementation where
  /-- Which object this is among all that are in use. -/
  serial : Nat
  typeName : String
  methods : List Method
  /-- The answer to a call after the given earlier ones. -/
  answer : List Call → Call → Except Error Value

/-- The calls that were made so far in order, with the numbers of the objects that received them. -/
abbrev CallLog := List (Nat × Call)

def CallLog.received (log : CallLog) (serial : Nat) : List Call :=
  log.filterMap fun (receiver, call) => if receiver = serial then some call else none

/-- What handles the calls of one method: the answer to arguments after a number of earlier calls.
-/
abbrev Handler := Nat → List Value → Except Error Value

namespace Implementation

def call (i : Implementation) (c : Call) (log : CallLog) : Except Error Value × CallLog :=
  (i.answer (log.received i.serial) c, log ++ [(i.serial, c)])

/-- The handler of a method with its place, the first one whose method has the same name and
parameter types. -/
def handler? (handlers : List (Method × Handler)) (m : Method) : Option (Handler × Nat) :=
  (handlers.zipIdx.find? fun ((handled, _), _) => handled.matchesSignature m).map
    fun ((_, h), place) => (h, place)

/-- The answer of the handler of a method. It is told how many earlier calls it has handled. -/
def handled (handlers : List (Method × Handler)) (earlier : List Call) (c : Call) :
    Except Error Value :=
  match handler? handlers c.method with
  | none => .error (.noImplementation c.method.text)
  | some (h, place) =>
    h (earlier.countP fun e => (handler? handlers e.method).any (·.2 == place)) c.arguments

/-- The object with a handler for each of its methods. Methods that do not say where they are
declared are declared on it. -/
def ofHandlers (serial : Nat) (typeName : String) (handlers : List (Method × Handler)) :
    Implementation :=
  let own := handlers.map fun (m, h) => (m.declaredOn typeName, h)
  { serial, typeName, methods := own.map (·.1), answer := handled own }

/-- The diagnostic text of an object made of handlers. -/
def debugText (i : Implementation) : String :=
  Text.record "FunctionFragment"
    [("type_name", Text.quoted i.typeName),
     ("methods", Text.bracketed (i.methods.map fun m => Text.quoted m.text))]

end Implementation

end EntityModel
