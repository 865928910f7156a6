import EntityModel.Repository.Fragment
import EntityModel.Repository.Lookup

/-!
# Compositions

A repository is composed of fragments. An invoked method is looked up among the methods of all
fragments, the arguments are converted for the method that was found, and the call is sent to the
fragment that serves it. A composition is changed by deriving a new one, which remembers nothing.
-/

namespace EntityModel

/-- What the arguments of a call become for the method that was found. -/
abbrev Conversion := Method → List Value → List Value

/-- What a composition is made of: its fragments and the rules for their calls. -/
structure Assembly where
  fragments : Fragments := {}
  lookup : Lookup := .direct
  convert : Conversion := fun _ arguments => arguments
  interface : Option RepositoryInterface := none

namespace Assembly

def isEmpty (a : Assembly) : Bool :=
  a.fragments.items.isEmpty

/-- The method that serves an invoked one: the first method in the order of the fragments that is
accepted by the first criterion which accepts any. -/
def search (a : Assembly) (m : Method) : Option Method :=
  a.lookup.findSome? fun accepts => a.fragments.methods.find? (accepts m)

/-- Every fragment that declares methods has an implementation. -/
def validate (a : Assembly) : Except Error Unit :=
  match a.fragments.items.find? (·.lacksImplementation) with
  | none => .ok ()
  | some f =>
    .error (.unimplementedFragment f.contributor
      ((a.interface.map (·.name)).getD "repository"))

def debugText (a : Assembly) : String :=
  Text.record "RepositoryComposition"
    [("fragments", a.fragments.debugText),
     ("repository", Text.optionalName (a.interface.map (·.name)))]

end Assembly

/-- A repository composed of fragments. -/
structure Composition extends Assembly where
  /-- What was found for invoked methods before, by the identity of the method. -/
  found : List (MethodIdentity × Option Method) := []

namespace Composition

def of (items : List Fragment) : Composition :=
  { fragments := .of items }

/-- The composition of an implemented fragment for each implementation. -/
def just (implementations : List Implementation) : Composition :=
  of (implementations.map .implemented)

/-- The composition of other fragments under the same rules. The fragments come with the places to
which methods were sent before. -/
def adopt (c : Composition) (fs : Fragments) : Composition :=
  { c with fragments := fs, found := [] }

def withFragments (c : Composition) (items : List Fragment) : Composition :=
  c.adopt (.of items)

/-- The composition with a further fragment, which comes last. -/
def append (c : Composition) (f : Fragment) : Composition :=
  c.withFragments (c.fragments.items ++ [f])

def appendAll (c : Composition) (items : List Fragment) : Composition :=
  c.withFragments (c.fragments.items ++ items)

def withLookup (c : Composition) (lookup : Lookup) : Composition :=
  { c.withFragments c.fragments.items with lookup }

def withConverter (c : Composition) (convert : Conversion) : Composition :=
  { c.withFragments c.fragments.items with convert }

def withInterface (c : Composition) (r : RepositoryInterface) : Composition :=
  { c.withFragments c.fragments.items with interface := some r }

/-- The method that serves an invoked one, searched for once to an invoked method. -/
def find (c : Composition) (m : Method) : Option Method × Composition :=
  match c.found.find? fun f => f.1 = m.identity with
  | some (_, answer) => (answer, c)
  | none =>
    let answer := c.search m
    (answer, { c with found := (m.identity, answer) :: c.found })

/-- Calls the fragment method that serves an invoked method. -/
def invoke (c : Composition) (m : Method) (arguments : List Value) (log : CallLog) :
    Except Error Value × Composition × CallLog :=
  match c.find m with
  | (none, c) => (.error (.noFragment m.text), c, log)
  | (some callee, c) =>
    -- the fragments remember to which of them the call was sent
    let (answer, fragments, log) := c.fragments.invoke ⟨callee, c.convert callee arguments⟩ log
    (answer, { c with fragments }, log)

/-- Calls a method on the fragments, without a lookup or a conversion. -/
def invokeFragments (c : Composition) (callee : Method) (arguments : List Value) (log : CallLog) :
    Except Error Value × Composition × CallLog :=
  let (answer, fragments, log) := c.fragments.invoke ⟨callee, arguments⟩ log
  (answer, { c with fragments }, log)

end Composition

end EntityModel
