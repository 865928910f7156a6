import EntityModel.Repository.Composition

/-!
# Shared compositions

Copies of a composition share the methods that were found: what one of them looked up is known to
all. A copy does not know to which fragments methods were sent. A composition that is derived from
another one remembers nothing, and the one that it was derived from stays in use as it was.
-/

namespace EntityModel

/-- A composition that is in use: what it is made of and the number of its cache, which its copies
use too. -/
structure SharedComposition extends Assembly where
  cache : Nat

/-- The compositions that are in use, by their numbers, and the caches that they share. -/
structure Compositions where
  inUse : List SharedComposition
  /-- What was found for invoked methods, by the identity of the method. -/
  caches : List (List (MethodIdentity × Option Method))
  log : CallLog := []

namespace Compositions

/-- A single composition that remembers nothing yet. -/
def single (a : Assembly) (log : CallLog) : Compositions where
  inUse := [{ a with cache := 0 }]
  caches := [[]]
  log

/-- The composition of a number with what it and its copies have found. -/
def get? (cs : Compositions) (i : Nat) : Option (SharedComposition × Composition) := do
  let s ← cs.inUse[i]?
  let found ← cs.caches[s.cache]?
  return (s, { s.toAssembly with found })

/-- The compositions after one of them was used. -/
def keep (cs : Compositions) (i cache : Nat) (c : Composition) (log : CallLog) : Compositions where
  inUse := cs.inUse.set i { c.toAssembly with cache }
  caches := cs.caches.set cache c.found
  log

/-- Does something with one composition. What it finds then, its copies have found. -/
def act {α : Type} (cs : Compositions) (i : Nat)
    (run : Composition → CallLog → α × Composition × CallLog) : Option (α × Compositions) := do
  let (s, c) ← cs.get? i
  let (answer, c, log) := run c cs.log
  return (answer, cs.keep i s.cache c log)

def find (cs : Compositions) (i : Nat) (m : Method) : Option (Option Method × Compositions) :=
  cs.act i fun c log => ((c.find m).1, (c.find m).2, log)

def invoke (cs : Compositions) (i : Nat) (m : Method) (arguments : List Value) :
    Option (Except Error Value × Compositions) :=
  cs.act i (·.invoke m arguments)

def invokeFragments (cs : Compositions) (i : Nat) (callee : Method) (arguments : List Value) :
    Option (Except Error Value × Compositions) :=
  cs.act i (·.invokeFragments callee arguments)

/-- A copy of a composition, which uses the same cache. -/
def copy (cs : Compositions) (i : Nat) : Option Compositions := do
  let s ← cs.inUse[i]?
  return { cs with inUse := cs.inUse ++ [{ s with fragments := .of s.fragments.items }] }

/-- A further composition with a cache of its own. -/
def enter (cs : Compositions) (c : Composition) : Compositions :=
  { cs with
    inUse := cs.inUse ++ [{ c.toAssembly with cache := cs.caches.length }]
    caches := cs.caches ++ [c.found] }

/-- A composition derived from one that is in use. -/
def derive (cs : Compositions) (i : Nat) (make : Composition → Composition) :
    Option Compositions := do
  let (_, c) ← cs.get? i
  return cs.enter (make c)

end Compositions

end EntityModel
