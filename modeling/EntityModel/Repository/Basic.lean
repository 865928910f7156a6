import EntityModel.Repository.Composition

/-!
# Repositories

What is known about a repository as a whole: its interface, the class that provides its basic
methods and the fragments composed into it. A method of the interface is served by a fragment,
else by the base class; one that neither serves is a query.
-/

namespace EntityModel

/-- A repository as a whole. -/
structure Repository where
  interface : RepositoryInterface
  base : TypeDecl
  composition : Composition
  /-- The methods of the base class alone, under the rules of the composition. -/
  baseComposition : Composition
  /-- The targets of methods that were asked for before, by the identity of the method. -/
  targets : List (MethodIdentity × Method) := []

/-- A question about a repository. -/
abbrev RepositoryM := StateM Repository

namespace Repository

/-- The repository of an interface with a declared base class. -/
def make (r : RepositoryInterface) (base : String) (c : Composition) :
    Except Error Repository := do
  let base ← r.catalog.required (.of base)
  return { interface := r, base, composition := c,
           baseComposition := c.withFragments [.structural base] }

end Repository

namespace RepositoryM

def customMatch (m : Method) : RepositoryM (Option Method) :=
  modifyGet fun i =>
    let (answer, composition) := i.composition.find m
    (answer, { i with composition })

def baseMatch (m : Method) : RepositoryM (Option Method) :=
  modifyGet fun i =>
    let (answer, baseComposition) := i.baseComposition.find m
    (answer, { i with baseComposition })

/-- What serves a method as far as that is known: a fragment method, a base class method, or nothing
but the method itself. -/
def searchTarget (m : Method) : RepositoryM Method := do
  match ← customMatch m with
  | some custom => return custom
  | none => return (← baseMatch m).getD m

/-- The method that runs for a method. It is settled by the first question. -/
def target (m : Method) : RepositoryM Method := do
  match (← get).targets.find? fun t => t.1 = m.identity with
  | some (_, settled) => return settled
  | none =>
    let found ← searchTarget m
    modify fun i => { i with targets := (m.identity, found) :: i.targets }
    return found

def isCustom (m : Method) : RepositoryM Bool :=
  return (← customMatch m).isSome

def isBase (m : Method) : RepositoryM Bool :=
  return (← baseMatch m).isSome

/-- Whether a method is a query: it has no body of its own, and it is marked as a query or served by
nothing. -/
def isQuery (m : Method) : RepositoryM Bool := do
  if m.modifiers.isBridge || m.modifiers.isDefault || m.modifiers.isStatic then return false
  else if (m.annotation? .query).isSome then return true
  else if ← isCustom m then return false
  else return !(← isBase m)

/-- The queries among the methods of the interface. -/
def queryMethods : RepositoryM (List Method) := do
  (← get).interface.methods.filterM isQuery

/-- Whether there is a query among the methods of the interface. -/
def hasQueryMethods : RepositoryM Bool := do
  (← get).interface.methods.anyM isQuery

/-- Whether the interface has a method that only a fragment serves. -/
def hasCustomMethod : RepositoryM Bool := do
  let r := (← get).interface
  if r.isMarker then return false
  else
    r.methods.anyM fun m => do
      if ← isCustom m then return !(← isBase m) else return false

end RepositoryM

end EntityModel
