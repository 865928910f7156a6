import EntityModel.Path.Cache

/-!
# Shared resolvers

Copies of a resolver share what they remember: a path that was resolved by one of them is known to
all. A resolver for one more declaration or with another capacity is a new one that remembers
nothing, and the resolver that it was made from stays in use as it was.
-/

namespace EntityModel

/-- A resolver that is in use: its catalog and the number of its cache, which its copies use too. -/
structure SharedResolver where
  catalog : Catalog
  cache : Nat

/-- The resolvers that are in use, by their numbers, and the caches that they share. -/
structure Resolvers where
  inUse : List SharedResolver
  caches : List (RecentCache (TypeRef × String) PathInstance)
  /-- The number of the next new instance. -/
  next : Nat := 0

namespace Resolvers

/-- A single resolver that remembers nothing yet. -/
def single (c : Catalog) (capacity : Nat) : Resolvers where
  inUse := [⟨c, 0⟩]
  caches := [{ capacity }]

/-- The resolver of a number with what it and its copies remember. -/
def get? (rs : Resolvers) (i : Nat) : Option (SharedResolver × PathResolver) := do
  let s ← rs.inUse[i]?
  let cache ← rs.caches[s.cache]?
  return (s, { catalog := s.catalog, cache, next := rs.next })

/-- One resolver is asked for a path. What it remembers then, its copies remember. -/
def ask (rs : Resolvers) (i : Nat)
    (call : PathResolver → Except Error PathInstance × PathResolver) :
    Option (Except Error PathInstance × Resolvers) := do
  let (s, r) ← rs.get? i
  let (answer, r) := call r
  return (answer, { rs with caches := rs.caches.set s.cache r.cache, next := r.next })

def resolve (rs : Resolvers) (i : Nat) (source : String) (owner : TypeRef) :
    Option (Except Error PathInstance × Resolvers) :=
  rs.ask i (·.resolve source owner)

def nested (rs : Resolvers) (i : Nat) (p : PropertyPath) (source : String) :
    Option (Except Error PathInstance × Resolvers) :=
  rs.ask i (·.nested p source)

/-- A further resolver with a cache of its own. -/
def enter (rs : Resolvers) (r : PathResolver) : Resolvers :=
  { rs with
    inUse := rs.inUse ++ [⟨r.catalog, rs.caches.length⟩]
    caches := rs.caches ++ [r.cache] }

/-- A copy of a resolver, which uses the same cache. -/
def copy (rs : Resolvers) (i : Nat) : Option Resolvers := do
  let s ← rs.inUse[i]?
  return { rs with inUse := rs.inUse ++ [s] }

/-- A resolver for one more declaration. There is none if the declared name is taken. -/
def extend (rs : Resolvers) (i : Nat) (d : TypeDecl) : Option (Except Error Resolvers) := do
  let (_, r) ← rs.get? i
  return do
    let c ← r.catalog.add d
    return rs.enter (r.withCatalog c)

/-- A resolver for the same declarations with another capacity. -/
def resize (rs : Resolvers) (i capacity : Nat) : Option Resolvers := do
  let (_, r) ← rs.get? i
  return rs.enter (r.withCapacity capacity)

end Resolvers

end EntityModel
