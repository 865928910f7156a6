import EntityModel.Path.Resolve

/-!
# Remembered paths

Paths that were resolved before are remembered, the most recently used first, up to a capacity. A
resolver answers a known pair of type and source with the instance it gave before; failures are not
remembered. Every new catalog comes with a resolver that remembers nothing.
-/

namespace EntityModel

/-- Entries in the order of their last use, the most recent first, one to a key. -/
structure RecentCache (κ α : Type) where
  capacity : Nat
  entries : List (κ × α) := []

namespace RecentCache

variable {κ α : Type} [DecidableEq κ]

def without (entries : List (κ × α)) (key : κ) : List (κ × α) :=
  entries.filter fun e => e.1 ≠ key

/-- The entry of a key and the cache after this use of it. -/
def use? (cache : RecentCache κ α) (key : κ) : Option (α × RecentCache κ α) :=
  match cache.entries.find? fun e => e.1 = key with
  | some e => some (e.2, { cache with entries := e :: without cache.entries key })
  | none => none

/-- The cache with an entry written, at the cost of the least recently used one if it is full. There
is always room for one entry. -/
def put (cache : RecentCache κ α) (key : κ) (value : α) : RecentCache κ α :=
  { cache with entries := ((key, value) :: without cache.entries key).take (max 1 cache.capacity) }

end RecentCache

/-- A resolved path and the number of its instance. -/
structure PathInstance where
  path : PropertyPath
  serial : Nat
  deriving DecidableEq, Repr

/-- A catalog together with the paths that were resolved against it. -/
structure PathResolver where
  catalog : Catalog
  cache : RecentCache (TypeRef × String) PathInstance
  /-- The number of the next new instance. -/
  next : Nat := 0

namespace PathResolver

/-- How many paths are remembered unless something else is asked for. -/
def defaultCapacity : Nat := 256

/-- A resolver that remembers nothing yet. -/
def ofCatalog (c : Catalog) : PathResolver :=
  { catalog := c, cache := { capacity := defaultCapacity } }

/-- A resolver for another catalog; its instances are new ones. -/
def withCatalog (r : PathResolver) (c : Catalog) : PathResolver :=
  { r with catalog := c, cache := { capacity := r.cache.capacity } }

/-- A resolver for the same catalog with another capacity, remembering nothing. -/
def withCapacity (r : PathResolver) (capacity : Nat) : PathResolver :=
  { r with cache := { capacity } }

/-- The path of a source from a type: the remembered instance, or a new one that is remembered. -/
def resolve (r : PathResolver) (source : String) (owner : TypeRef) :
    Except Error PathInstance × PathResolver :=
  match r.cache.use? (owner, source) with
  | some (found, cache) => (.ok found, { r with cache })
  | none =>
    match Path.resolve r.catalog source owner with
    | .error e => (.error e, r)
    | .ok path =>
      let found : PathInstance := ⟨path, r.next⟩
      (.ok found, { r with cache := r.cache.put (owner, source) found, next := r.next + 1 })

/-- The path that continues another one, resolved anew from where that one starts. -/
def nested (r : PathResolver) (path : PropertyPath) (source : String) :
    Except Error PathInstance × PathResolver :=
  r.resolve (path.nestedSource source) path.head.owner

end PathResolver

end EntityModel
