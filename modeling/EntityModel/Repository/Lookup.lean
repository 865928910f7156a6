import EntityModel.Repository.Interface

/-!
# Method lookups

A lookup decides which methods of fragments can serve a call. It is a list of predicates on the
invoked method and a candidate; the first predicate that accepts any candidate counts.
-/

namespace EntityModel

/-- Whether a candidate can serve an invoked method. -/
abbrev Criterion := Method → Method → Bool

/-- Predicates in the order in which they are tried. -/
abbrev Lookup := List Criterion

namespace Lookup

def direct : Lookup := [Method.matchesSignature]

def byName : Lookup := [fun invoked candidate => invoked.name == candidate.name]

def byArity : Lookup :=
  [fun invoked candidate => invoked.parameterTypes.length == candidate.parameterTypes.length]

/-- The types of a repository bound to the conventional variables and to the two parameters of its
interface, which take precedence. -/
def bindings (r : RepositoryInterface) : TypeRef.Bindings :=
  (match r.decl.typeParameters with
    | [domain, id] => [(id, r.idType), (domain, r.domainType)]
    | _ => []) ++ [("ID", r.idType), ("T", r.domainType)]

/-- Whether an argument type fits a parameter type: both are replaced by their bindings, and then
they are equal, or named types of which the first one extends the second, or containers of one
kind with fitting arguments. Nesting is followed down to a depth; where it goes deeper, the types
are answered not to fit, as if they were unlike. -/
def fitsTo (c : Catalog) (b : TypeRef.Bindings) : Nat → TypeRef → TypeRef → Bool
  | 0, _, _ => false
  | depth + 1, argument, parameter =>
    let t := argument.subst b
    let u := parameter.subst b
    if t = u then true
    -- arguments of named types do not count, only whether the one extends the other
    else if t.isNamed && u.isNamed then c.isSubtype t u
    else
      t.name == u.name && t.arguments.length == u.arguments.length &&
        (t.arguments.zip u.arguments).all fun (x, y) => fitsTo c b depth x y

/-- A depth that the types under comparison do not exceed unless their bindings nest them without
end. Where the images are closed, it is enough: substitution ends after the first level, and the
height of the types is less. Images that mention bound variables are substituted again at every
level, and for these it is not shown to be enough. -/
def fittingDepth (b : TypeRef.Bindings) (argument parameter : TypeRef) : Nat :=
  let images := TypeRef.sizeAll (b.map (·.2))
  (argument.size + images) * (parameter.size + images) + 1

/-- Whether an argument type fits a parameter type under the bindings of a repository. -/
def fits (r : RepositoryInterface) (argument parameter : TypeRef) : Bool :=
  let b := bindings r
  fitsTo r.catalog b (fittingDepth b argument parameter) argument parameter

/-- The same name and as many parameters, of which each fits. -/
def fitsSignature (r : RepositoryInterface) : Criterion := fun invoked candidate =>
  invoked.name == candidate.name &&
    invoked.parameterTypes.length == candidate.parameterTypes.length &&
    (invoked.parameterTypes.zip candidate.parameterTypes).all fun (t, u) => fits r t u

/-- Direct matches first, then methods that fit at the types of a repository. -/
def forRepository (r : RepositoryInterface) : Lookup :=
  direct ++ [fitsSignature r]

def debugText (l : Lookup) : String :=
  Text.record "PredicateLookup" [("lookups", toString l.length)]

end Lookup

end EntityModel
