import EntityModel.Error

/-!
# Type references

A type reference names a described type with its type arguments, wraps other types in a container,
or is a type variable. Variables are replaced by simultaneous substitution (`TypeRef.subst`); the
images are not substituted again.
-/

namespace EntityModel

inductive CollectionKind where
  | list
  | set
  deriving DecidableEq, Repr, Hashable

inductive TypeRef where
  | named (name : String) (arguments : List TypeRef)
  | collection (kind : CollectionKind) (element : TypeRef)
  | array (component : TypeRef)
  | map (key value : TypeRef)
  | optional (inner : TypeRef)
  | variable (name : String)
  deriving Repr, Inhabited, Hashable

namespace TypeRef

/-! ### Equality -/

mutual

def same : TypeRef → TypeRef → Bool
  | .named n as, .named m bs => n == m && sameAll as bs
  | .collection k t, .collection l u => k == l && same t u
  | .array t, .array u => same t u
  | .map k v, .map l w => same k l && same v w
  | .optional t, .optional u => same t u
  | .variable n, .variable m => n == m
  | _, _ => false

def sameAll : List TypeRef → List TypeRef → Bool
  | [], [] => true
  | t :: ts, u :: us => same t u && sameAll ts us
  | _, _ => false

end

mutual

/-- Types that are compared to be the same are equal. -/
theorem eq_of_same : ∀ {t u : TypeRef}, same t u = true → t = u
  | .named _ as, .named _ bs, h => by
    simp only [same, Bool.and_eq_true, beq_iff_eq] at h
    rw [h.1, eq_of_sameAll h.2]
  | .collection _ t, .collection _ u, h => by
    simp only [same, Bool.and_eq_true, beq_iff_eq] at h
    rw [h.1, eq_of_same h.2]
  | .array t, .array u, h => by
    simp only [same] at h
    rw [eq_of_same h]
  | .map k v, .map l w, h => by
    simp only [same, Bool.and_eq_true] at h
    rw [eq_of_same h.1, eq_of_same h.2]
  | .optional t, .optional u, h => by
    simp only [same] at h
    rw [eq_of_same h]
  | .variable _, .variable _, h => by
    simp only [same, beq_iff_eq] at h
    rw [h]
  | .named .., .collection .., h | .named .., .array .., h | .named .., .map .., h
  | .named .., .optional .., h | .named .., .variable .., h
  | .collection .., .named .., h | .collection .., .array .., h | .collection .., .map .., h
  | .collection .., .optional .., h | .collection .., .variable .., h
  | .array .., .named .., h | .array .., .collection .., h | .array .., .map .., h
  | .array .., .optional .., h | .array .., .variable .., h
  | .map .., .named .., h | .map .., .collection .., h | .map .., .array .., h
  | .map .., .optional .., h | .map .., .variable .., h
  | .optional .., .named .., h | .optional .., .collection .., h | .optional .., .array .., h
  | .optional .., .map .., h | .optional .., .variable .., h
  | .variable .., .named .., h | .variable .., .collection .., h | .variable .., .array .., h
  | .variable .., .map .., h | .variable .., .optional .., h => by simp [same] at h

/-- Lists of types that are compared to be the same are equal. -/
theorem eq_of_sameAll : ∀ {ts us : List TypeRef}, sameAll ts us = true → ts = us
  | [], [], _ => rfl
  | t :: ts, u :: us, h => by
    simp only [sameAll, Bool.and_eq_true] at h
    rw [eq_of_same h.1, eq_of_sameAll h.2]
  | [], _ :: _, h | _ :: _, [], h => by simp [sameAll] at h

end

mutual

/-- Every type is compared to be the same as itself. -/
theorem same_self : ∀ t : TypeRef, same t t = true
  | .named _ as => by simp [same, sameAll_self as]
  | .collection _ t => by simp [same, same_self t]
  | .array t => by simp [same, same_self t]
  | .map k v => by simp [same, same_self k, same_self v]
  | .optional t => by simp [same, same_self t]
  | .variable _ => by simp [same]

/-- Every list of types is compared to be the same as itself. -/
theorem sameAll_self : ∀ ts : List TypeRef, sameAll ts ts = true
  | [] => rfl
  | t :: ts => by simp [sameAll, same_self t, sameAll_self ts]

end

instance : DecidableEq TypeRef := fun t u =>
  if h : same t u = true then isTrue (eq_of_same h)
  else isFalse fun e => h (e ▸ same_self t)

/-! ### Parts -/

def of (name : String) : TypeRef := .named name []

/-- The raw name: containers have fixed names, and arguments do not take part. -/
def name : TypeRef → String
  | .named n _ | .variable n => n
  | .collection .list _ => "List"
  | .collection .set _ => "Set"
  | .array _ => "Array"
  | .map .. => "Map"
  | .optional _ => "Optional"

/-- The types that a type is built from. -/
def arguments : TypeRef → List TypeRef
  | .named _ as => as
  | .collection _ t | .array t | .optional t => [t]
  | .map k v => [k, v]
  | .variable _ => []

def isCollectionLike : TypeRef → Bool
  | .collection .. | .array _ => true
  | _ => false

def isMap : TypeRef → Bool
  | .map .. => true
  | _ => false

def isArray : TypeRef → Bool
  | .array _ => true
  | _ => false

def isOptional : TypeRef → Bool
  | .optional _ => true
  | _ => false

def isVariable : TypeRef → Bool
  | .variable _ => true
  | _ => false

def isNamed : TypeRef → Bool
  | .named .. => true
  | _ => false

/-- The names of the types whose values are never null. -/
def primitiveNames : List String :=
  ["boolean", "byte", "char", "short", "int", "long", "float", "double"]

/-- A primitive type: one of the primitive names without arguments. -/
def isPrimitive : TypeRef → Bool
  | .named n [] => primitiveNames.contains n
  | _ => false

/-- The element of a collection or array, the key of a map, the type inside an optional. -/
def component? : TypeRef → Option TypeRef
  | .collection _ t | .array t | .optional t => some t
  | .map k _ => some k
  | .named .. | .variable _ => none

def mapValue? : TypeRef → Option TypeRef
  | .map _ v => some v
  | _ => none

/-- The type behind one container: the element, the value of a map, the type inside an optional. -/
def actual : TypeRef → TypeRef
  | .map _ v => v
  | .collection _ t | .array t | .optional t => t
  | t => t

/-- The type behind all containers. -/
def leafActual : TypeRef → TypeRef
  | .map _ v => leafActual v
  | .collection _ t | .array t | .optional t => leafActual t
  | t => t

mutual

/-- The number of types that a type consists of, itself among them. -/
def size : TypeRef → Nat
  | .named _ as => sizeAll as + 1
  | .collection _ t | .array t | .optional t => size t + 1
  | .map k v => size k + size v + 1
  | .variable _ => 1

/-- The number of types that the types of a list consist of. -/
def sizeAll : List TypeRef → Nat
  | [] => 0
  | t :: ts => size t + sizeAll ts

end

/-! ### Text -/

mutual

def text : TypeRef → String
  | .named n [] => n
  | .named n (a :: as) => n ++ "<" ++ text a ++ argumentsText as ++ ">"
  | .collection .list t => "List<" ++ text t ++ ">"
  | .collection .set t => "Set<" ++ text t ++ ">"
  | .array t => text t ++ "[]"
  | .map k v => "Map<" ++ text k ++ ", " ++ text v ++ ">"
  | .optional t => "Optional<" ++ text t ++ ">"
  | .variable n => n

/-- The arguments after the first one, each after a comma. -/
def argumentsText : List TypeRef → String
  | [] => ""
  | a :: as => ", " ++ text a ++ argumentsText as

end

/-- The type behind one container, which must not be a type variable. -/
def requiredActual (t : TypeRef) : Except Error TypeRef :=
  if t.actual.isVariable then .error (.unresolvedActualType t.text) else .ok t.actual

/-! ### Substitution -/

/-- Types for type variables; the first entry of a name counts. -/
abbrev Bindings := List (String × TypeRef)

def Bindings.get? (b : Bindings) (name : String) : Option TypeRef :=
  (b.find? fun e => e.1 == name).map (·.2)

/-- Binds parameters to arguments in order. Parameters without an argument stay unbound, and of
several parameters with one name the last one counts. -/
def bind (parameters : List String) (arguments : List TypeRef) : Bindings :=
  (parameters.zip arguments).reverse

mutual

def subst (b : Bindings) : TypeRef → TypeRef
  | .variable n => (b.get? n).getD (.variable n)
  | .named n as => .named n (substAll b as)
  | .collection k t => .collection k (subst b t)
  | .array t => .array (subst b t)
  | .map k v => .map (subst b k) (subst b v)
  | .optional t => .optional (subst b t)

def substAll (b : Bindings) : List TypeRef → List TypeRef
  | [] => []
  | t :: ts => subst b t :: substAll b ts

end

mutual

def hasVariables : TypeRef → Bool
  | .variable _ => true
  | .named _ as => anyHasVariables as
  | .collection _ t | .array t | .optional t => hasVariables t
  | .map k v => hasVariables k || hasVariables v

/-- Whether a variable occurs in a type of a list. -/
def anyHasVariables : List TypeRef → Bool
  | [] => false
  | t :: ts => hasVariables t || anyHasVariables ts

end

/-- A list of types is substituted one by one. -/
theorem substAll_eq_map (b : Bindings) (ts : List TypeRef) : substAll b ts = ts.map (subst b) := by
  induction ts with
  | nil => rfl
  | cons t ts ih => rw [substAll, ih, List.map_cons]

/-- A list of types has variables if one of them has. -/
theorem anyHasVariables_eq_any (ts : List TypeRef) : anyHasVariables ts = ts.any hasVariables := by
  induction ts with
  | nil => rfl
  | cons t ts ih => rw [anyHasVariables, ih, List.any_cons]

end TypeRef

end EntityModel
