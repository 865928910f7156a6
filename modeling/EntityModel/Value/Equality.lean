import EntityModel.Value.Basic

/-!
# Equality of values

Two values are equal when they have the same form and equal parts. All NaNs are equal, and so are
the two zeros. Two sets are equal when they have the same number of elements and every element of
the one has an equal in the other, whatever the order. A set built without `Value.setOf` may hold
equal elements; on such sets the relation is not symmetric.

`Value.feed` is what a hash of a value is computed from. It agrees for equal values, which is why
of a set only the number of elements takes part.
-/

namespace EntityModel.Value

mutual

def equals : Value → Value → Bool
  | null, null => true
  | integer a, integer b => a == b
  | float x, float y => x.key == y.key
  | text s, text t => s == t
  | boolean a, boolean b => a == b
  | list xs, list ys => equalsEach xs ys
  | set xs, set ys => xs.length == ys.length && eachFoundIn xs ys
  | map es, map fs => equalsEntries es fs
  | object t es, object u fs => t == u && equalsEntries es fs
  | _, _ => false
termination_by a b => (sizeOf a + sizeOf b, 0)

def equalsEach : List Value → List Value → Bool
  | [], [] => true
  | x :: xs, y :: ys => equals x y && equalsEach xs ys
  | _, _ => false
termination_by xs ys => (sizeOf xs + sizeOf ys, 0)

/-- Every value of the first list has an equal among the second. -/
def eachFoundIn : List Value → List Value → Bool
  | [], _ => true
  | x :: xs, ys => foundIn x ys && eachFoundIn xs ys
termination_by xs ys => (sizeOf xs + sizeOf ys, 1)

/-- Some value of the list equals the given one. -/
def foundIn : Value → List Value → Bool
  | _, [] => false
  | x, y :: ys => equals y x || foundIn x ys
termination_by x ys => (sizeOf x + sizeOf ys, 0)

def equalsEntries : List (String × Value) → List (String × Value) → Bool
  | [], [] => true
  | (k, x) :: es, (l, y) :: fs => k == l && equals x y && equalsEntries es fs
  | _, _ => false
termination_by es fs => (sizeOf es + sizeOf fs, 0)

end

/-- A value is found among others if it equals one of them. -/
theorem foundIn_eq_any (x : Value) (ys : List Value) : foundIn x ys = ys.any (equals · x) := by
  induction ys with
  | nil => simp [foundIn]
  | cons y ys ih => simp [foundIn, ih]

/-- Values are found among others if each of them equals one of those. -/
theorem eachFoundIn_eq_all (xs ys : List Value) :
    eachFoundIn xs ys = xs.all fun x => ys.any (equals · x) := by
  induction xs with
  | nil => simp [eachFoundIn]
  | cons x xs ih => simp [eachFoundIn, ih, foundIn_eq_any]

/-- The set of the values in order, each without the later ones that equal it. -/
def distinct (values : List Value) : List Value :=
  values.foldl (fun kept v => if foundIn v kept then kept else kept ++ [v]) []

/-- A set of values; later duplicates are dropped. -/
def setOf (values : List Value) : Value :=
  .set (distinct values)

/-- A datum that takes part in a hash. -/
inductive Datum where
  | form (n : Nat)
  | word (i : Int64)
  | bits (b : UInt64)
  | text (s : String)
  | flag (b : Bool)
  | count (n : Nat)
  deriving DecidableEq, Repr

mutual

/-- The data that the hash of a value is computed from. -/
def feed : Value → List Datum
  | null => [.form 0]
  | integer i => [.form 1, .word i]
  | float x => [.form 2, .bits x.key]
  | text s => [.form 3, .text s]
  | boolean b => [.form 4, .flag b]
  | list xs => .form 5 :: .count xs.length :: feedEach xs
  | set xs => [.form 6, .count xs.length]
  | map es => .form 7 :: .count es.length :: feedEntries es
  | object t es => .form 8 :: .text t :: .count es.length :: feedEntries es

def feedEach : List Value → List Datum
  | [] => []
  | x :: xs => feed x ++ feedEach xs

def feedEntries : List (String × Value) → List Datum
  | [] => []
  | (k, x) :: es => .text k :: feed x ++ feedEntries es

end

/-- Whether a hash cannot tell two values apart. -/
def sameHash (a b : Value) : Bool :=
  feed a == feed b

/-- Adds a value to a table of values unless one that is equal is there already, and says whether it
was new. Only values of the same hash are compared. -/
def enter (table : List Value) (v : Value) : List Value × Bool :=
  if table.any fun kept => sameHash v kept && equals v kept then (table, false)
  else (table ++ [v], true)

end EntityModel.Value
