import EntityModel.Proofs.Dictionary
import EntityModel.Value.Basic

/-!
# Parts of values

The elements of a list or set, the values of a map and those of the fields of a bean stand directly
inside it. The parts of a value are the value itself and the parts of all that stands directly
inside it (`Value.parts_eq`). What is to be shown of a value may be taken for granted of everything
that stands directly inside it (`Value.descend`).
-/

namespace EntityModel.Value

/-- The values directly inside a value. -/
def children : Value → List Value
  | null | integer _ | float _ | text _ | boolean _ => []
  | list xs | set xs => xs
  | map es | object _ es => es.map (·.2)

/-- What is inside a value is smaller. -/
lemma sizeOf_lt_of_mem_children {u v : Value} (h : u ∈ v.children) : sizeOf u < sizeOf v := by
  cases v with
  | null | integer | float | text | boolean => cases h
  | list xs | set xs =>
    have smaller : sizeOf u < sizeOf xs := List.sizeOf_lt_of_mem h
    simp only [list.sizeOf_spec, set.sizeOf_spec]
    omega
  | map es | object t es =>
    obtain ⟨⟨k, x⟩, he, rfl⟩ := List.mem_map.mp h
    have smaller := List.sizeOf_lt_of_mem he
    simp only [map.sizeOf_spec, object.sizeOf_spec, Prod.mk.sizeOf_spec] at smaller ⊢
    omega

/-- Induction on the depth of a value. -/
@[elab_as_elim]
theorem descend {P : Value → Prop} (step : ∀ v : Value, (∀ u ∈ v.children, P u) → P v)
    (v : Value) : P v :=
  step v fun u _ => descend step u
termination_by sizeOf v
decreasing_by exact sizeOf_lt_of_mem_children ‹_›

mutual

/-- A value and all values inside it, at any depth. -/
def parts : Value → List Value
  | null => [null]
  | integer i => [integer i]
  | float x => [float x]
  | text s => [text s]
  | boolean b => [boolean b]
  | list xs => list xs :: partsEach xs
  | set xs => set xs :: partsEach xs
  | map es => map es :: partsEntries es
  | object t es => object t es :: partsEntries es

def partsEach : List Value → List Value
  | [] => []
  | x :: xs => parts x ++ partsEach xs

def partsEntries : List (String × Value) → List Value
  | [] => []
  | (_, x) :: es => parts x ++ partsEntries es

end

/-- The parts of a list are those of its elements, one after the other. -/
lemma partsEach_eq (xs : List Value) : partsEach xs = xs.flatMap parts := by
  induction xs with
  | nil => rfl
  | cons x xs ih => rw [partsEach, ih, List.flatMap_cons]

/-- The parts of entries are those of their values, one after the other. -/
lemma partsEntries_eq (es : List (String × Value)) :
    partsEntries es = (es.map (·.2)).flatMap parts := by
  induction es with
  | nil => rfl
  | cons e es ih => rw [partsEntries, ih, List.map_cons, List.flatMap_cons]

/-- The parts of a value are the value and the parts of what is directly inside it. -/
theorem parts_eq (v : Value) : v.parts = v :: v.children.flatMap parts := by
  cases v with
  | null | integer | float | text | boolean => rfl
  | list xs | set xs => rw [parts, partsEach_eq, children]
  | map es | object t es => rw [parts, partsEntries_eq, children]

/-- All parts meet a condition if the value itself does and all parts of what is inside it. -/
lemma forall_parts_iff {P : Value → Prop} {v : Value} :
    (∀ u ∈ v.parts, P u) ↔ P v ∧ ∀ u ∈ v.children, ∀ w ∈ u.parts, P w := by
  rw [parts_eq, List.forall_mem_cons, List.forall_mem_flatMap]

/-- The value with everything directly inside it replaced by what a function gives for it. -/
def mapChildren (f : Value → Value) : Value → Value
  | list xs => list (xs.map f)
  | set xs => set (xs.map f)
  | map es => map (Dictionary.mapValues f es)
  | object t es => object t (Dictionary.mapValues f es)
  | v => v

/-- A value stays as it is if everything directly inside it does. -/
lemma mapChildren_eq_self {f : Value → Value} {v : Value} (h : ∀ u ∈ v.children, f u = u) :
    v.mapChildren f = v := by
  cases v with
  | null | integer | float | text | boolean => rfl
  | list xs => exact congrArg list ((List.map_congr_left h).trans (List.map_id xs))
  | set xs => exact congrArg set ((List.map_congr_left h).trans (List.map_id xs))
  | map es => exact congrArg map (Dictionary.mapValues_eq_self h)
  | object t es => exact congrArg (object t) (Dictionary.mapValues_eq_self h)

end EntityModel.Value
