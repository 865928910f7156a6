import EntityModel.Json.Basic
import EntityModel.Proofs.Dictionary

/-!
# Parts of documents

The items of an array and the values of the members of an object stand directly inside it. The parts
of a document are the document itself and the parts of all that stands directly inside it
(`Json.parts_eq`); what is to be shown of a document may be taken for granted of everything that
stands directly inside it (`Json.descend`).
-/

namespace EntityModel.Json

/-- The documents directly inside a document. -/
def children : Json → List Json
  | null | bool _ | number _ | string _ => []
  | array items => items
  | object members => members.map (·.2)

/-- The children of a document are smaller than it. -/
lemma sizeOf_lt_of_mem_children {i j : Json} (h : i ∈ j.children) : sizeOf i < sizeOf j := by
  cases j with
  | null | bool | number | string => cases h
  | array items =>
    have smaller : sizeOf i < sizeOf items := List.sizeOf_lt_of_mem h
    simp only [array.sizeOf_spec]
    omega
  | object members =>
    obtain ⟨⟨k, x⟩, hm, rfl⟩ := List.mem_map.mp h
    have smaller := List.sizeOf_lt_of_mem hm
    simp only [object.sizeOf_spec, Prod.mk.sizeOf_spec] at smaller ⊢
    omega

/-- Induction on the depth of a document. -/
@[elab_as_elim]
theorem descend {P : Json → Prop} (step : ∀ j : Json, (∀ i ∈ j.children, P i) → P j)
    (j : Json) : P j :=
  step j fun i _ => descend step i
termination_by sizeOf j
decreasing_by exact sizeOf_lt_of_mem_children ‹_›

mutual

/-- A document and all documents inside it, at any depth. -/
def parts : Json → List Json
  | null => [null]
  | bool b => [bool b]
  | number n => [number n]
  | string s => [string s]
  | array items => array items :: partsEach items
  | object members => object members :: partsMembers members

def partsEach : List Json → List Json
  | [] => []
  | j :: js => parts j ++ partsEach js

def partsMembers : List (String × Json) → List Json
  | [] => []
  | (_, j) :: ms => parts j ++ partsMembers ms

end

/-- The parts of items are taken one after the other. -/
lemma partsEach_eq (js : List Json) : partsEach js = js.flatMap parts := by
  induction js with
  | nil => rfl
  | cons j js ih => rw [partsEach, ih, List.flatMap_cons]

/-- The parts of members are those of their values. -/
lemma partsMembers_eq (ms : List (String × Json)) :
    partsMembers ms = (ms.map (·.2)).flatMap parts := by
  induction ms with
  | nil => rfl
  | cons m ms ih => rw [partsMembers, ih, List.map_cons, List.flatMap_cons]

/-- The parts of a document are itself and the parts of its children. -/
theorem parts_eq (j : Json) : j.parts = j :: j.children.flatMap parts := by
  cases j with
  | null | bool | number | string => rfl
  | array items => rw [parts, partsEach_eq, children]
  | object members => rw [parts, partsMembers_eq, children]

/-- All parts meet a condition if the document itself does and all parts of what is inside it. -/
lemma forall_parts_iff {P : Json → Prop} {j : Json} :
    (∀ i ∈ j.parts, P i) ↔ P j ∧ ∀ i ∈ j.children, ∀ k ∈ i.parts, P k := by
  rw [parts_eq, List.forall_mem_cons, List.forall_mem_flatMap]

/-- The document with everything directly inside it replaced by what a function gives for it. -/
def mapChildren (f : Json → Json) : Json → Json
  | array items => array (items.map f)
  | object members => object (Dictionary.mapValues f members)
  | j => j

/-- A document whose children are mapped to themselves is mapped to itself. -/
lemma mapChildren_eq_self {f : Json → Json} {j : Json} (h : ∀ i ∈ j.children, f i = i) :
    j.mapChildren f = j := by
  cases j with
  | null | bool | number | string => rfl
  | array items => exact congrArg array ((List.map_congr_left h).trans (List.map_id items))
  | object members => exact congrArg object (Dictionary.mapValues_eq_self h)

end EntityModel.Json
