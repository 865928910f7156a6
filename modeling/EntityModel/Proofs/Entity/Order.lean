import EntityModel.Entity.Basic
import Mathlib.Tactic.Lemma

/-!
# Orders of properties

Entities put their properties into order by a stable sort. If the order is total and transitive,
sorting commutes with every selection of properties (`PropertyOrder.filter_sort`): what is selected
stands in the same order, whether it is selected before or after.
-/

namespace EntityModel

section Sorting

variable {α : Type} {le : α → α → Bool} {l₁ l₂ m₁ m₂ : List α}

/-- A list has only one place before which nothing and behind which everything meets a condition. -/
lemma split_unique {p : α → Bool} (same : l₁ ++ l₂ = m₁ ++ m₂) (hl₁ : ∀ b ∈ l₁, p b = false)
    (hl₂ : ∀ b ∈ l₂, p b = true) (hm₁ : ∀ b ∈ m₁, p b = false) (hm₂ : ∀ b ∈ m₂, p b = true) :
    l₁ = m₁ ∧ l₂ = m₂ := by
  rcases List.append_eq_append_iff.mp same with ⟨between, rfl, rfl⟩ | ⟨between, rfl, rfl⟩
  · cases between with
    | nil => simp
    | cons b between =>
      have here : p b = true := hl₂ b List.mem_cons_self
      cases here.symm.trans (hm₁ b (List.mem_append_right l₁ List.mem_cons_self))
  · cases between with
    | nil => simp
    | cons b between =>
      have here : p b = true := hm₂ b List.mem_cons_self
      cases here.symm.trans (hl₁ b (List.mem_append_right m₁ List.mem_cons_self))

variable (le_trans : ∀ a b c, le a b = true → le b c = true → le a c = true)
  (le_total : ∀ a b, (le a b || le b a) = true)

include le_trans le_total

/-- The first element of a list is sorted in before all that is not less. -/
lemma mergeSort_cons_split (a : α) (l : List α) : ∃ l₁ l₂,
    (a :: l).mergeSort le = l₁ ++ a :: l₂ ∧ l.mergeSort le = l₁ ++ l₂ ∧
      (∀ b ∈ l₁, le a b = false) ∧ ∀ b ∈ l₂, le a b = true := by
  obtain ⟨l₁, l₂, whole, rest, before⟩ := List.mergeSort_cons le_trans le_total a l
  refine ⟨l₁, l₂, whole, rest, fun b hb => by simpa using before b hb, fun b hb => ?_⟩
  have sorted := List.pairwise_mergeSort le_trans le_total (a :: l)
  rw [whole] at sorted
  obtain ⟨-, sorted, -⟩ := List.pairwise_append.mp sorted
  exact List.rel_of_pairwise_cons sorted hb

/-- Selecting after a stable sort is the same as sorting what was selected. -/
lemma filter_mergeSort (p : α → Bool) (l : List α) :
    (l.mergeSort le).filter p = (l.filter p).mergeSort le := by
  induction l with
  | nil => simp
  | cons a l ih =>
    obtain ⟨l₁, l₂, whole, rest, before, behind⟩ := mergeSort_cons_split le_trans le_total a l
    rw [rest, List.filter_append] at ih
    rw [whole, List.filter_append]
    cases ha : p a with
    | false =>
      rw [List.filter_cons_of_neg (by simp [ha]), List.filter_cons_of_neg (by simp [ha])]
      exact ih
    | true =>
      rw [List.filter_cons_of_pos ha, List.filter_cons_of_pos ha]
      -- what is selected falls before and behind the first element as it did in the whole list
      obtain ⟨m₁, m₂, whole', rest', before', behind'⟩ :=
        mergeSort_cons_split le_trans le_total a (l.filter p)
      obtain ⟨left, right⟩ := split_unique (ih.trans rest')
        (fun b hb => before b (List.mem_filter.mp hb).1)
        (fun b hb => behind b (List.mem_filter.mp hb).1) before' behind'
      rw [whole', left, right]

end Sorting

namespace PropertyOrder

/-! ### Total orders -/

instance byName_trans : Std.TransCmp byName :=
  inferInstanceAs (Std.TransCmp (compareOn EntityProperty.name))

instance byNameDescending_trans : Std.TransCmp byNameDescending :=
  inferInstanceAs (Std.TransCmp fun p q => byName q p)

instance byNameLength_trans : Std.TransCmp byNameLength :=
  inferInstanceAs (Std.TransCmp (compareOn fun p : EntityProperty => p.name.utf8ByteSize))

instance byType_trans : Std.TransCmp byType :=
  inferInstanceAs (Std.TransCmp (compareOn fun p : EntityProperty => p.type.text))

variable {order : PropertyOrder} {ps : List EntityProperty}

/-- To sort properties loses none and adds none. -/
lemma sort_perm (order : PropertyOrder) (ps : List EntityProperty) : (order.sort ps).Perm ps :=
  List.mergeSort_perm _ _

/-- There is nothing to sort about a single property. -/
@[simp]
lemma sort_toList (order : PropertyOrder) (p : Option EntityProperty) :
    order.sort p.toList = p.toList := by
  cases p <;> simp [sort]

/-- Whether one property may stand before another one, in two spellings. -/
lemma ne_gt_eq_isLE (p q : EntityProperty) : (order p q != .gt) = (order p q).isLE := by
  cases order p q <;> rfl

section Lawful

variable [Std.TransCmp order]

/-- Of two properties one may stand before the other one. -/
lemma isLE_total (p q : EntityProperty) : ((order p q).isLE || (order q p).isLE) = true := by
  have swapped : order q p = (order p q).swap := Std.OrientedCmp.eq_swap
  rw [swapped]
  cases order p q <;> rfl

/-- Properties that are selected are in the same order, sorted before or after. -/
lemma filter_sort (selects : EntityProperty → Bool) :
    (order.sort ps).filter selects = order.sort (ps.filter selects) := by
  unfold sort
  simp only [ne_gt_eq_isLE]
  exact filter_mergeSort (fun _ _ _ => Std.TransCmp.isLE_trans) isLE_total selects ps

/-- What is in order stays as it is. -/
lemma sort_sort (ps : List EntityProperty) : order.sort (order.sort ps) = order.sort ps := by
  unfold sort
  simp only [ne_gt_eq_isLE]
  apply List.mergeSort_of_pairwise
  exact List.pairwise_mergeSort (fun _ _ _ => Std.TransCmp.isLE_trans) isLE_total ps

end Lawful

end PropertyOrder

end EntityModel
