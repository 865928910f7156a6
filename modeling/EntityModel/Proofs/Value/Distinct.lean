import EntityModel.Proofs.Value.Hash

/-!
# Sets of given values

A set that is made of values keeps the first of those that are equal, where it was met
(`Value.distinct_eq_firsts`). So it has an equal of each of the values, and no two that are equal.
It does not depend on the order of the values as far as equality and hashes can tell
(`Value.setOf_firsts`).
-/

namespace EntityModel.Value

variable {values others : List Value} {v x : Value}

/-- The values that no value before them equals, in order. -/
def firsts (values : List Value) : List Value :=
  (values.zipIdx.filter fun (v, i) => ∀ u ∈ values.take i, equals u v = false).map (·.1)

/-! ### One further value -/

/-- What comes behind a value has no part in whether it is a first one. -/
lemma firsts_concat (values : List Value) (v : Value) :
    firsts (values ++ [v]) =
      if ∀ u ∈ values, equals u v = false then firsts values ++ [v] else firsts values := by
  have before : (values.zipIdx.filter fun (w, i) =>
        ∀ u ∈ (values ++ [v]).take i, equals u w = false) =
      values.zipIdx.filter fun (w, i) => ∀ u ∈ values.take i, equals u w = false := by
    refine List.filter_congr fun (w, i) place => ?_
    have bound : i < values.length := by simpa using (List.mem_zipIdx place).2.1
    dsimp only
    rw [List.take_append_of_le_length bound.le]
  unfold firsts
  rw [List.zipIdx_append, List.filter_append, before, List.map_append]
  split <;> simp_all

/-- Every value has an equal among those that are kept. -/
lemma exists_kept (hv : v ∈ values) : ∃ x ∈ distinct values, equals x v = true := by
  induction values using List.reverseRecOn with
  | nil => cases hv
  | append_singleton values w ih =>
    rw [distinct_concat]
    split
    · rename_i found
      rcases List.mem_append.mp hv with old | new
      · exact ih old
      · rw [List.mem_singleton.mp new]
        rw [foundIn_eq_any] at found
        exact List.any_eq_true.mp found
    · rcases List.mem_append.mp hv with old | new
      · obtain ⟨x, kept, equal⟩ := ih old
        exact ⟨x, List.mem_append_left _ kept, equal⟩
      · exact ⟨w, List.mem_append_right _ List.mem_cons_self,
          List.mem_singleton.mp new ▸ equals_refl w⟩

/-- A value has an equal among those that are kept exactly if it has one among the given values. -/
lemma foundIn_distinct (v : Value) (values : List Value) :
    foundIn v (distinct values) = true ↔ ∃ u ∈ values, equals u v = true := by
  rw [foundIn_eq_any, List.any_eq_true]
  constructor
  · rintro ⟨x, kept, equal⟩
    exact ⟨x, mem_of_mem_distinct kept, equal⟩
  · rintro ⟨u, hu, equal⟩
    obtain ⟨x, kept, first⟩ := exists_kept hu
    exact ⟨x, kept, equals_trans first equal⟩

/-- The values that are kept are the first ones of each kind. -/
theorem distinct_eq_firsts (values : List Value) : distinct values = firsts values := by
  induction values using List.reverseRecOn with
  | nil => rfl
  | append_singleton values v ih =>
    rw [distinct_concat, firsts_concat, ih]
    by_cases known : ∃ u ∈ values, equals u v = true
    · have found := (foundIn_distinct v values).mpr known
      rw [if_pos (ih ▸ found), if_neg (by simpa using known)]
    · have new : ¬ foundIn v (distinct values) = true := fun found =>
        known ((foundIn_distinct v values).mp found)
      rw [if_neg (ih ▸ new), if_pos (by simpa using known)]

/-! ### Well-formed values -/

/-- Values in another order make an equal set. -/
lemma equals_setOf_of_perm (wellFormed : ∀ v ∈ values, v.IsWellFormed)
    (perm : values.Perm others) : equals (setOf values) (setOf others) = true := by
  have wellFormed' : ∀ v ∈ others, v.IsWellFormed := fun v hv => wellFormed v (perm.mem_iff.mpr hv)
  refine (equals_set_iff_each (.setOf wellFormed) (.setOf wellFormed')).mpr ⟨?_, ?_⟩
  · intro x kept
    exact exists_kept (perm.mem_iff.mp (mem_of_mem_distinct kept))
  · intro y kept
    exact exists_kept (perm.mem_iff.mpr (mem_of_mem_distinct kept))

/-- The set of well-formed values consists of those that equal none before them, in order. They are
pairwise unequal, and each of the values has an equal among them. The values in any other order make
an equal set of the same hash. -/
theorem setOf_firsts (wellFormed : ∀ v ∈ values, v.IsWellFormed) :
    setOf values = set (firsts values) ∧
      ((firsts values).Pairwise fun x y => equals x y = false ∧ equals y x = false) ∧
      (∀ v ∈ values, ∃ x ∈ firsts values, equals x v = true ∧ equals v x = true) ∧
      ∀ others, values.Perm others →
        equals (setOf values) (setOf others) = true ∧
          equals (setOf others) (setOf values) = true ∧
          feed (setOf values) = feed (setOf others) := by
  have comm {x y : Value} (hx : x ∈ values) (hy : y ∈ values) : equals x y = equals y x :=
    equals_comm (wellFormed x hx) (wellFormed y hy)
  have kept := distinct_eq_firsts values
  refine ⟨congrArg set kept, ?_, ?_, ?_⟩
  · have apart : (distinct values).Pairwise fun x y => equals x y = false :=
      holdsDistinct_setOf values
    rw [← kept]
    -- of two values that are kept the earlier one is unequal to the later one, and so back
    refine apart.imp_of_mem fun hx hy differ => ⟨differ, ?_⟩
    rw [← comm (mem_of_mem_distinct hx) (mem_of_mem_distinct hy)]
    exact differ
  · intro v hv
    obtain ⟨x, hx, equal⟩ := exists_kept hv
    rw [← kept]
    exact ⟨x, hx, equal, (comm (mem_of_mem_distinct hx) hv).symm.trans equal⟩
  · intro others perm
    have equal := equals_setOf_of_perm wellFormed perm
    have wellFormed' : ∀ v ∈ others, v.IsWellFormed :=
      fun v hv => wellFormed v (perm.mem_iff.mpr hv)
    exact ⟨equal, equals_setOf_of_perm wellFormed' perm.symm, feed_eq_of_equals equal⟩

namespace Sample

/-- Readings of four days, of which the third and the fourth ones repeat earlier ones. -/
def days : List Value :=
  [set [integer 1, float .nan], integer 2, set [float otherNaN, integer 1], integer 2]

/-- The days are well-formed. -/
lemma days_wellFormed : ∀ v ∈ days, v.IsWellFormed := by
  unfold IsWellFormed
  simp [days, parts, partsEach, HoldsDistinct, equals]

end Sample

/-- Of four days the first two are kept, and in the opposite order the days make an equal set, which
keeps the last two. -/
theorem setOf_firsts_days :
    (∀ v ∈ Sample.days, v.IsWellFormed) ∧
      setOf Sample.days = set [set [integer 1, float .nan], integer 2] ∧
      setOf Sample.days.reverse = set [integer 2, set [float Sample.otherNaN, integer 1]] ∧
      equals (setOf Sample.days) (setOf Sample.days.reverse) = true ∧
      feed (setOf Sample.days) = feed (setOf Sample.days.reverse) := by
  have nan_key : Sample.otherNaN.key = Binary64.nan.key := by decide
  have wellFormed' : ∀ v ∈ Sample.days.reverse, v.IsWellFormed := fun v hv =>
    Sample.days_wellFormed v (List.mem_reverse.mp hv)
  obtain ⟨made, -, -, permuted⟩ := setOf_firsts Sample.days_wellFormed
  obtain ⟨made', -⟩ := setOf_firsts wellFormed'
  obtain ⟨equal, -, same⟩ := permuted _ (List.reverse_perm _).symm
  refine ⟨Sample.days_wellFormed, ?_, ?_, equal, same⟩
  · rw [made]
    simp [firsts, Sample.days, equals, eachFoundIn, foundIn, nan_key, List.zipIdx]
  · rw [made']
    simp [firsts, Sample.days, equals, eachFoundIn, foundIn, nan_key, List.zipIdx]

end EntityModel.Value
