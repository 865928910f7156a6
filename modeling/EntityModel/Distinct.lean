/-!
# First occurrences

Where several items share a key, the first one counts.
-/

namespace EntityModel

variable {α κ : Type} [BEq κ]

/-- The items whose key is not among `seen` and not the key of an earlier item. -/
def distinctOn (key : α → κ) (seen : List κ) : List α → List α
  | [] => []
  | a :: as =>
    if seen.contains (key a) then distinctOn key seen as
    else a :: distinctOn key (key a :: seen) as

/-- What is kept was in the list. -/
theorem mem_of_mem_distinctOn {key : α → κ} {seen : List κ} {a : α} {as : List α}
    (h : a ∈ distinctOn key seen as) : a ∈ as := by
  induction as generalizing seen with
  | nil => simp [distinctOn] at h
  | cons b bs ih =>
    unfold distinctOn at h
    split at h
    · exact List.mem_cons_of_mem _ (ih h)
    · rcases List.mem_cons.mp h with rfl | h
      · exact List.mem_cons_self
      · exact List.mem_cons_of_mem _ (ih h)

variable [LawfulBEq κ]

/-- No item with a key that was seen is kept. -/
theorem key_notMem_of_mem_distinctOn {key : α → κ} {seen : List κ} {a : α} {as : List α}
    (h : a ∈ distinctOn key seen as) : key a ∉ seen := by
  induction as generalizing seen with
  | nil => simp [distinctOn] at h
  | cons b bs ih =>
    unfold distinctOn at h
    split at h
    · exact ih h
    · rename_i hb
      rcases List.mem_cons.mp h with rfl | h
      · simpa using hb
      · exact fun ha => ih h (List.mem_cons_of_mem _ ha)

/-- Every key that was not seen is that of a kept item. -/
theorem exists_mem_distinctOn {key : α → κ} {seen : List κ} {a : α} {as : List α} (h : a ∈ as)
    (hs : key a ∉ seen) : ∃ b ∈ distinctOn key seen as, key b = key a := by
  induction as generalizing seen with
  | nil => simp at h
  | cons c cs ih =>
    unfold distinctOn
    split
    · rename_i hc
      rcases List.mem_cons.mp h with rfl | h
      · exact absurd (by simpa using hc) hs
      · exact ih h hs
    · by_cases hk : key c = key a
      · exact ⟨c, List.mem_cons_self, hk⟩
      · rcases List.mem_cons.mp h with rfl | h
        · exact absurd rfl hk
        · have hs' : key a ∉ key c :: seen := by simp [hs, Ne.symm hk]
          obtain ⟨b, hb, hba⟩ := ih h hs'
          exact ⟨b, List.mem_cons_of_mem _ hb, hba⟩

/-- The keys of the kept items are pairwise different. -/
theorem pairwise_distinctOn (key : α → κ) (seen : List κ) (as : List α) :
    (distinctOn key seen as).Pairwise fun a b => key a ≠ key b := by
  induction as generalizing seen with
  | nil => exact List.Pairwise.nil
  | cons c cs ih =>
    unfold distinctOn
    split
    · exact ih seen
    · refine List.Pairwise.cons (fun b hb hbc => ?_) (ih _)
      exact key_notMem_of_mem_distinctOn hb (by simp [hbc])

end EntityModel
