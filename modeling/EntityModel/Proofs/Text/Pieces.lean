import EntityModel.Proofs.Path.Dotted
import EntityModel.Text.Pieces

/-!
# Words between dots

A dotted text is cut into the words that were put together if no dot is in them
(`Text.pieces_dotted`), and nothing of it is trimmed if no blank is (`Text.trim_dotted`).
-/

namespace EntityModel.Text

variable {separator : Char} {cs : List Char} {ps : List (List Char)} {names : List String}

/-! ### Pieces -/

/-- The pieces are those into which a list is split at the separator. -/
lemma pieces_eq_splitOn (separator : Char) (cs : List Char) :
    pieces separator cs = cs.splitOn separator := by
  induction cs with
  | nil => rfl
  | cons c cs ih =>
    have further := ih ▸ pieces_ne_nil separator cs
    rw [pieces, ih, List.splitOn_cons_eq_if_modifyHead]
    simp only [beq_iff_eq]
    split
    · rfl
    · cases cut : cs.splitOn separator with
      | nil => exact absurd cut further
      | cons p ps => rfl

/-- The characters of joined pieces are separators or come from a piece. -/
lemma mem_intercalate {c : Char} (h : c ∈ [separator].intercalate ps) :
    c = separator ∨ ∃ p ∈ ps, c ∈ p := by
  induction ps with
  | nil => cases h
  | cons p ps ih =>
    cases ps with
    | nil =>
      rw [List.intercalate_singleton] at h
      exact .inr ⟨p, List.mem_cons_self, h⟩
    | cons q ps =>
      rw [List.intercalate_cons_cons, List.append_assoc, List.mem_append, List.mem_append,
        List.mem_singleton] at h
      rcases h with h | h | h
      · exact .inr ⟨p, List.mem_cons_self, h⟩
      · exact .inl h
      · exact (ih h).imp_right fun ⟨p', hp', hc⟩ => ⟨p', List.mem_cons_of_mem p hp', hc⟩

/-! ### Blanks -/

/-- Nothing is dropped from a text without blanks. -/
lemma dropWhile_of_none (h : ∀ c ∈ cs, isBlank c = false) : cs.dropWhile isBlank = cs := by
  cases cs with
  | nil => rfl
  | cons c cs => rw [List.dropWhile_cons, h c List.mem_cons_self, if_neg Bool.false_ne_true]

/-- A text without blanks is trimmed already. -/
lemma trim_of_none {s : String} (h : ∀ c ∈ s.toList, isBlank c = false) : trim s = s := by
  rw [trim, trimChars, dropWhile_of_none h,
    dropWhile_of_none fun c hc => h c (List.mem_reverse.mp hc), List.reverse_reverse,
    String.ofList_toList]

/-! ### Words -/

/-- A text that is not empty and has neither dots nor blanks in it. -/
structure IsWord (s : String) : Prop where
  ne_empty : s ≠ ""
  undotted : '.' ∉ s.toList
  unspaced : ∀ c ∈ s.toList, isBlank c = false

/-- Whether a text is a word can be read off its characters. -/
lemma isWord_iff {s : String} :
    IsWord s ↔ s ≠ "" ∧ (s.toList.all fun c => c != '.' && !isBlank c) = true := by
  simp only [List.all_eq_true, Bool.and_eq_true, bne_iff_ne, Bool.not_eq_true']
  constructor
  · rintro ⟨ne_empty, undotted, unspaced⟩
    exact ⟨ne_empty, fun c hc => ⟨fun dot => undotted (dot ▸ hc), unspaced c hc⟩⟩
  · rintro ⟨ne_empty, chars⟩
    exact ⟨ne_empty, fun dot => (chars _ dot).1 rfl, fun c hc => (chars c hc).2⟩

instance : DecidablePred IsWord := fun _ => decidable_of_iff _ isWord_iff.symm

/-- Dotted words are trimmed already. -/
theorem trim_dotted (words : ∀ n ∈ names, IsWord n) :
    trim (Path.dotted names) = Path.dotted names := by
  refine trim_of_none fun c hc => ?_
  rw [Path.toList_dotted] at hc
  rcases mem_intercalate hc with rfl | ⟨p, hp, hc⟩
  · decide
  · obtain ⟨n, hn, rfl⟩ := List.mem_map.mp hp
    exact (words n hn).unspaced c hc

/-- Dotted words are cut into the words again. -/
theorem pieces_dotted (words : ∀ n ∈ names, IsWord n) (names_ne : names ≠ []) :
    (pieces '.' (Path.dotted names).toList).map String.ofList = names := by
  rw [Path.toList_dotted, pieces_eq_splitOn, List.splitOn_intercalate]
  · simp
  · intro p hp
    obtain ⟨n, hn, rfl⟩ := List.mem_map.mp hp
    exact (words n hn).undotted
  · simpa using names_ne

/-- Dotted words are not empty. -/
lemma dotted_ne_empty (words : ∀ n ∈ names, IsWord n) (names_ne : names ≠ []) :
    Path.dotted names ≠ "" := by
  intro empty
  have cut := pieces_dotted words names_ne
  rw [empty] at cut
  exact (words "" (cut ▸ List.mem_singleton_self _)).ne_empty rfl

end EntityModel.Text
