import EntityModel.Path.Parts
import Mathlib.Tactic.Lemma

/-!
# What parts are made of

The runs of a text and the delimiters before them make up the text, but for delimiters at its end
(`Path.runs_append`). So no part of a source is empty, and together the parts are not longer than
the source.
-/

namespace EntityModel.Path

variable {isDelimiter : Char → Bool} {text : List Char}

/-! ### Runs -/

/-- What one more character makes of the runs of a text: a delimiter is dropped or joins the
delimiters before the first run, any other character joins the first run or is one itself. -/
inductive RunsStep (isDelimiter : Char → Bool) (c : Char) :
    List (List Char × List Char) → List (List Char × List Char) → Prop
  | dropped : isDelimiter c = true → RunsStep isDelimiter c [] []
  | joinsDelimiters {before run : List Char} {more : List (List Char × List Char)} :
      isDelimiter c = true →
      RunsStep isDelimiter c ((before, run) :: more) ((c :: before, run) :: more)
  | joinsRun {run : List Char} {more : List (List Char × List Char)} :
      isDelimiter c = false → RunsStep isDelimiter c (([], run) :: more) (([], c :: run) :: more)
  | startsRun {found : List (List Char × List Char)} :
      isDelimiter c = false → (∀ next ∈ found.head?, next.1 ≠ []) →
      RunsStep isDelimiter c found (([], [c]) :: found)

/-- One more character in front changes the runs by one step. -/
lemma runs_cons (isDelimiter : Char → Bool) (c : Char) (cs : List Char) :
    RunsStep isDelimiter c (runs isDelimiter cs) (runs isDelimiter (c :: cs)) := by
  rw [runs]
  generalize runs isDelimiter cs = found
  by_cases hc : isDelimiter c = true
  · split
    · rw [if_pos hc]
      exact .dropped hc
    · rw [if_pos hc]
      exact .joinsDelimiters hc
  · rw [Bool.not_eq_true] at hc
    simp only [hc, Bool.false_eq_true, if_false]
    split
    · exact .startsRun hc fun next h => by cases h
    -- an empty front means that the character stands right before the run
    · split
      · exact .joinsRun hc
      · rename_i before_ne
        refine .startsRun hc fun next h => ?_
        cases h
        exact before_ne

/-- A run with the delimiters before it, as they stand in a text. -/
structure IsRun (isDelimiter : Char → Bool) (run : List Char × List Char) : Prop where
  delimiters : ∀ c ∈ run.1, isDelimiter c = true
  ne_nil : run.2 ≠ []
  others : ∀ c ∈ run.2, isDelimiter c = false

/-- Every run found is a run: delimiters, then other characters, of which there are some. -/
lemma isRun_of_mem_runs (isDelimiter : Char → Bool) (text : List Char) :
    ∀ run ∈ runs isDelimiter text, IsRun isDelimiter run := by
  induction text with
  | nil => exact fun run h => absurd h List.not_mem_nil
  | cons c cs ih =>
    have step := runs_cons isDelimiter c cs
    generalize runs isDelimiter (c :: cs) = extended at step ⊢
    generalize runs isDelimiter cs = found at step ih
    cases step with
    | dropped => exact ih
    | joinsDelimiters hc =>
      obtain ⟨first, more⟩ := List.forall_mem_cons.mp ih
      refine List.forall_mem_cons.mpr ⟨?_, more⟩
      exact ⟨List.forall_mem_cons.mpr ⟨hc, first.delimiters⟩, first.ne_nil, first.others⟩
    | joinsRun hc =>
      obtain ⟨first, more⟩ := List.forall_mem_cons.mp ih
      refine List.forall_mem_cons.mpr ⟨?_, more⟩
      exact ⟨by simp, by simp, List.forall_mem_cons.mpr ⟨hc, first.others⟩⟩
    | startsRun hc => exact List.forall_mem_cons.mpr ⟨⟨by simp, by simp, by simpa using hc⟩, ih⟩

/-- The runs with the delimiters before them make up a text up to its last run. -/
theorem runs_append (isDelimiter : Char → Bool) (text : List Char) :
    ∃ trailing, (∀ c ∈ trailing, isDelimiter c = true) ∧
      (runs isDelimiter text).flatMap (fun run => run.1 ++ run.2) ++ trailing = text := by
  induction text with
  | nil => exact ⟨[], by simp, rfl⟩
  | cons c cs ih =>
    obtain ⟨trailing, delimiters, split⟩ := ih
    have step := runs_cons isDelimiter c cs
    generalize runs isDelimiter (c :: cs) = extended at step ⊢
    generalize runs isDelimiter cs = found at step split
    rw [← split]
    cases step with
    | dropped hc => exact ⟨c :: trailing, List.forall_mem_cons.mpr ⟨hc, delimiters⟩, rfl⟩
    | joinsDelimiters | joinsRun | startsRun => exact ⟨trailing, delimiters, rfl⟩

/-- A text has a run if not all of its characters are delimiters. -/
lemma exists_runs_eq {ch : Char} (mem : ch ∈ text) (other : isDelimiter ch = false) :
    ∃ before run more, runs isDelimiter text = (before, run) :: more := by
  cases runs_eq : runs isDelimiter text with
  | cons first more => exact ⟨first.1, first.2, more, rfl⟩
  | nil =>
    -- without a run, the text is what trails behind the last one
    obtain ⟨trailing, delimiters, rebuilt⟩ := runs_append isDelimiter text
    rw [runs_eq, List.flatMap_nil, List.nil_append] at rebuilt
    rw [← rebuilt] at mem
    rw [delimiters ch mem] at other
    cases other

/-- Runs have no more characters than the text. -/
lemma runs_length (isDelimiter : Char → Bool) (text : List Char) :
    ((runs isDelimiter text).flatMap fun run => run.1 ++ run.2).length ≤ text.length := by
  obtain ⟨trailing, -, split⟩ := runs_append isDelimiter text
  have lengths := congrArg List.length split
  rw [List.length_append] at lengths
  omega

/-- A run without its first delimiter is no longer than before. -/
lemma separated_length (run : List Char × List Char) :
    (separated run).length ≤ run.1.length + run.2.length := by
  rw [separated, List.length_append, List.length_drop]
  omega

/-- A run without its first delimiter is not empty. -/
lemma separated_ne_nil {run : List Char × List Char} (h : IsRun isDelimiter run) :
    separated run ≠ [] :=
  List.append_ne_nil_of_right_ne_nil _ h.ne_nil

/-- Taking markers out does not add characters. -/
lemma removeMarker_length (letter : Char) (text : List Char) :
    (removeMarker letter text).length ≤ text.length := by
  fun_induction removeMarker letter text with
  | case1 => exact Nat.le_refl _
  | case2 cs ih => exact Nat.le_trans ih (Nat.le_add_right _ 2)
  | case3 c cs hc ih => exact Nat.succ_le_succ ih
  | case4 c cs h ih => exact Nat.succ_le_succ ih

/-! ### Parts -/

/-- Every other character is no delimiter. -/
lemma isUnderscoreOrDot_eq_false {c : Char} (no_underscore : c ≠ '_') (no_dot : c ≠ '.') :
    isUnderscoreOrDot c = false := by
  rw [isUnderscoreOrDot, beq_false_of_ne no_underscore, beq_false_of_ne no_dot]
  rfl

/-- Runs without their first delimiters have no more characters than before. -/
lemma flatten_separated_length (found : List (List Char × List Char)) :
    (found.map separated).flatten.length ≤ (found.flatMap fun run => run.1 ++ run.2).length := by
  induction found with
  | nil => exact Nat.le_refl _
  | cons run found ih =>
    have first := separated_length run
    simp only [List.map_cons, List.flatten_cons, List.flatMap_cons, List.length_append]
    omega

/-- Parts are not empty. -/
lemma ne_nil_of_mem_parts {source part : List Char} (h : part ∈ parts source) : part ≠ [] := by
  unfold parts at h
  split at h
  · obtain ⟨run, hrun, rfl⟩ := List.mem_map.mp h
    exact separated_ne_nil (isRun_of_mem_runs _ _ run hrun)
  · split at h
    · cases h
    · rename_i before run more hruns
      have isRun := isRun_of_mem_runs isUnderscoreOrDot source
      rw [hruns] at isRun
      obtain ⟨first, later⟩ := List.forall_mem_cons.mp isRun
      rcases List.mem_cons.mp h with rfl | h
      · exact List.append_ne_nil_of_right_ne_nil _ first.ne_nil
      · obtain ⟨r, hr, rfl⟩ := List.mem_map.mp h
        exact separated_ne_nil (later r hr)

/-- Parts have no more characters than the source. -/
lemma flatten_parts_length (source : List Char) :
    (parts source).flatten.length ≤ source.length := by
  unfold parts
  split
  · calc _ ≤ _ := flatten_separated_length _
      _ ≤ _ := runs_length _ _
      _ ≤ _ := removeMarker_length 'E' _
      _ ≤ _ := removeMarker_length 'Q' _
  · have total := runs_length isUnderscoreOrDot source
    split
    · exact Nat.zero_le _
    · rename_i before run more hruns
      have rest := flatten_separated_length more
      rw [hruns] at total
      simp only [List.flatten_cons, List.flatMap_cons, List.length_append] at total ⊢
      omega

end EntityModel.Path
