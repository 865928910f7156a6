import EntityModel.Proofs.Path.Dotted

/-!
# Cutting a text into runs

A text consists of its maximal runs of characters that are no delimiters, each behind the delimiters
directly before it, and of delimiters at its end (`Path.IsCut`). There is exactly one such cut of a
text, and `Path.runs` finds it (`Path.isCut_iff`).
-/

namespace EntityModel.Path

/-- A text is cut into its maximal runs, each with all of the delimiters before it: a run goes on to
the end of the text or up to a delimiter. Delimiters at the end of the text are dropped. -/
inductive IsCut (isDelimiter : Char → Bool) :
    List Char → List (List Char × List Char) → Prop where
  | trailing {text} :
    (∀ c ∈ text, isDelimiter c = true) →
    IsCut isDelimiter text []
  | run {before run rest more} :
    IsRun isDelimiter (before, run) →
    (∀ c ∈ rest.head?, isDelimiter c = true) →
    IsCut isDelimiter rest more →
    IsCut isDelimiter (before ++ (run ++ rest)) ((before, run) :: more)

variable {isDelimiter : Char → Bool} {text before run : List Char}
  {found : List (List Char × List Char)}

/-! ### Runs of a cut text -/

/-- Delimiters alone make up no run. -/
lemma runs_of_delimiters (delimiters : ∀ c ∈ text, isDelimiter c = true) :
    runs isDelimiter text = [] := by
  induction text with
  | nil => rfl
  | cons c cs ih =>
    obtain ⟨hc, delimiters⟩ := List.forall_mem_cons.mp delimiters
    rw [runs, ih delimiters]
    exact if_pos hc

/-- Delimiters before the first run belong to it. -/
lemma runs_append_of_delimiters (delimiters : ∀ c ∈ before, isDelimiter c = true)
    {more : List (List Char × List Char)} (found : runs isDelimiter text = ([], run) :: more) :
    runs isDelimiter (before ++ text) = (before, run) :: more := by
  induction before with
  | nil => exact found
  | cons c before ih =>
    obtain ⟨hc, delimiters⟩ := List.forall_mem_cons.mp delimiters
    exact runs_delimiter hc (ih delimiters)

/-- The first run stands behind delimiters in a text that begins with one. -/
lemma fst_ne_nil_of_head (head : ∀ c ∈ text.head?, isDelimiter c = true) :
    ∀ next ∈ (runs isDelimiter text).head?, next.1 ≠ [] := by
  cases text with
  | nil => exact nofun
  | cons c cs =>
    have hc := head c rfl
    have step := runs_cons isDelimiter c cs
    generalize runs isDelimiter (c :: cs) = extended at step ⊢
    generalize runs isDelimiter cs = found at step
    cases step with
    | dropped => exact nofun
    | joinsDelimiters =>
      rintro next ⟨⟩
      exact List.cons_ne_nil _ _
    | joinsRun other | startsRun other =>
      rw [hc] at other
      cases other

/-- The cut of a text consists of its runs. -/
lemma IsCut.runs_eq (cut : IsCut isDelimiter text found) : runs isDelimiter text = found := by
  induction cut with
  | trailing delimiters => exact runs_of_delimiters delimiters
  | run isRun ends _ ih =>
    rw [← ih]
    exact runs_append_of_delimiters isRun.delimiters
      (runs_append_of_others isRun.ne_nil isRun.others (fst_ne_nil_of_head ends))

/-! ### The cut of a text -/

/-- A text begins with a delimiter, or is empty, if its first run stands behind delimiters. -/
lemma IsCut.head (cut : IsCut isDelimiter text found) (apart : ∀ next ∈ found.head?, next.1 ≠ []) :
    ∀ c ∈ text.head?, isDelimiter c = true := by
  intro c hc
  cases cut with
  | trailing delimiters => exact delimiters c (List.mem_of_mem_head? hc)
  | @run before run rest more isRun =>
    obtain ⟨d, before, rfl⟩ := List.exists_cons_of_ne_nil (apart _ rfl)
    cases hc
    exact isRun.delimiters c List.mem_cons_self

/-- The runs of a text are a cut of it. -/
lemma isCut_runs (isDelimiter : Char → Bool) (text : List Char) :
    IsCut isDelimiter text (runs isDelimiter text) := by
  induction text with
  | nil => exact .trailing (List.forall_mem_nil _)
  | cons c cs ih =>
    have step := runs_cons isDelimiter c cs
    have isRun := isRun_of_mem_runs isDelimiter (c :: cs)
    generalize runs isDelimiter (c :: cs) = extended at step isRun ⊢
    generalize runs isDelimiter cs = found at step ih
    cases step with
    | dropped hc =>
      cases ih with
      | trailing delimiters => exact .trailing (List.forall_mem_cons.mpr ⟨hc, delimiters⟩)
    | joinsDelimiters | joinsRun =>
      cases ih with
      | run _ ends more => exact .run (isRun _ List.mem_cons_self) ends more
    | startsRun _ apart => exact .run (isRun _ List.mem_cons_self) (ih.head apart) ih

/-- A text has one cut, which consists of its runs. -/
theorem isCut_iff : IsCut isDelimiter text found ↔ runs isDelimiter text = found := by
  constructor
  · exact IsCut.runs_eq
  · rintro rfl
    exact isCut_runs isDelimiter text

end EntityModel.Path
