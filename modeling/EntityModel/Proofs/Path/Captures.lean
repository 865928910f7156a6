import EntityModel.Proofs.Path.Cut
import EntityModel.Text.Pattern

/-!
# Parts as captures

A part of a source is what a pattern captures (`Path.part`): behind one delimiter, if there is one,
as few further delimiters as possible and then as many other characters as possible. Searched from
left to right, it captures the runs of a text, each with all of the delimiters before it but the
first (`Path.captures_of_isCut`).
-/

namespace EntityModel

open Text

/-! ### Characters of a class -/

namespace Text

variable {accepts : Char → Bool} {text front rest : List Char}

/-- A text that starts with a character outside the class has only the empty beginning. -/
lemma beginnings_of_head (head : ∀ c ∈ text.head?, accepts c = false) :
    beginnings accepts text = [([], text)] := by
  cases text with
  | nil => rfl
  | cons c cs =>
    rw [beginnings, head c rfl]
    rfl

/-- The shortest beginning is empty, and no other one is. -/
lemma exists_beginnings_eq (accepts : Char → Bool) (text : List Char) :
    ∃ longer, beginnings accepts text = ([], text) :: longer ∧ ∀ b ∈ longer, b.1 ≠ [] := by
  cases text with
  | nil => exact ⟨[], rfl, List.forall_mem_nil _⟩
  | cons c cs =>
    refine ⟨_, rfl, fun b hb => ?_⟩
    split at hb
    · obtain ⟨b, -, rfl⟩ := List.mem_map.mp hb
      exact List.cons_ne_nil _ _
    · cases hb

/-- The longest beginning is as long as the characters are of the class. -/
lemma exists_beginnings_append (front_accepted : ∀ c ∈ front, accepts c = true)
    (head : ∀ c ∈ rest.head?, accepts c = false) :
    ∃ shorter, beginnings accepts (front ++ rest) = shorter ++ [(front, rest)] := by
  induction front with
  | nil => exact ⟨[], beginnings_of_head head⟩
  | cons c front ih =>
    obtain ⟨hc, front_accepted⟩ := List.forall_mem_cons.mp front_accepted
    obtain ⟨shorter, eq⟩ := ih front_accepted
    rw [List.cons_append, beginnings, if_pos hc, eq, List.map_append]
    exact ⟨([], c :: (front ++ rest)) :: shorter.map fun b => (c :: b.1, b.2), rfl⟩

/-- A pattern that can be matched at the beginning of a text is found there. -/
lemma Pattern.find?_of_head? {p : Pattern} {m : Match} (head : (p.ways text).head? = some m) :
    p.find? text = some m := by
  cases text with
  | nil => exact head
  | cons c cs =>
    rw [Pattern.find?, head]
    rfl

end Text

namespace Path

/-- As few delimiters as possible, then as many other characters as possible. -/
def word (isDelimiter : Char → Bool) : Pattern :=
  .seq (.chars isDelimiter { isEager := false })
    (.chars (fun c => !isDelimiter c) { least := 1 })

/-- A part of a source: a word, which is captured, behind a delimiter if there is one. -/
def part (isDelimiter : Char → Bool) : Pattern :=
  .seq (.chars isDelimiter { most := some 1 }) (.group (word isDelimiter))

variable {isDelimiter : Char → Bool} {text before run rest : List Char} {c : Char}

/-! ### Words -/

/-- The ways to match what remains of a word behind its delimiters. -/
def runWays (isDelimiter : Char → Bool) (text : List Char) : List Match :=
  (Pattern.chars (fun c => !isDelimiter c) { least := 1 }).ways text

/-- A run does not start with a delimiter. -/
lemma runWays_of_head (head : ∀ c ∈ text.head?, isDelimiter c = true) :
    runWays isDelimiter text = [] := by
  have nothing : beginnings (fun c => !isDelimiter c) text = [([], text)] :=
    beginnings_of_head fun c hc => by rw [head c hc]; rfl
  rw [runWays, Pattern.ways, nothing]
  rfl

/-- A run is rather matched as a whole. -/
lemma head?_runWays (isRun : IsRun isDelimiter (before, run))
    (ends : ∀ c ∈ rest.head?, isDelimiter c = true) :
    (runWays isDelimiter (run ++ rest)).head? = some ⟨[], run, rest⟩ := by
  have accepted : ∀ c ∈ run, (!isDelimiter c) = true := fun c hc => by
    rw [isRun.others c hc]
    rfl
  have stops : ∀ c ∈ rest.head?, (!isDelimiter c) = false := fun c hc => by rw [ends c hc]; rfl
  obtain ⟨shorter, eq⟩ := exists_beginnings_append accepted stops
  have long : 1 ≤ run.length := List.length_pos_iff.mpr isRun.ne_nil
  rw [runWays, Pattern.ways, eq, List.filter_append]
  simp [Repetition.allows, long]

/-- A word is matched by some delimiters and a way to match a run behind them. -/
lemma ways_word (text : List Char) : (word isDelimiter).ways text =
    (beginnings isDelimiter text).flatMap fun b =>
      (runWays isDelimiter b.2).map fun n => ⟨n.captured, b.1 ++ n.matched, n.rest⟩ := by
  have all : (beginnings isDelimiter text).filter (fun b => Repetition.allows
      { isEager := false } b.1.length) = beginnings isDelimiter text :=
    List.filter_eq_self.mpr fun b _ => by simp [Repetition.allows]
  rw [word, Pattern.ways, Pattern.ways, all]
  simp [List.flatMap_map, runWays]

/-- Behind one more delimiter a word is matched in the same ways. -/
lemma ways_word_cons (hc : isDelimiter c = true) : (word isDelimiter).ways (c :: text) =
    ((word isDelimiter).ways text).map fun n => ⟨n.captured, c :: n.matched, n.rest⟩ := by
  have nothing : runWays isDelimiter (c :: text) = [] :=
    runWays_of_head fun d hd => by cases hd; exact hc
  rw [ways_word, ways_word, beginnings, if_pos hc, List.flatMap_cons, nothing, List.map_nil,
    List.nil_append, List.flatMap_map, List.map_flatMap]
  simp [Function.comp_def]

/-- There is no word in delimiters alone. -/
lemma ways_word_of_delimiters (delimiters : ∀ c ∈ text, isDelimiter c = true) :
    (word isDelimiter).ways text = [] := by
  induction text with
  | nil => rfl
  | cons c cs ih =>
    obtain ⟨hc, delimiters⟩ := List.forall_mem_cons.mp delimiters
    rw [ways_word_cons hc, ih delimiters]
    rfl

/-- A word is matched with all delimiters before its run. -/
lemma head?_ways_word (isRun : IsRun isDelimiter (before, run))
    (ends : ∀ c ∈ rest.head?, isDelimiter c = true) :
    ((word isDelimiter).ways (before ++ (run ++ rest))).head? =
      some ⟨[], before ++ run, rest⟩ := by
  have delimiters : ∀ c ∈ before, isDelimiter c = true := isRun.delimiters
  induction before with
  | nil =>
    have head : ∀ c ∈ (run ++ rest).head?, isDelimiter c = false := by
      obtain ⟨c, cs, rfl⟩ := List.exists_cons_of_ne_nil isRun.ne_nil
      rintro d ⟨⟩
      exact isRun.others c List.mem_cons_self
    rw [List.nil_append, ways_word, beginnings_of_head head]
    simp [head?_runWays isRun ends]
  | cons c before ih =>
    obtain ⟨hc, delimiters⟩ := List.forall_mem_cons.mp delimiters
    have shorter := ih ⟨delimiters, isRun.ne_nil, isRun.others⟩ delimiters
    rw [List.cons_append, ways_word_cons hc, List.head?_map, shorter]
    rfl

/-! ### Parts -/

/-- One delimiter is rather taken than none. -/
lemma ways_delimiter (hc : isDelimiter c = true) :
    (Pattern.chars isDelimiter { most := some 1 }).ways (c :: text) =
      [⟨[], [c], text⟩, ⟨[], [], c :: text⟩] := by
  obtain ⟨longer, eq, longer_ne⟩ := exists_beginnings_eq isDelimiter text
  have too_long : (longer.map fun b => (c :: b.1, b.2)).filter (fun b =>
      Repetition.allows { most := some 1 } b.1.length) = [] := by
    refine List.filter_eq_nil_iff.mpr (List.forall_mem_map.mpr fun b hb => ?_)
    simpa [Repetition.allows] using longer_ne b hb
  rw [Pattern.ways, beginnings, if_pos hc, eq, List.map_cons, List.filter_cons_of_pos rfl,
    List.filter_cons_of_pos rfl, too_long]
  rfl

/-- An optional delimiter is passed over where there is none. -/
lemma ways_no_delimiter (head : ∀ c ∈ text.head?, isDelimiter c = false) :
    (Pattern.chars isDelimiter { most := some 1 }).ways text = [⟨[], [], text⟩] := by
  rw [Pattern.ways, beginnings_of_head head]
  rfl

/-- A part is matched where a run comes, with all delimiters before the run. -/
lemma head?_ways_part (isRun : IsRun isDelimiter (before, run))
    (ends : ∀ c ∈ rest.head?, isDelimiter c = true) :
    ((part isDelimiter).ways (before ++ (run ++ rest))).head? =
      some ⟨separated (before, run), before ++ run, rest⟩ := by
  cases before with
  | nil =>
    -- the run starts at once, so no delimiter is passed and none is captured
    have head : ∀ c ∈ (run ++ rest).head?, isDelimiter c = false := by
      obtain ⟨c, cs, rfl⟩ := List.exists_cons_of_ne_nil isRun.ne_nil
      rintro d ⟨⟩
      exact isRun.others c List.mem_cons_self
    have whole := head?_ways_word isRun ends
    rw [List.nil_append] at whole
    rw [part, Pattern.ways, List.nil_append, ways_no_delimiter head]
    simp [Pattern.ways, whole, separated]
  | cons c before =>
    obtain ⟨hc, delimiters⟩ := List.forall_mem_cons.mp isRun.delimiters
    -- the first delimiter is passed, and the word starts with those behind it
    have shorter : IsRun isDelimiter (before, run) := ⟨delimiters, isRun.ne_nil, isRun.others⟩
    have behind := head?_ways_word shorter ends
    rw [part, Pattern.ways, List.cons_append, ways_delimiter hc]
    simp [Pattern.ways, behind, separated]

/-- There is no part in delimiters alone. -/
lemma ways_part_of_delimiters (delimiters : ∀ c ∈ text, isDelimiter c = true) :
    (part isDelimiter).ways text = [] := by
  cases text with
  | nil => rfl
  | cons c cs =>
    obtain ⟨hc, others⟩ := List.forall_mem_cons.mp delimiters
    have here := ways_word_of_delimiters delimiters
    have behind := ways_word_of_delimiters others
    rw [part, Pattern.ways, ways_delimiter hc]
    simp [Pattern.ways, here, behind]

/-- No part is found in delimiters alone, wherever the search starts. -/
lemma find?_part_of_delimiters (delimiters : ∀ c ∈ text, isDelimiter c = true) :
    (part isDelimiter).find? text = none := by
  induction text with
  | nil => rfl
  | cons c cs ih =>
    have further := ih (List.forall_mem_cons.mp delimiters).2
    rw [Pattern.find?, ways_part_of_delimiters delimiters, further]
    rfl

/-- The pattern captures each run of a text with the delimiters before it but the first one. -/
theorem captures_of_isCut {found : List (List Char × List Char)}
    (cut : IsCut isDelimiter text found) :
    (part isDelimiter).captures text = found.map separated := by
  induction cut with
  | trailing delimiters =>
    rw [Pattern.captures, find?_part_of_delimiters delimiters]
    rfl
  | @run before run rest more isRun ends _ ih =>
    have shorter : rest.length < (before ++ (run ++ rest)).length := by
      have run_pos : 0 < run.length := List.length_pos_iff.mpr isRun.ne_nil
      simp only [List.length_append]
      omega
    rw [Pattern.captures, Pattern.find?_of_head? (head?_ways_part isRun ends)]
    dsimp only
    rw [if_pos shorter, ih]
    rfl

end Path

end EntityModel
