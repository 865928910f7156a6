import EntityModel.Proofs.Path.Captures
import EntityModel.Proofs.Path.Greedy
import Mathlib.Data.List.Chain

/-!
# Respelled sources

The parts of a source are its runs, of which nothing but single delimiters is lost. So it does not
matter which of the two delimiters stands between two parts of a source (`Path.parts_cut`), unless
the source is quoted: then its underscores belong to its parts (`Path.quoted_respelled`).
-/

namespace EntityModel.Path

variable {isDelimiter : Char → Bool} {text before run : List Char}
  {found : List (List Char × List Char)} {source other : String}

/-! ### Cut sources -/

/-- A quoted source without its markers. -/
def unmarked (source : List Char) : List Char :=
  removeMarker 'E' (removeMarker 'Q' source)

/-- The parts that runs make up if the first one keeps all delimiters before it. -/
def firstWhole : List (List Char × List Char) → List (List Char)
  | [] => []
  | (before, run) :: more => (before ++ run) :: more.map separated

/-- A quoted source is cut at its dots, and each run loses the first delimiter before it. -/
lemma parts_of_quoted (quoted : isQuoted source.toList = true) :
    parts source.toList = (runs isDot (unmarked source.toList)).map separated := by
  rw [parts, if_pos quoted, unmarked]

/-- Other sources are cut at underscores and dots, and the first run keeps all delimiters before it.
-/
lemma parts_of_unquoted (unquoted : isQuoted source.toList = false) :
    parts source.toList = firstWhole (runs isUnderscoreOrDot source.toList) := by
  rw [parts, unquoted, if_neg Bool.false_ne_true]
  cases runs isUnderscoreOrDot source.toList <;> rfl

/-- A delimiter in front of a text leaves the first run all the delimiters before it. -/
lemma map_separated_runs_cons {c : Char} (hc : isDelimiter c = true) :
    (runs isDelimiter (c :: text)).map separated = firstWhole (runs isDelimiter text) := by
  cases found : runs isDelimiter text with
  | nil =>
    rw [runs, found]
    dsimp only
    rw [if_pos hc]
    rfl
  | cons first more =>
    rw [runs_delimiter hc found]
    rfl

/-! ### Single delimiters -/

/-- A text without delimiters at its beginning or next to each other. -/
structure IsSinglyDelimited (isDelimiter : Char → Bool) (text : List Char) : Prop where
  head : ∀ c ∈ text.head?, isDelimiter c = false
  apart : text.IsChain fun c d => ¬(isDelimiter c = true ∧ isDelimiter d = true)

/-- There is one delimiter at most where no two stand side by side. -/
lemma drop_one_of_apart (delimiters : ∀ c ∈ before, isDelimiter c = true)
    (apart : before.IsChain fun c d => ¬(isDelimiter c = true ∧ isDelimiter d = true)) :
    before.drop 1 = [] := by
  match before with
  | [] | [_] => rfl
  | c :: d :: _ =>
    have both := (List.isChain_cons_cons.mp apart).1
    exact absurd ⟨delimiters c (by simp), delimiters d (by simp)⟩ both

/-- Without adjacent delimiters, nothing remains of the delimiters before a run. -/
lemma IsCut.map_separated (cut : IsCut isDelimiter text found)
    (apart : text.IsChain fun c d => ¬(isDelimiter c = true ∧ isDelimiter d = true)) :
    found.map separated = found.map (·.2) := by
  induction cut with
  | trailing => rfl
  | run isRun _ _ ih =>
    obtain ⟨first, further, -⟩ := List.isChain_append.mp apart
    obtain ⟨-, behind, -⟩ := List.isChain_append.mp further
    rw [List.map_cons, List.map_cons, ih behind, separated,
      drop_one_of_apart isRun.delimiters first, List.nil_append]

/-- With single delimiters, the parts are what lies between them. -/
lemma IsSinglyDelimited.firstWhole_eq (single : IsSinglyDelimited isDelimiter text) :
    firstWhole (runs isDelimiter text) = (runs isDelimiter text).map (·.2) := by
  have cut := isCut_runs isDelimiter text
  generalize runs isDelimiter text = found at cut
  cases cut with
  | trailing => rfl
  | @run before run rest more isRun _ cut =>
    obtain ⟨-, further, -⟩ := List.isChain_append.mp single.apart
    obtain ⟨-, behind, -⟩ := List.isChain_append.mp further
    cases before with
    | nil =>
      rw [firstWhole, cut.map_separated behind]
      rfl
    | cons c before =>
      have other := single.head c rfl
      rw [isRun.delimiters c List.mem_cons_self] at other
      cases other

/-- A singly delimited text without a run is empty. -/
lemma IsSinglyDelimited.eq_nil (single : IsSinglyDelimited isDelimiter text)
    (no_runs : runs isDelimiter text = []) : text = [] := by
  cases text with
  | nil => rfl
  | cons c cs =>
    obtain ⟨_, _, _, runs_eq⟩ := exists_runs_eq List.mem_cons_self (single.head c rfl)
    rw [no_runs] at runs_eq
    cases runs_eq

/-! ### Other delimiters -/

/-- A character, a dot in place of an underscore. -/
def inDots (c : Char) : Char :=
  if c = '_' then '.' else c

/-- Two sources are the same but for the choice between underscores and dots. -/
def IsRespelled (source other : String) : Prop :=
  other.toList.map inDots = source.toList.map inDots

instance : DecidableRel IsRespelled := fun _ _ => inferInstanceAs (Decidable (_ = _))

/-- The respelling of a delimiter is a delimiter. -/
lemma isUnderscoreOrDot_inDots (c : Char) :
    isUnderscoreOrDot (inDots c) = isUnderscoreOrDot c := by
  unfold inDots
  split
  · rename_i underscore
    rw [underscore]
    rfl
  · rfl

/-- Other characters are not respelled. -/
lemma inDots_of_other {c : Char} (hc : isUnderscoreOrDot c = false) : inDots c = c := by
  unfold inDots
  split
  · rename_i underscore
    rw [underscore] at hc
    cases hc
  · rfl

/-- A text without delimiters is not respelled. -/
lemma map_inDots_of_others (others : ∀ c ∈ text, isUnderscoreOrDot c = false) :
    text.map inDots = text :=
  (List.map_congr_left fun c hc => inDots_of_other (others c hc)).trans (List.map_id _)

/-- Only characters that are no delimiters become characters that are none. -/
lemma map_inDots_eq_iff {chars : List Char} (others : ∀ c ∈ chars, isUnderscoreOrDot c = false) :
    text.map inDots = chars ↔ text = chars := by
  constructor
  · rintro rfl
    refine (map_inDots_of_others fun c hc => ?_).symm
    rw [← isUnderscoreOrDot_inDots]
    exact others _ (List.mem_map_of_mem hc)
  · rintro rfl
    exact map_inDots_of_others others

/-- The respelling of a text is cut where the text is. -/
lemma IsCut.map_inDots (cut : IsCut isUnderscoreOrDot text found) :
    IsCut isUnderscoreOrDot (text.map inDots)
      (found.map fun run => (run.1.map inDots, run.2.map inDots)) := by
  have kept {cs : List Char} {b : Bool} (h : ∀ c ∈ cs, isUnderscoreOrDot c = b) :
      ∀ c ∈ cs.map inDots, isUnderscoreOrDot c = b :=
    List.forall_mem_map.mpr fun c hc => (isUnderscoreOrDot_inDots c).trans (h c hc)
  induction cut with
  | trailing delimiters => exact .trailing (kept delimiters)
  | @run before run rest more isRun ends _ ih =>
    rw [List.map_append, List.map_append]
    refine .run ⟨kept isRun.delimiters, ?_, kept isRun.others⟩ ?_ ih
    · exact fun empty => isRun.ne_nil (List.map_eq_nil_iff.mp empty)
    · intro c hc
      rw [List.head?_map] at hc
      obtain ⟨d, hd, rfl⟩ := Option.map_eq_some_iff.mp hc
      rw [isUnderscoreOrDot_inDots]
      exact ends d hd

/-- The characters between delimiters do not depend on which delimiters these are. -/
lemma snd_runs_inDots (text : List Char) :
    (runs isUnderscoreOrDot (text.map inDots)).map (·.2) =
      (runs isUnderscoreOrDot text).map (·.2) := by
  rw [(isCut_runs isUnderscoreOrDot text).map_inDots.runs_eq, List.map_map]
  refine List.map_congr_left fun run hrun => ?_
  exact map_inDots_of_others (isRun_of_mem_runs isUnderscoreOrDot text run hrun).others

/-- Delimiters are single in a text exactly if they are in its respelling. -/
lemma isSinglyDelimited_inDots : IsSinglyDelimited isUnderscoreOrDot (text.map inDots) ↔
    IsSinglyDelimited isUnderscoreOrDot text := by
  have head : (∀ c ∈ (text.map inDots).head?, isUnderscoreOrDot c = false) ↔
      ∀ c ∈ text.head?, isUnderscoreOrDot c = false := by
    cases text with
    | nil => rfl
    | cons c cs => simp [isUnderscoreOrDot_inDots]
  constructor
  · rintro ⟨first, apart⟩
    refine ⟨head.mp first, ?_⟩
    simpa only [List.isChain_map, isUnderscoreOrDot_inDots] using apart
  · rintro ⟨first, apart⟩
    refine ⟨head.mpr first, ?_⟩
    simpa only [List.isChain_map, isUnderscoreOrDot_inDots] using apart

/-- A quoted text stands between its markers on one line. -/
lemma isQuoted_iff : isQuoted text = true ↔
    ∃ front, text = ['\\', 'Q'] ++ front ++ ['\\', 'E'] ∧ '\n' ∉ front := by
  unfold isQuoted
  split
  · rename_i rest
    rw [Bool.and_eq_true, List.isSuffixOf_iff_suffix, Bool.not_eq_true', List.contains_eq_mem,
      decide_eq_false_iff_not]
    constructor
    · rintro ⟨⟨front, rfl⟩, one_line⟩
      exact ⟨front, rfl, fun h => one_line (List.mem_append_left _ h)⟩
    · rintro ⟨front, split, one_line⟩
      obtain rfl : rest = front ++ ['\\', 'E'] := by simpa using split
      exact ⟨⟨front, rfl⟩, by simpa using one_line⟩
  · rename_i unmarked
    refine iff_of_false Bool.false_ne_true ?_
    rintro ⟨front, rfl, -⟩
    exact unmarked (front ++ ['\\', 'E']) rfl

/-- Whether a source is quoted does not depend on its delimiters. -/
lemma isQuoted_inDots (text : List Char) : isQuoted (text.map inDots) = isQuoted text := by
  have opening : ∀ c ∈ ['\\', 'Q'], isUnderscoreOrDot c = false := by simp [isUnderscoreOrDot]
  have closing : ∀ c ∈ ['\\', 'E'], isUnderscoreOrDot c = false := by simp [isUnderscoreOrDot]
  -- neither delimiter is a line break, so respelling adds none and removes none
  have line_break {c : Char} : inDots c = '\n' ↔ c = '\n' := by
    have alone : [c].map inDots = ['\n'] ↔ [c] = ['\n'] :=
      map_inDots_eq_iff (by simp [isUnderscoreOrDot])
    simpa using alone
  rw [Bool.eq_iff_iff, isQuoted_iff, isQuoted_iff]
  constructor
  -- the markers have no delimiters, so they can be told apart in the respelled text
  · rintro ⟨front, split, one_line⟩
    obtain ⟨start, ending', rfl, start_eq, ending_eq⟩ := List.map_eq_append_iff.mp split
    obtain ⟨start', front', rfl, opening_eq, rfl⟩ := List.map_eq_append_iff.mp start_eq
    rw [(map_inDots_eq_iff opening).mp opening_eq, (map_inDots_eq_iff closing).mp ending_eq]
    refine ⟨front', rfl, fun h => one_line ?_⟩
    exact List.mem_map.mpr ⟨_, h, line_break.mpr rfl⟩
  · rintro ⟨front, rfl, one_line⟩
    refine ⟨front.map inDots, ?_, fun h => one_line ?_⟩
    · rw [List.map_append, List.map_append, map_inDots_of_others opening,
        map_inDots_of_others closing]
    · obtain ⟨c, hc, eq⟩ := List.mem_map.mp h
      rwa [← line_break.mp eq]

/-! ### Respelled sources -/

/-- What a source is resolved to is a matter of its parts, if it has any. -/
lemma resolve_of_parts_eq {c : Catalog} {owner : TypeRef} (parts_ne : parts source.toList ≠ [])
    (same : parts other.toList = parts source.toList) :
    resolve c other owner = resolve c source owner := by
  unfold resolve
  rw [same]
  cases folded : (parts source.toList).foldlM (resolvePart c owner) [] with
  | error e => rfl
  | ok segments =>
    have segments_ne := ne_nil_of_foldlM (fun _ => ne_nil_of_mem_parts) parts_ne folded
    obtain ⟨s, ss, rfl⟩ := List.exists_cons_of_ne_nil segments_ne
    rfl

/-- Spellings of one source are quoted both or neither. -/
lemma IsRespelled.isQuoted_eq (respelled : IsRespelled source other) :
    isQuoted other.toList = isQuoted source.toList := by
  rw [← isQuoted_inDots, respelled, isQuoted_inDots]

/-- A source with single delimiters that is not quoted has the parts that lie between them. -/
lemma IsSinglyDelimited.parts_eq (single : IsSinglyDelimited isUnderscoreOrDot source.toList)
    (unquoted : isQuoted source.toList = false) : parts source.toList =
      (runs isUnderscoreOrDot (source.toList.map inDots)).map (·.2) := by
  rw [parts_of_unquoted unquoted, single.firstWhole_eq, snd_runs_inDots]

/-- Spellings of one source have the same parts. -/
lemma IsRespelled.parts_eq (respelled : IsRespelled source other)
    (single : IsSinglyDelimited isUnderscoreOrDot source.toList)
    (unquoted : isQuoted source.toList = false) : parts other.toList = parts source.toList := by
  have single' : IsSinglyDelimited isUnderscoreOrDot other.toList := by
    rw [← isSinglyDelimited_inDots, respelled]
    exact isSinglyDelimited_inDots.mpr single
  rw [single'.parts_eq (respelled.isQuoted_eq.trans unquoted), respelled, single.parts_eq unquoted]

/-- Spellings of one source are resolved alike. -/
lemma IsRespelled.resolve_eq (respelled : IsRespelled source other)
    (single : IsSinglyDelimited isUnderscoreOrDot source.toList)
    (unquoted : isQuoted source.toList = false) (c : Catalog) (owner : TypeRef) :
    resolve c other owner = resolve c source owner := by
  by_cases no_parts : parts source.toList = []
  · -- both sources are empty then
    rw [parts_of_unquoted unquoted, single.firstWhole_eq] at no_parts
    have empty := single.eq_nil (List.map_eq_nil_iff.mp no_parts)
    have other_empty : other.toList = [] := by
      rw [IsRespelled, empty] at respelled
      exact List.map_eq_nil_iff.mp respelled
    rw [String.toList_eq_nil_iff.mp empty, String.toList_eq_nil_iff.mp other_empty]
  · exact resolve_of_parts_eq no_parts (respelled.parts_eq single unquoted)

/-- The parts of a source are what the pattern of a part captures, behind an underscore in front of
the source. They are the runs of the source, where the first run keeps all delimiters before it and
each later one all but the first of them. The parts of a quoted source are the runs that dots leave
in it without its markers, and the first run loses a dot, too. If a source is not quoted and has
delimiters neither at its beginning nor next to each other, then dots in place of underscores, or
underscores in place of dots, change neither its parts nor what it is resolved to. -/
theorem parts_cut (source : String) :
    (isQuoted source.toList = false →
      parts source.toList = (part isUnderscoreOrDot).captures ('_' :: source.toList) ∧
        ∃ found, IsCut isUnderscoreOrDot source.toList found ∧
          parts source.toList = firstWhole found) ∧
    (isQuoted source.toList = true →
      parts source.toList = (part isDot).captures (unmarked source.toList) ∧
        ∃ found, IsCut isDot (unmarked source.toList) found ∧
          parts source.toList = found.map separated) ∧
    (isQuoted source.toList = false → IsSinglyDelimited isUnderscoreOrDot source.toList →
      ∀ other, IsRespelled source other → parts other.toList = parts source.toList ∧
        ∀ c owner, resolve c other owner = resolve c source owner) := by
  refine ⟨fun unquoted => ?_, fun quoted => ?_, fun unquoted single other respelled => ?_⟩
  -- a delimiter in front is what makes the pattern keep all delimiters of the first run
  · have captured := captures_of_isCut (isCut_runs isUnderscoreOrDot ('_' :: source.toList))
    rw [map_separated_runs_cons rfl, ← parts_of_unquoted unquoted] at captured
    exact ⟨captured.symm, _, isCut_runs _ _, parts_of_unquoted unquoted⟩
  · have captured := captures_of_isCut (isCut_runs isDot (unmarked source.toList))
    rw [← parts_of_quoted quoted] at captured
    exact ⟨captured.symm, _, isCut_runs _ _, parts_of_quoted quoted⟩
  · exact ⟨respelled.parts_eq single unquoted, respelled.resolve_eq single unquoted⟩

/-- The name of a city at home, between underscores. -/
theorem parts_cut_homeCity : isQuoted "home_city_name".toList = false ∧
    IsSinglyDelimited isUnderscoreOrDot "home_city_name".toList ∧
      parts "home_city_name".toList = ["home", "city", "name"].map String.toList ∧
      parts "home.city_name".toList = parts "home_city_name".toList ∧
      resolve Sample.homes "home.city_name" Sample.customer =
        resolve Sample.homes "home_city_name" Sample.customer := by
  have unquoted : isQuoted "home_city_name".toList = false := by decide
  have single : IsSinglyDelimited isUnderscoreOrDot "home_city_name".toList := by
    refine ⟨?_, by decide⟩
    rintro _ ⟨⟩
    rfl
  have respelled : IsRespelled "home_city_name" "home.city_name" := by decide
  obtain ⟨same, resolved⟩ := (parts_cut "home_city_name").2.2 unquoted single _ respelled
  exact ⟨unquoted, single, by decide, same, resolved _ _⟩

/-- In a quoted source, an underscore in place of a dot joins two parts. -/
theorem quoted_respelled :
    IsSinglyDelimited isUnderscoreOrDot "\\Qhome.city\\E".toList ∧
      IsRespelled "\\Qhome.city\\E" "\\Qhome_city\\E" ∧
      parts "\\Qhome.city\\E".toList = ["home".toList, "city".toList] ∧
      parts "\\Qhome_city\\E".toList = ["home_city".toList] ∧
      parts "\\Qhome_city\\E".toList ≠ parts "\\Qhome.city\\E".toList := by
  refine ⟨⟨?_, by decide⟩, by decide, by decide, by decide, by decide⟩
  rintro _ ⟨⟩
  rfl

end EntityModel.Path
