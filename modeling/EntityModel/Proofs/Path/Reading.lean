import EntityModel.Path.Resolve
import EntityModel.Proofs.Path.Hump
import Mathlib.Data.List.Basic

/-!
# Greedy reading

A text is read against a type by choosing its longest head that spells a property of the type; what
is left is read against the type behind that property, and no choice is taken back (`Path.Reads`). A
reading ends when nothing is left or when no head of what is left spells a property, and there is
only one such reading of a text (`Path.Reads.unique`). Resolving a text follows that reading unless
it runs into the depth limit (`Path.resolveText_outcome`).
-/

namespace EntityModel.Path

variable {c : Catalog} {owner last reached : TypeRef} {s : Segment}
  {text head front rest left : List Char}

/-! ### Properties that are spelled -/

def spelling (piece : List Char) : String :=
  String.ofList (decapitalize piece)

/-- A piece of a source spells a property of a type. -/
structure Spells (c : Catalog) (owner : TypeRef) (piece : List Char) (s : Segment) : Prop where
  owner_eq : s.owner = owner
  name_eq : s.name = spelling piece
  type_eq : c.propertyType? owner (spelling piece) = some s.type

/-- The search for a segment finds what a piece spells. -/
lemma segment?_eq_some_iff : segment? c owner text = some s ↔ Spells c owner text s := by
  constructor
  · intro h
    obtain ⟨type, hasType, rfl⟩ := Option.map_eq_some_iff.mp h
    exact ⟨rfl, rfl, hasType⟩
  · intro ⟨hasOwner, hasName, hasType⟩
    obtain ⟨o, n, type⟩ := s
    cases hasOwner
    cases hasName
    exact Option.map_eq_some_iff.mpr ⟨type, hasType, rfl⟩

/-- The search finds nothing exactly if the piece spells nothing. -/
lemma segment?_eq_none_iff : segment? c owner text = none ↔ ∀ s, ¬ Spells c owner text s := by
  rw [Option.eq_none_iff_forall_ne_some]
  exact forall_congr' fun s => not_congr segment?_eq_some_iff

/-- A piece spells a segment if it spells the segment's name. -/
lemma Spells.of_spelling (owner_eq : s.owner = owner) (name_eq : spelling text = s.name)
    (type_eq : c.propertyType? owner s.name = some s.type) : Spells c owner text s := by
  rw [← name_eq] at type_eq
  exact ⟨owner_eq, name_eq.symm, type_eq⟩

/-- A piece does not spell what is not declared. -/
lemma not_spells {name : String} (name_eq : spelling text = name)
    (missing : c.propertyType? owner name = none) (s : Segment) : ¬ Spells c owner text s := by
  intro spells
  have type_eq := spells.type_eq
  rw [name_eq, missing] at type_eq
  cases type_eq

/-- A piece spells one segment at most. -/
lemma Spells.unique {s' : Segment} (h : Spells c owner text s) (h' : Spells c owner text s') :
    s' = s := by
  have found := segment?_eq_some_iff.mpr h
  rw [segment?_eq_some_iff.mpr h'] at found
  exact Option.some.inj found

/-! ### Heads that are taken -/

/-- The longest head of a text that spells a property. -/
structure Takes (c : Catalog) (owner : TypeRef) (text head : List Char) (s : Segment) : Prop where
  isHead : IsHead text head
  spells : Spells c owner head s
  longest : ∀ head' s', IsHead text head' → Spells c owner head' s' → head'.length ≤ head.length

/-- No head of a text spells a property. -/
def IsStuck (c : Catalog) (owner : TypeRef) (text : List Char) : Prop :=
  ∀ head s, IsHead text head → ¬ Spells c owner head s

/-- One head at most is the longest, and it spells one segment. -/
lemma Takes.unique {head' : List Char} {s' : Segment} (h : Takes c owner text head s)
    (h' : Takes c owner text head' s') : head' = head ∧ s' = s := by
  obtain ⟨rest, split, -⟩ := h.isHead.exists_append
  obtain ⟨rest', split', -⟩ := h'.isHead.exists_append
  have length : head'.length = head.length :=
    Nat.le_antisymm (h.longest head' s' h'.isHead h'.spells) (h'.longest head s h.isHead h.spells)
  obtain rfl : head' = head := List.append_inj_left (split'.symm.trans split) length
  exact ⟨rfl, h.spells.unique h'.spells⟩

/-- A text from which a head was taken is not stuck. -/
lemma Takes.not_isStuck (h : Takes c owner text head s) : ¬ IsStuck c owner text :=
  fun stuck => stuck head s h.isHead h.spells

/-- A text that spells no property has the heads that matter in common with its shortening. -/
lemma isHead_of_spells (shortens : Shortens text front) (unspelled : ∀ s, ¬ Spells c owner text s)
    (isHead : IsHead text head) (spells : Spells c owner head s) : IsHead front head := by
  rcases isHead_iff.mp isHead with rfl | ⟨front', shortens', isHead⟩
  · exact absurd spells (unspelled s)
  · rwa [shortens.unique shortens'] at isHead

/-- The longest head of a shortened text is that of the text, if the text itself spells nothing. -/
lemma Takes.of_shortens (shortens : Shortens text front)
    (unspelled : ∀ s, ¬ Spells c owner text s) (h : Takes c owner front head s) :
    Takes c owner text head s where
  isHead := h.isHead.shorten shortens
  spells := h.spells
  longest head' s' isHead spells :=
    h.longest head' s' (isHead_of_spells shortens unspelled isHead spells) spells

/-- A text is stuck if it spells nothing and its shortening is stuck. -/
lemma IsStuck.of_shortens (shortens : Shortens text front)
    (unspelled : ∀ s, ¬ Spells c owner text s) (h : IsStuck c owner front) :
    IsStuck c owner text :=
  fun head s isHead spells =>
    h head s (isHead_of_spells shortens unspelled isHead spells) spells

/-- A text that spells a property is its own longest head. -/
lemma Takes.of_spells (h : Spells c owner text s) : Takes c owner text text s where
  isHead := .refl
  spells := h
  longest head' s' isHead _ := by
    obtain ⟨rest, split, -⟩ := isHead.exists_append
    rw [split, List.length_append]
    exact Nat.le_add_right _ _

/-- A text with one hump is stuck if it spells nothing. -/
lemma IsStuck.of_splitHump? (unsplit : splitHump? text = none)
    (unspelled : ∀ s, ¬ Spells c owner text s) : IsStuck c owner text := by
  intro head s isHead spells
  rcases isHead_iff.mp isHead with rfl | ⟨front, shortens, -⟩
  · exact unspelled s spells
  · obtain ⟨hump, split⟩ := shortens_iff.mp shortens
    rw [unsplit] at split
    cases split

/-- The search ends at once with a text that spells a property. -/
lemma longestHead_of_spells (spells : Spells c owner text s) (tail : List Char) :
    longestHead c owner text tail = (0, some (s, tail)) := by
  rw [longestHead, segment?_eq_some_iff.mpr spells]

/-- The search goes on with the shorter text, counts the cut and keeps the hump. -/
lemma longestHead_of_shortens {hump : List Char} (unspelled : ∀ s, ¬ Spells c owner text s)
    (split : splitHump? text = some (front, hump)) (tail : List Char) :
    longestHead c owner text tail =
      ((longestHead c owner front (hump ++ tail)).1 + 1,
        (longestHead c owner front (hump ++ tail)).2) := by
  rw [longestHead, segment?_eq_none_iff.mpr unspelled]
  dsimp only
  split
  · rename_i split'
    cases split.symm.trans split'
    rfl
  · rename_i unsplit
    cases split.symm.trans unsplit

/-- The search ends without a result at a text that cannot be shortened. -/
lemma longestHead_of_unsplit (unspelled : ∀ s, ¬ Spells c owner text s)
    (unsplit : splitHump? text = none) (tail : List Char) :
    longestHead c owner text tail = (0, none) := by
  rw [longestHead, segment?_eq_none_iff.mpr unspelled]
  dsimp only
  split
  · rename_i split
    cases unsplit.symm.trans split
  · rfl

/-- What the search finds is the longest head, and nothing is lost. -/
lemma takes_of_longestHead {tail : List Char} {cut : Nat}
    (h : longestHead c owner text tail = (cut, some (s, rest))) :
    ∃ head, Takes c owner text head s ∧ head ++ rest = text ++ tail := by
  fun_induction longestHead c owner text tail generalizing cut with
  | case1 text tail s' found =>
    cases h
    exact ⟨text, .of_spells (segment?_eq_some_iff.mp found), rfl⟩
  | case2 text tail missing front hump split cut' found search ih =>
    cases h
    obtain ⟨head, takes, rebuilt⟩ := ih search
    refine ⟨head, takes.of_shortens (shortens_iff.mpr ⟨hump, split⟩)
      (segment?_eq_none_iff.mp missing), ?_⟩
    rw [rebuilt, (splitHump?_eq_some split).1, List.append_assoc]
  | case3 => cases h

/-- The text is stuck if the search finds nothing. -/
lemma isStuck_of_longestHead {tail : List Char} {cut : Nat}
    (h : longestHead c owner text tail = (cut, none)) : IsStuck c owner text := by
  fun_induction longestHead c owner text tail generalizing cut with
  | case1 => cases h
  | case2 text tail missing front hump split cut' found search ih =>
    cases h
    exact (ih search).of_shortens (shortens_iff.mpr ⟨hump, split⟩)
      (segment?_eq_none_iff.mp missing)
  | case3 text tail missing unsplit =>
    exact .of_splitHump? unsplit (segment?_eq_none_iff.mp missing)

/-- Each hump that is cut off has a character, and one is left at the end. -/
lemma cut_lt_length (c : Catalog) (owner : TypeRef) (tail : List Char) (text_ne : text ≠ []) :
    (longestHead c owner text tail).1 < text.length := by
  fun_induction longestHead c owner text tail with
  | case1 | case3 => exact List.length_pos_iff.mpr text_ne
  | case2 text tail missing front hump split cut' found search ih =>
    obtain ⟨rebuilt, front_ne, hump_ne⟩ := splitHump?_eq_some split
    have shorter := ih front_ne
    have hump_pos := List.length_pos_iff.mpr hump_ne
    rw [search] at shorter
    rw [rebuilt, List.length_append]
    dsimp only at shorter ⊢
    omega

/-! ### Readings -/

/-- A head that was taken, with the property that it spells. -/
structure Choice where
  head : List Char
  segment : Segment

/-- Some choices are made one after the other: each is the longest head, of what the ones before
left over of a text, that spells a property of the type reached by then. -/
inductive Reads (c : Catalog) : TypeRef → List Char → List Choice → TypeRef → List Char → Prop
  | stop {owner : TypeRef} {text : List Char} : Reads c owner text [] owner text
  | choose {owner last : TypeRef} {head rest left : List Char} {s : Segment}
      {choices : List Choice} :
      head ≠ [] → Takes c owner (head ++ rest) head s → Reads c s.actual rest choices last left →
      Reads c owner (head ++ rest) (⟨head, s⟩ :: choices) last left

/-- Nothing is left to read, or nothing that can be read. -/
def IsFinal (c : Catalog) (last : TypeRef) (left : List Char) : Prop :=
  left = [] ∨ IsStuck c last left

/-- A text from which a head was taken is no end of a reading. -/
lemma Takes.not_isFinal (h : Takes c owner text head s) (head_ne : head ≠ []) :
    ¬ IsFinal c owner text := by
  rintro (rfl | stuck)
  · obtain ⟨rest, nothing, -⟩ := h.isHead.exists_append
    exact head_ne (List.append_eq_nil_iff.mp nothing.symm).1
  · exact h.not_isStuck stuck

namespace Reads

variable {choices : List Choice}

/-- A text that spells a property is read with one choice. -/
lemma of_spells (text_ne : text ≠ []) (spells : Spells c owner text s) :
    Reads c owner text [⟨text, s⟩] s.actual [] := by
  have takes : Takes c owner (text ++ []) text s := by
    rw [List.append_nil]
    exact .of_spells spells
  have reads : Reads c owner (text ++ []) [⟨text, s⟩] s.actual [] := .choose text_ne takes .stop
  rwa [List.append_nil] at reads

/-- The heads of a reading and what it leaves over make up the text. -/
lemma flatten_heads (h : Reads c owner text choices last left) :
    (choices.map (·.head)).flatten ++ left = text := by
  induction h with
  | stop => rfl
  | choose _ _ _ ih => rw [List.map_cons, List.flatten_cons, List.append_assoc, ih]

/-- The names of a reading are spelled by its heads. -/
lemma names (h : Reads c owner text choices last left) :
    choices.map (·.segment.name) = choices.map fun choice => spelling choice.head := by
  induction h with
  | stop => rfl
  | choose _ takes _ ih => rw [List.map_cons, List.map_cons, takes.spells.name_eq, ih]

/-- Each choice takes a character at least. -/
lemma length_le (h : Reads c owner text choices last left) :
    choices.length + left.length ≤ text.length := by
  induction h with
  | stop => simp
  | choose head_ne _ _ ih =>
    have head_pos := List.length_pos_iff.mpr head_ne
    rw [List.length_cons, List.length_append]
    omega

/-- Every head but the first one starts with an uppercase letter. -/
lemma starts_upper (h : Reads c owner text choices last left) :
    ∀ choice ∈ choices.tail, ∃ d ds, choice.head = d :: ds ∧ Text.isUppercaseLetter d = true := by
  induction h with
  | stop => exact fun choice h => absurd h List.not_mem_nil
  | choose _ takes reads ih =>
    obtain ⟨rest', split, upper⟩ := takes.isHead.exists_append
    obtain rfl := List.append_cancel_left split
    rw [List.tail_cons]
    -- what follows this head is the next head, if there is one
    cases reads with
    | stop => exact ih
    | choose next_ne =>
      obtain ⟨d, ds, rfl⟩ := List.exists_cons_of_ne_nil next_ne
      exact List.forall_mem_cons.mpr ⟨⟨d, ds, rfl, upper d rfl⟩, ih⟩

/-- No choice takes an empty head. -/
lemma heads_ne_nil (h : Reads c owner text choices last left) :
    ∀ choice ∈ choices, choice.head ≠ [] := by
  induction h with
  | stop => exact fun choice h => absurd h List.not_mem_nil
  | choose head_ne _ _ ih => exact List.forall_mem_cons.mpr ⟨head_ne, ih⟩

/-- A reading is determined up to the point where it ends. -/
lemma unique (h : Reads c owner text choices last left) (final : IsFinal c last left)
    {choices' : List Choice} {last' : TypeRef} {left' : List Char}
    (h' : Reads c owner text choices' last' left') (final' : IsFinal c last' left') :
    choices' = choices ∧ last' = last ∧ left' = left := by
  induction h generalizing choices' with
  | @stop owner text =>
    cases h' with
    | stop => exact ⟨rfl, rfl, rfl⟩
    | choose head_ne takes => exact absurd final (takes.not_isFinal head_ne)
  | @choose owner last head rest left s choices head_ne takes reads ih =>
    -- the other reading cuts the same text, but not from the start at the same place
    generalize whole : head ++ rest = text at h' takes
    cases h' with
    | stop => exact absurd final' (whole ▸ takes.not_isFinal head_ne)
    | choose _ takes' reads' =>
      obtain ⟨rfl, rfl⟩ := takes.unique takes'
      obtain rfl := List.append_cancel_left whole
      obtain ⟨rfl, rfl, rfl⟩ := ih final reads'
      exact ⟨rfl, rfl, rfl⟩

end Reads

/-! ### What comes of a text -/

/-- What may come of a text that is resolved after segments of the given names: it is read to its
end, the reading gets stuck, or the limit is met. -/
inductive Outcome (c : Catalog) (owner : TypeRef) (text : List Char) (before : List String) :
    Except Error (List Segment) → Prop
  | read {choices : List Choice} {last : TypeRef} : Reads c owner text choices last [] →
      Outcome c owner text before (.ok (choices.map (·.segment)))
  | stuck {choices : List Choice} {reached : TypeRef} {left : List Char} :
      Reads c owner text choices reached left → left ≠ [] → IsStuck c reached left →
      Outcome c owner text before (.error (.propertyReference (spelling left) reached.text
        (before ++ choices.map (·.segment.name))))
  | deep : maxDepth < before.length + text.length →
      Outcome c owner text before (.error (.depthExceeded maxDepth))

/-- What comes of the rest comes of the text, with the segment of its longest head in front. -/
lemma Outcome.choose {before : List String} {result : Except Error (List Segment)}
    (head_ne : head ≠ []) (takes : Takes c owner (head ++ rest) head s)
    (h : Outcome c s.actual rest (before ++ [s.name]) result) :
    Outcome c owner (head ++ rest) before (result.map (s :: ·)) := by
  cases h with
  | read reads => exact .read (.choose head_ne takes reads)
  | stuck reads left_ne stuck =>
    rw [List.append_assoc]
    exact .stuck (.choose head_ne takes reads) left_ne stuck
  | deep deep =>
    refine .deep ?_
    have head_pos := List.length_pos_iff.mpr head_ne
    rw [List.length_append, List.length_singleton] at deep
    rw [List.length_append]
    omega

/-- A text is resolved by its longest head, unless it takes too many humps to find that. -/
lemma resolveText_eq (c : Catalog) (owner : TypeRef) (text : List Char) (before : List String) :
    resolveText c owner text before =
      if maxDepth < before.length + (longestHead c owner text []).1 then
        .error (.depthExceeded maxDepth)
      else
        match (longestHead c owner text []).2 with
        | none => .error (.propertyReference (spelling text) owner.text before)
        | some (s, []) => .ok [s]
        | some (s, t :: rest) =>
          (resolveText c s.actual (t :: rest) (before ++ [s.name])).map (s :: ·) := by
  rw [resolveText]
  split
  rename_i cut found search
  simp only [search]
  split
  · rfl
  · split <;> rfl

/-- Resolving a text follows its greedy reading, and meets the limit in long texts only. -/
theorem resolveText_outcome (c : Catalog) (owner : TypeRef) (before : List String)
    (text_ne : text ≠ []) : Outcome c owner text before (resolveText c owner text before) := by
  induction owner, text, before using resolveText.induct c with
  | case1 owner text before cut found search deep =>
    rw [resolveText_eq, search, if_pos deep]
    -- fewer humps were cut off than there are characters
    have short := cut_lt_length c owner [] text_ne
    rw [search] at short
    exact .deep (Nat.lt_trans deep (Nat.add_lt_add_left short _))
  | case2 owner text before cut shallow search _ =>
    rw [resolveText_eq, search, if_neg shallow]
    have stuck : Outcome c owner text before
        (.error (.propertyReference (spelling text) owner.text (before ++ []))) :=
      .stuck .stop text_ne (isStuck_of_longestHead search)
    rwa [List.append_nil] at stuck
  | case3 owner text before cut shallow s search _ =>
    rw [resolveText_eq, search, if_neg shallow]
    obtain ⟨head, takes, rebuilt⟩ := takes_of_longestHead search
    rw [List.append_nil text] at rebuilt
    have head_ne := takes.isHead.ne_nil text_ne
    rw [← rebuilt] at takes ⊢
    exact .read (.choose head_ne takes .stop)
  | case4 owner text before cut shallow s t rest search _ ih =>
    rw [resolveText_eq, search, if_neg shallow]
    obtain ⟨head, takes, rebuilt⟩ := takes_of_longestHead search
    rw [List.append_nil text] at rebuilt
    have head_ne := takes.isHead.ne_nil text_ne
    rw [← rebuilt] at takes ⊢
    exact .choose head_ne takes (ih (List.cons_ne_nil t rest))

end EntityModel.Path
