import EntityModel.Path.Name
import Mathlib.Data.List.TakeWhile
import Mathlib.Logic.Relation
import Mathlib.Tactic.Lemma

/-!
# Humps and heads

A hump is an uppercase letter followed by lowercase letters and digits. The heads of a text are the
text itself and what is left of it as hump after hump is cut off at its end, as long as something is
left. No uppercase letter is a lowercase letter or a digit, so a text ends in one hump at most, and
`splitHump?` finds it (`Path.splitHump?_eq_some_iff`).
-/

namespace EntityModel

namespace Text

/-! ### Letters by case -/

/-- Whether all code points of a span are even or all are odd, as where the cases alternate. -/
def Span.isAlternating (s : Span) : Bool :=
  s.step == 2 || s.first == s.last

/-- Numbers in an alternating span are even or odd as its first one is. -/
lemma Span.mod_two_eq {s : Span} {n : Nat} (alternating : s.isAlternating = true)
    (h : s.covers n = true) : n % 2 = s.first % 2 := by
  rw [Span.covers_iff] at h
  rw [isAlternating, Bool.or_eq_true, beq_iff_eq, beq_iff_eq] at alternating
  rcases alternating with two | single
  · rw [two] at h
    omega
  · omega

/-- Whether two spans are seen to have no code point in common: one ends before the other one
starts, or one has even and the other one odd code points. -/
def Span.isApartFrom (s u : Span) : Bool :=
  Nat.blt s.last u.first || Nat.blt u.last s.first ||
    (s.isAlternating && u.isAlternating && s.first % 2 != u.first % 2)

/-- Spans that are apart cover no number in common. -/
lemma Span.covers_eq_false {s u : Span} {n : Nat} (apart : s.isApartFrom u = true)
    (h : s.covers n = true) : u.covers n = false := by
  rw [Bool.eq_false_iff]
  intro h'
  have bounds := Span.covers_iff.mp h
  have bounds' := Span.covers_iff.mp h'
  simp only [isApartFrom, Bool.or_eq_true, Bool.and_eq_true, Nat.blt_eq, bne_iff_ne] at apart
  rcases apart with (before | after) | ⟨⟨alternating, alternating'⟩, parity⟩
  · omega
  · omega
  · exact parity ((mod_two_eq alternating h).symm.trans (mod_two_eq alternating' h'))

/-- Tables whose spans are apart cover no number in common. -/
lemma any_covers_eq_false {table table' : List Span} {n : Nat}
    (apart : (table.all fun s => table'.all s.isApartFrom) = true)
    (h : table.any (·.covers n) = true) : table'.any (·.covers n) = false := by
  obtain ⟨s, hs, covers⟩ := List.any_eq_true.mp h
  rw [List.any_eq_false]
  intro u hu
  have apart := List.all_eq_true.mp (List.all_eq_true.mp apart s hs) u hu
  rw [Span.covers_eq_false apart covers]
  exact Bool.false_ne_true

/-- No uppercase letter is a lowercase one. -/
lemma isLowercaseLetter_eq_false {c : Char} (h : isUppercaseLetter c = true) :
    isLowercaseLetter c = false :=
  any_covers_eq_false (by decide +kernel) h

/-- No uppercase letter is a digit. -/
lemma isDecimalDigit_eq_false {c : Char} (h : isUppercaseLetter c = true) :
    isDecimalDigit c = false :=
  any_covers_eq_false (by decide +kernel) h

end Text

namespace Path

/-- An uppercase letter starts a hump and does not go on with one. -/
lemma continuesHump_eq_false {c : Char} (h : Text.isUppercaseLetter c = true) :
    continuesHump c = false := by
  rw [continuesHump, Text.isLowercaseLetter_eq_false h, Text.isDecimalDigit_eq_false h]
  rfl

/-! ### Humps -/

/-- An uppercase letter followed by lowercase letters and digits. -/
def IsHump : List Char → Prop
  | [] => False
  | c :: cs => Text.isUppercaseLetter c = true ∧ ∀ d ∈ cs, continuesHump d = true

/-- A piece is split where its last hump starts, unless nothing stands before that. -/
theorem splitHump?_eq_some_iff {piece front hump : List Char} :
    splitHump? piece = some (front, hump) ↔ piece = front ++ hump ∧ front ≠ [] ∧ IsHump hump := by
  constructor
  · intro h
    obtain ⟨split, front_ne, -⟩ := splitHump?_eq_some h
    refine ⟨split, front_ne, ?_⟩
    unfold splitHump? at h
    split at h
    · split at h
      · rename_i upper
        cases h
        refine ⟨upper, fun d hd => ?_⟩
        exact List.mem_takeWhile_imp (List.mem_reverse.mp hd)
      · cases h
    · cases h
  · rintro ⟨rfl, front_ne, isHump⟩
    obtain _ | ⟨c, cs⟩ := hump
    · exact isHump.elim
    · obtain ⟨upper, continues⟩ := isHump
      obtain ⟨d, ds, reversed⟩ : ∃ d ds, front.reverse = d :: ds :=
        List.exists_cons_of_ne_nil (by simpa using front_ne)
      -- read backwards, the hump goes on up to its uppercase letter, which does not continue a hump
      have continues : ∀ d ∈ cs.reverse, continuesHump d = true :=
        fun d hd => continues d (List.mem_reverse.mp hd)
      have stops := continuesHump_eq_false upper
      have backwards : (front ++ c :: cs).reverse = cs.reverse ++ c :: d :: ds := by
        rw [List.reverse_append, List.reverse_cons, reversed, List.append_assoc,
          List.singleton_append]
      have front_eq : (d :: ds).reverse = front := by
        rw [← reversed, List.reverse_reverse]
      unfold splitHump?
      rw [backwards, List.dropWhile_append_of_pos continues, List.takeWhile_append_of_pos continues,
        List.dropWhile_cons_of_neg (by rw [stops]; exact Bool.false_ne_true),
        List.takeWhile_cons_of_neg (by rw [stops]; exact Bool.false_ne_true)]
      simp only [upper, if_true, front_eq, List.append_nil, List.reverse_reverse]

/-! ### Heads -/

/-- A text loses the hump at its end, and there is something before that. -/
def Shortens (text head : List Char) : Prop :=
  head ≠ [] ∧ ∃ hump, IsHump hump ∧ text = head ++ hump

/-- The heads of a text: the text and its successive shortenings. -/
def IsHead : List Char → List Char → Prop :=
  Relation.ReflTransGen Shortens

variable {text head head' : List Char}

/-- A shortened text is what stands before the last hump. -/
lemma shortens_iff : Shortens text head ↔ ∃ hump, splitHump? text = some (head, hump) := by
  simp only [splitHump?_eq_some_iff]
  constructor
  · rintro ⟨head_ne, hump, isHump, split⟩
    exact ⟨hump, split, head_ne, isHump⟩
  · rintro ⟨hump, split, head_ne, isHump⟩
    exact ⟨head_ne, hump, isHump, split⟩

/-- A text ends in one hump at most. -/
lemma Shortens.unique (h : Shortens text head) (h' : Shortens text head') : head' = head := by
  obtain ⟨hump, split⟩ := shortens_iff.mp h
  obtain ⟨hump', split'⟩ := shortens_iff.mp h'
  rw [split] at split'
  cases split'
  rfl

/-- A text is a head of itself. -/
lemma IsHead.refl : IsHead text text :=
  Relation.ReflTransGen.refl

/-- The heads of a text are the text and the heads of its shortening. -/
lemma isHead_iff :
    IsHead text head ↔ head = text ∨ ∃ front, Shortens text front ∧ IsHead front head :=
  Relation.ReflTransGen.cases_head_iff.trans (or_congr_left eq_comm)

/-- The heads of a shortened text are heads of the text. -/
lemma IsHead.shorten {front : List Char} (h : Shortens text front) (isHead : IsHead front head) :
    IsHead text head :=
  Relation.ReflTransGen.head h isHead

/-- What was cut off from a head is nothing or starts with an uppercase letter. -/
lemma IsHead.exists_append (h : IsHead text head) :
    ∃ rest, text = head ++ rest ∧ ∀ c ∈ rest.head?, Text.isUppercaseLetter c = true := by
  induction h using Relation.ReflTransGen.head_induction_on with
  | refl => exact ⟨[], (List.append_nil head).symm, by simp⟩
  | head shortens _ ih =>
    obtain ⟨-, hump, isHump, rfl⟩ := shortens
    obtain ⟨rest, rfl, upper⟩ := ih
    refine ⟨rest ++ hump, List.append_assoc .., ?_⟩
    -- the last hump comes first if nothing else was cut off
    obtain _ | ⟨c, cs⟩ := rest
    · obtain _ | ⟨c, cs⟩ := hump
      · exact isHump.elim
      · simpa using isHump.1
    · simpa using upper

/-- Heads are not empty. -/
lemma IsHead.ne_nil (h : IsHead text head) (text_ne : text ≠ []) : head ≠ [] := by
  induction h with
  | refl => exact text_ne
  | tail _ shortens _ => exact shortens.1

end Path

end EntityModel
