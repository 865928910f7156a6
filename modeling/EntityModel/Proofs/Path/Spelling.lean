import EntityModel.Proofs.Path.Hump

/-!
# Decapitalized names

The lowercase forms of characters are their own lowercase forms (`Text.lowercase_settled`), so a
name that is decapitalized once stays as it is (`Path.decapitalize_decapitalize`).
-/

namespace EntityModel

namespace Text

/-! ### Lowercase forms -/

/-- The span of the code points that lie at an offset from those of a span. -/
def Span.shift (s : Span) (offset : Int) : Span :=
  ⟨(s.first + offset).toNat, (s.last + offset).toNat, s.step⟩

/-- A shifted span covers the shifted numbers. -/
lemma Span.covers_shift {s : Span} {n : Nat} {offset : Int} (nonneg : 0 ≤ s.first + offset)
    (h : s.covers n = true) : (s.shift offset).covers (n + offset).toNat = true := by
  obtain ⟨after, before, steps⟩ := Span.covers_iff.mp h
  have same : (n + offset).toNat - (s.first + offset).toNat = n - s.first := by omega
  refine Span.covers_iff.mpr ⟨?_, ?_, ?_⟩
  · show (s.first + offset).toNat ≤ (n + offset).toNat
    omega
  · show (n + offset).toNat ≤ (s.last + offset).toNat
    omega
  · show ((n + offset).toNat - (s.first + offset).toNat) % s.step = 0
    rwa [same]

/-- Whether all code points of a span are characters. -/
def Span.isValid (s : Span) : Bool :=
  Nat.blt s.last 0xD800 || Nat.blt 0xDFFF s.first && Nat.blt s.last 0x110000

/-- The numbers of a valid span are those of characters. -/
lemma Span.toNat_ofNat {s : Span} {n : Nat} (valid : s.isValid = true) (h : s.covers n = true) :
    (Char.ofNat n).toNat = n := by
  obtain ⟨after, before, -⟩ := Span.covers_iff.mp h
  simp only [isValid, Bool.or_eq_true, Bool.and_eq_true, Nat.blt_eq] at valid
  have isValidChar : n.isValidChar := by
    unfold Nat.isValidChar
    omega
  rw [Char.ofNat, dif_pos isValidChar]
  rfl

/-- Whether the lowercase forms of a span are characters that have no other lowercase form. -/
def isSettled (entry : Span × Int) : Bool :=
  let forms := entry.1.shift entry.2
  decide (0 ≤ entry.1.first + entry.2) && forms.isValid && forms.isApartFrom ⟨0x130, 0x130, 1⟩ &&
    Table.lowercaseMapping.all fun other => forms.isApartFrom other.1

/-- The lowercase forms of the table have no other lowercase forms. -/
lemma lowercaseMapping_settled : Table.lowercaseMapping.all isSettled = true := by
  decide +kernel

/-- A character that is not listed, and is not the dotted capital letter, is its own lowercase form.
-/
lemma lowercase_eq_self {c : Char} (plain : c.toNat ≠ 0x130)
    (unmapped : ∀ entry ∈ Table.lowercaseMapping, entry.1.covers c.toNat = false) :
    lowercase c = [c] := by
  have missing : Table.lowercaseMapping.find? (·.1.covers c.toNat) = none :=
    List.find?_eq_none.mpr fun entry h => by
      rw [unmapped entry h]
      exact Bool.false_ne_true
  unfold lowercase
  rw [if_neg plain, missing]

/-- A lowercase form is one character or two, each of which is its own lowercase form. -/
theorem lowercase_settled (c : Char) :
    lowercase c ≠ [] ∧ ∀ d ∈ lowercase c, lowercase d = [d] := by
  by_cases dotted : c.toNat = 0x130
  · unfold lowercase
    rw [if_pos dotted]
    refine ⟨List.cons_ne_nil _ _, ?_⟩
    rw [List.forall_mem_cons, List.forall_mem_singleton]
    decide +kernel
  · cases found : Table.lowercaseMapping.find? (·.1.covers c.toNat) with
    | none =>
      have self : lowercase c = [c] := by
        unfold lowercase
        rw [if_neg dotted, found]
      rw [self]
      refine ⟨List.cons_ne_nil _ _, fun d hd => ?_⟩
      rwa [List.mem_singleton.mp hd]
    | some entry =>
      have form : lowercase c = [Char.ofNat (c.toNat + entry.2).toNat] := by
        unfold lowercase
        rw [if_neg dotted, found]
      rw [form]
      refine ⟨List.cons_ne_nil _ _, fun d hd => ?_⟩
      rw [List.mem_singleton.mp hd]
      have settled := List.all_eq_true.mp lowercaseMapping_settled entry
        (List.mem_of_find?_eq_some found)
      simp only [isSettled, Bool.and_eq_true, decide_eq_true_eq, List.all_eq_true] at settled
      obtain ⟨⟨⟨nonneg, valid⟩, apart⟩, apart_all⟩ := settled
      -- the form lies in a span that has no code point in common with any span of the table
      have isMapped := List.find?_some found
      have covers := Span.covers_shift nonneg isMapped
      have toNat_eq := Span.toNat_ofNat valid covers
      refine lowercase_eq_self (fun dotted => ?_) fun other hother => ?_
      · rw [toNat_eq] at dotted
        have uncovered := Span.covers_eq_false apart covers
        rw [dotted] at uncovered
        exact absurd uncovered (by decide)
      · rw [toNat_eq]
        exact Span.covers_eq_false (apart_all other hother) covers

end Text

namespace Path

/-! ### Decapitalized names -/

/-- A text whose first character is its own lowercase form stays as it is. -/
lemma decapitalize_of_lowercase {c : Char} (rest : List Char) (h : Text.lowercase c = [c]) :
    decapitalize (c :: rest) = c :: rest := by
  cases rest with
  | nil => exact h
  | cons d rest =>
    rw [decapitalize, h]
    split <;> rfl

/-- What was decapitalized stays as it is when it is decapitalized again. -/
theorem decapitalize_decapitalize (piece : List Char) :
    decapitalize (decapitalize piece) = decapitalize piece := by
  -- what lowercasing gives starts with a character that is its own lowercase form
  have settled (c : Char) (rest : List Char) :
      decapitalize (Text.lowercase c ++ rest) = Text.lowercase c ++ rest := by
    obtain ⟨form_ne, settled⟩ := Text.lowercase_settled c
    obtain ⟨d, ds, form⟩ := List.exists_cons_of_ne_nil form_ne
    rw [form, List.cons_append]
    exact decapitalize_of_lowercase _ (settled d (form ▸ List.mem_cons_self))
  cases piece with
  | nil => rfl
  | cons c rest =>
    cases rest with
    | nil =>
      have single := settled c []
      rwa [List.append_nil] at single
    | cons d rest =>
      -- an acronym is left alone both times
      by_cases acronym : (Text.isUppercase c && Text.isUppercase d) = true
      · rw [decapitalize, if_pos acronym, decapitalize, if_pos acronym]
      · rw [decapitalize, if_neg acronym]
        exact settled c (d :: rest)

/-- Decapitalizing leaves no text empty. -/
lemma decapitalize_ne_nil {piece : List Char} (h : piece ≠ []) : decapitalize piece ≠ [] := by
  obtain ⟨c, rest, rfl⟩ := List.exists_cons_of_ne_nil h
  cases rest with
  | nil => exact (Text.lowercase_settled c).1
  | cons d rest =>
    rw [decapitalize]
    split
    · exact List.cons_ne_nil _ _
    · exact List.append_ne_nil_of_right_ne_nil _ (List.cons_ne_nil _ _)

end Path

end EntityModel
