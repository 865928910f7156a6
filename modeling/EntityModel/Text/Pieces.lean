/-!
# Pieces between separators

A text is cut at every occurrence of a separator. The pieces may be empty, and there is always one.
-/

namespace EntityModel.Text

/-- The pieces of a text between the occurrences of a separator. -/
def pieces (separator : Char) : List Char → List (List Char)
  | [] => [[]]
  | c :: cs =>
    if c = separator then [] :: pieces separator cs
    else
      match pieces separator cs with
      | [] => [[c]]
      | p :: ps => (c :: p) :: ps

/-- There is always one piece at least. -/
theorem pieces_ne_nil (separator : Char) (cs : List Char) : pieces separator cs ≠ [] := by
  cases cs with
  | nil => simp [pieces]
  | cons c cs =>
    unfold pieces
    split
    · simp
    · split <;> simp

/-- The pieces with the separators between them are the text. -/
theorem intercalate_pieces (separator : Char) (cs : List Char) :
    [separator].intercalate (pieces separator cs) = cs := by
  induction cs with
  | nil => rfl
  | cons c cs ih =>
    unfold pieces
    split
    · rename_i hc
      cases hp : pieces separator cs with
      | nil => exact absurd hp (pieces_ne_nil separator cs)
      | cons p ps => simp [List.intercalate_cons_cons, hp ▸ ih, hc]
    · split
      · rename_i hp
        exact absurd hp (pieces_ne_nil separator cs)
      · rename_i p ps hp
        rw [hp] at ih
        cases ps with
        | nil => simpa using ih
        | cons q qs =>
          simp only [List.intercalate_cons_cons] at ih ⊢
          simp [← ih]

end EntityModel.Text
