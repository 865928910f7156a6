import EntityModel.Text.CharClass

/-!
# Names in path sources

A source of a property path spells property names in camel case. A name is read off a piece of the
source by decapitalizing it, and a piece is shortened from the right by its last hump: an uppercase
letter followed by lowercase letters and digits up to the end.
-/

namespace EntityModel.Path

/-- The piece with its first character in lower case, unless it starts with two uppercase
characters, as acronyms do. -/
def decapitalize : List Char → List Char
  | [] => []
  | [c] => Text.lowercase c
  | c :: d :: rest =>
    if Text.isUppercase c && Text.isUppercase d then c :: d :: rest
    else Text.lowercase c ++ d :: rest

def continuesHump (c : Char) : Bool :=
  Text.isLowercaseLetter c || Text.isDecimalDigit c

/-- A piece split before its last hump. There is no such split if the piece does not end in a hump
or is nothing but one. -/
def splitHump? (piece : List Char) : Option (List Char × List Char) :=
  match piece.reverse.dropWhile continuesHump with
  | c :: d :: front =>
    if Text.isUppercaseLetter c then
      some ((d :: front).reverse, c :: (piece.reverse.takeWhile continuesHump).reverse)
    else none
  | _ => none

/-- The two parts of a split make up the piece, and neither is empty. -/
theorem splitHump?_eq_some {piece front hump : List Char}
    (h : splitHump? piece = some (front, hump)) :
    piece = front ++ hump ∧ front ≠ [] ∧ hump ≠ [] := by
  unfold splitHump? at h
  split at h
  · rename_i hd
    split at h
    · simp only [Option.some.injEq, Prod.mk.injEq] at h
      obtain ⟨rfl, rfl⟩ := h
      refine ⟨?_, by simp, by simp⟩
      have h := List.takeWhile_append_dropWhile (p := continuesHump) (l := piece.reverse)
      rw [hd] at h
      simpa using (congrArg List.reverse h).symm
    · simp at h
  · simp at h

end EntityModel.Path
