import EntityModel.Path.Basic
import EntityModel.Path.Name
import EntityModel.Path.Parts

/-!
# Resolving path sources

Each part of a source is resolved against the type reached so far. Its longest head that names a
property is taken, where heads are the whole text and its successive shortenings by one trailing
hump; the rest is resolved the same way against the type behind that property. A choice is never
taken back.

Segments and shortenings count towards a depth limit, so every source is resolved or refused.
-/

namespace EntityModel.Path

/-- The number of segments that may stand before a further one is resolved. -/
def maxDepth : Nat := 1000

/-- The property of a type that a piece of text names. -/
def segment? (c : Catalog) (owner : TypeRef) (piece : List Char) : Option Segment :=
  let name := String.ofList (decapitalize piece)
  (c.propertyType? owner name).map (⟨owner, name, ·⟩)

/-- The longest head of a text that names a property, with the text after it, and the number of
humps that were cut off before it was found or the text could not be shortened further. -/
def longestHead (c : Catalog) (owner : TypeRef) (head tail : List Char) :
    Nat × Option (Segment × List Char) :=
  match segment? c owner head with
  | some s => (0, some (s, tail))
  | none =>
    match _h : splitHump? head with
    | some (front, hump) =>
      let (cut, found) := longestHead c owner front (hump ++ tail)
      (cut + 1, found)
    | none => (0, none)
termination_by head.length
decreasing_by
  obtain ⟨h₁, _, h₂⟩ := splitHump?_eq_some ‹_›
  have := List.length_pos_iff.mpr h₂
  simp [h₁]; omega

/-- The head that is found and the text after it make up the text. -/
theorem longestHead_tail {c : Catalog} {owner : TypeRef} {head tail : List Char} {cut : Nat}
    {s : Segment} {rest : List Char} (h : longestHead c owner head tail = (cut, some (s, rest))) :
    ∃ front, front ++ rest = head ++ tail ∧ (head ≠ [] → front ≠ []) := by
  fun_induction longestHead c owner head tail generalizing cut with
  | case1 head tail s' hs =>
    simp only [Prod.mk.injEq, Option.some.injEq] at h
    exact ⟨head, by rw [h.2.2], id⟩
  | case2 head tail hs front hump hf cut' found hr ih =>
    simp only [Prod.mk.injEq] at h
    obtain ⟨hf₁, hf₂, -⟩ := splitHump?_eq_some hf
    obtain ⟨f, hfr, hne⟩ := ih (h.2 ▸ hr)
    exact ⟨f, by simp [hfr, hf₁], fun _ => hne hf₂⟩
  | case3 => simp at h

/-- Resolves a text against a type, after segments of the given names. -/
def resolveText (c : Catalog) (owner : TypeRef) (text : List Char) (before : List String) :
    Except Error (List Segment) :=
  match _h : longestHead c owner text [] with
  | (cut, found) =>
    -- the limit counts the humps that were cut off as well as the segments
    if maxDepth < before.length + cut then .error (.depthExceeded maxDepth)
    else
      match found with
      | none =>
        .error (.propertyReference (String.ofList (decapitalize text)) owner.text before)
      | some (s, []) => .ok [s]
      | some (s, t :: rest) =>
        (resolveText c s.actual (t :: rest) (before ++ [s.name])).map (s :: ·)
termination_by text.length
decreasing_by
  obtain ⟨front, hf, hne⟩ := longestHead_tail ‹_›
  simp only [List.append_nil] at hf
  have hpos : text ≠ [] := by rintro rfl; simp at hf
  have := List.length_pos_iff.mpr (hne hpos)
  rw [← hf]; simp; omega

/-- Resolves a further part after the segments that were found. -/
def resolvePart (c : Catalog) (owner : TypeRef) (found : List Segment) (part : List Char) :
    Except Error (List Segment) :=
  if maxDepth < found.length then .error (.depthExceeded maxDepth)
  else do
    let type ← match found.getLast? with
      | some s => s.type.requiredActual
      | none => pure owner
    return found ++ (← resolveText c type part (found.map (·.name)))

def resolve (c : Catalog) (source : String) (owner : TypeRef) : Except Error PropertyPath := do
  match PropertyPath.ofSegments? (← (parts source.toList).foldlM (resolvePart c owner) []) with
  | some p => return p
  | none => throw (.emptySource source)

end EntityModel.Path
