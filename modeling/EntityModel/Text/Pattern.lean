/-!
# Patterns

A pattern is searched in a text from left to right. It is matched at the first place where it can
be. Of several ways to match it there the preferred one is taken: characters of a class are repeated
as often as possible if they are repeated eagerly, and else as seldom as possible, where an earlier
part of the pattern has its way before a later one. The search goes on behind the match.
-/

namespace EntityModel.Text

/-- How often characters are repeated, and whether rather often. -/
structure Repetition where
  least : Nat := 0
  most : Option Nat := none
  isEager : Bool := true

def Repetition.allows (r : Repetition) (n : Nat) : Bool :=
  decide (r.least ≤ n) && r.most.all fun most => decide (n ≤ most)

inductive Pattern where
  /-- Characters of a class. -/
  | chars (accepts : Char → Bool) (repetition : Repetition)
  /-- One pattern after another one. -/
  | seq (first second : Pattern)
  /-- A pattern whose text is captured. -/
  | group (inner : Pattern)

/-- A match of a pattern at the beginning of a text. -/
structure Match where
  captured : List Char
  matched : List Char
  /-- The text behind the match. -/
  rest : List Char

/-- The beginnings of a text that consist of characters of a class, the shortest one first, each
with the rest of the text. -/
def beginnings (accepts : Char → Bool) : List Char → List (List Char × List Char)
  | [] => [([], [])]
  | c :: cs =>
    ([], c :: cs) ::
      if accepts c then (beginnings accepts cs).map fun b => (c :: b.1, b.2) else []

namespace Pattern

/-- All ways to match a pattern at the beginning of a text, the preferred one first. -/
def ways : Pattern → List Char → List Match
  | chars accepts repetition, text =>
    let taken := (beginnings accepts text).filter fun b => repetition.allows b.1.length
    (if repetition.isEager then taken.reverse else taken).map fun b => ⟨[], b.1, b.2⟩
  | seq first second, text =>
    (first.ways text).flatMap fun m =>
      (second.ways m.rest).map fun n =>
        ⟨m.captured ++ n.captured, m.matched ++ n.matched, n.rest⟩
  | group inner, text => (inner.ways text).map fun m => { m with captured := m.matched }

/-- The first match of a pattern in a text. -/
def find? (p : Pattern) : List Char → Option Match
  | [] => (p.ways []).head?
  | c :: cs => (p.ways (c :: cs)).head?.or (find? p cs)

/-- What a pattern captures in a text, match by match. A match that consumes nothing is the last. -/
def captures (p : Pattern) (text : List Char) : List (List Char) :=
  match p.find? text with
  | none => []
  | some m =>
    m.captured :: if m.rest.length < text.length then p.captures m.rest else []
termination_by text.length

end Pattern

end EntityModel.Text
