/-!
# Spans of code points

A character property is a set of code points. It is listed as spans: every code point from a first
to a last one, or every second one where upper and lower case alternate.
-/

namespace EntityModel.Text

/-- Every `step`-th code point from `first` to `last`. -/
structure Span where
  first : Nat
  last : Nat
  step : Nat
  deriving DecidableEq, Repr

def Span.covers (s : Span) (n : Nat) : Bool :=
  decide (s.first ≤ n) && decide (n ≤ s.last) && (n - s.first) % s.step == 0

/-- A code point is covered when it is a whole number of steps after the first one. -/
theorem Span.covers_iff {s : Span} {n : Nat} :
    s.covers n = true ↔ s.first ≤ n ∧ n ≤ s.last ∧ (n - s.first) % s.step = 0 := by
  simp [Span.covers, and_assoc]

end EntityModel.Text
