import EntityModel.Json.Numeral

/-!
# JSON tokens

A text is cut into tokens: brackets, separators, words, numerals and strings. Cutting refuses texts
that no token can start with and control characters in strings. It does not judge values: a numeral
may be out of range, and a string whose escapes do not pair up to characters is kept as one without
content.
-/

namespace EntityModel

inductive JsonToken where
  | beginArray
  | endArray
  | beginObject
  | endObject
  | comma
  | colon
  | null
  | bool (b : Bool)
  | numeral (n : Numeral)
  /-- A string, without content where its escapes denote no characters. -/
  | string (content : Option String)
  deriving DecidableEq, Repr

namespace JsonToken

/-- A part of a string: a character, or a code unit given by an escape. -/
inductive Piece where
  | char (c : Char)
  | unit (n : Nat)
  deriving DecidableEq, Repr

/-- The characters of a string. A code unit of the upper surrogate range pairs with the escaped code
unit of the lower range that follows it; no other surrogate denotes a character. -/
def content : List Piece → Option (List Char)
  | [] => some []
  | .char c :: rest => (content rest).map (c :: ·)
  | .unit n :: rest =>
    if 0xD800 ≤ n ∧ n < 0xDC00 then
      match rest with
      | .unit m :: more =>
        if 0xDC00 ≤ m ∧ m < 0xE000 then
          (content more).map (Char.ofNat (0x10000 + (n - 0xD800) * 1024 + (m - 0xDC00)) :: ·)
        else none
      | _ => none
    else if 0xDC00 ≤ n ∧ n < 0xE000 then none
    else (content rest).map (Char.ofNat n :: ·)

def hexValue? (c : Char) : Option Nat :=
  if '0' ≤ c ∧ c ≤ '9' then some (c.toNat - 48)
  else if 'a' ≤ c ∧ c ≤ 'f' then some (c.toNat - 87)
  else if 'A' ≤ c ∧ c ≤ 'F' then some (c.toNat - 55)
  else none

/-- The code unit of four hexadecimal digits. -/
def unit? (a b c d : Char) : Option Nat := do
  let a ← hexValue? a
  let b ← hexValue? b
  let c ← hexValue? c
  let d ← hexValue? d
  return ((a * 16 + b) * 16 + c) * 16 + d

/-- The character of an escape of one letter. -/
def escape? : Char → Option Char
  | '"' => some '"'
  | '\\' => some '\\'
  | '/' => some '/'
  | 'b' => some '\x08'
  | 'f' => some '\x0c'
  | 'n' => some '\n'
  | 'r' => some '\r'
  | 't' => some '\t'
  | _ => none

/-- The pieces of a string up to its closing quote, after those read before, and the rest of the
text. -/
def stringBody (before : List Piece) : List Char → Option (List Piece × List Char)
  | '"' :: rest => some (before.reverse, rest)
  | '\\' :: 'u' :: a :: b :: c :: d :: rest =>
    match unit? a b c d with
    | some n => stringBody (.unit n :: before) rest
    | none => none
  | '\\' :: e :: rest =>
    match escape? e with
    | some c => stringBody (.char c :: before) rest
    | none => none
  | c :: rest => if c.toNat < 32 ∨ c = '\\' then none else stringBody (.char c :: before) rest
  | [] => none

/-- Reading the body of a string consumes at least its closing quote. -/
theorem length_lt_of_stringBody {before pieces : List Piece} {cs rest : List Char}
    (h : stringBody before cs = some (pieces, rest)) : rest.length < cs.length := by
  fun_induction stringBody before cs with
  | case1 before r => simp at h; simp [← h.2]
  | case2 before a b c d r n _ ih => have := ih h; simp only [List.length_cons]; omega
  | case3 => simp at h
  | case4 before e r _ c _ ih => have := ih h; simp only [List.length_cons]; omega
  | case5 => simp at h
  | case6 => simp at h
  | case7 before c r _ _ _ _ ih => have := ih h; simp only [List.length_cons]; omega
  | case8 => simp at h

/-- Whether a character is one of the ten digits of numerals. -/
def isDigit (c : Char) : Bool :=
  decide ('0' ≤ c) && decide (c ≤ '9')

def digitValue (c : Char) : Nat :=
  c.toNat - 48

/-- The leading digits of a text and the rest. -/
def digits (cs : List Char) : List Nat × List Char :=
  ((cs.takeWhile isDigit).map digitValue, cs.dropWhile isDigit)

/-- The digits after a decimal point, at least one where there is a point. -/
def fraction? : List Char → Option (List Nat × List Char)
  | '.' :: rest =>
    match digits rest with
    | ([], _) => none
    | found => some found
  | cs => some ([], cs)

/-- The digits of an exponent after its sign, at least one. -/
def exponentBody? (down : Bool) (cs : List Char) :
    Option (Option (Bool × List Nat) × List Char) :=
  match digits cs with
  | ([], _) => none
  | (ds, rest) => some (some (down, ds), rest)

def exponent? : List Char → Option (Option (Bool × List Nat) × List Char)
  | 'e' :: '+' :: rest | 'E' :: '+' :: rest => exponentBody? false rest
  | 'e' :: '-' :: rest | 'E' :: '-' :: rest => exponentBody? true rest
  | 'e' :: rest | 'E' :: rest => exponentBody? false rest
  | cs => some (none, cs)

/-- The digits before the point: a zero stands alone. -/
def whole? : List Char → Option (List Nat × List Char)
  | '0' :: rest => some ([0], rest)
  | cs =>
    match digits cs with
    | ([], _) => none
    | found => some found

/-- A numeral at the start of a text, after its sign. -/
def numeral? (negative : Bool) (cs : List Char) : Option (Numeral × List Char) := do
  let (whole, cs) ← whole? cs
  let (fraction, cs) ← fraction? cs
  let (exponent, cs) ← exponent? cs
  return (⟨negative, whole, fraction, exponent⟩, cs)

def isBlank (c : Char) : Bool :=
  c == ' ' || c == '\n' || c == '\t' || c == '\r'

/-- The token that a text starts with, no blank before it, and the rest of the text. -/
def first? : List Char → Option (JsonToken × List Char)
  | '[' :: rest => some (.beginArray, rest)
  | ']' :: rest => some (.endArray, rest)
  | '\x7b' :: rest => some (.beginObject, rest)
  | '\x7d' :: rest => some (.endObject, rest)
  | ',' :: rest => some (.comma, rest)
  | ':' :: rest => some (.colon, rest)
  | 'n' :: 'u' :: 'l' :: 'l' :: rest => some (.null, rest)
  | 't' :: 'r' :: 'u' :: 'e' :: rest => some (.bool true, rest)
  | 'f' :: 'a' :: 'l' :: 's' :: 'e' :: rest => some (.bool false, rest)
  | '"' :: rest =>
    match stringBody [] rest with
    | some (pieces, rest) => some (.string ((content pieces).map String.ofList), rest)
    | none => none
  | '-' :: rest => (numeral? true rest).map fun (n, rest) => (.numeral n, rest)
  | cs => (numeral? false cs).map fun (n, rest) => (.numeral n, rest)

/-- Reading digits leaves no more than there was. -/
theorem length_digits_le (cs : List Char) : (digits cs).2.length ≤ cs.length := by
  simpa [digits] using (List.dropWhile_suffix isDigit (l := cs)).length_le

/-- Reading a fraction leaves no more than there was, whether there is one or not. -/
theorem length_fraction?_le {cs rest : List Char} {f : List Nat}
    (h : fraction? cs = some (f, rest)) : rest.length ≤ cs.length := by
  unfold fraction? at h
  split at h
  · rename_i r
    have hr := length_digits_le r
    split at h
    · simp at h
    · rw [Option.some.inj h] at hr
      exact Nat.le_succ_of_le hr
  · simp only [Option.some.injEq, Prod.mk.injEq] at h
    simp [h.2]

/-- Reading the digits of an exponent leaves no more than there was. -/
theorem length_exponentBody?_le {down : Bool} {cs rest : List Char} {e : Option (Bool × List Nat)}
    (h : exponentBody? down cs = some (e, rest)) : rest.length ≤ cs.length := by
  unfold exponentBody? at h
  have := length_digits_le cs
  split at h
  · simp at h
  · rename_i ds r _ hd
    simp only [Option.some.injEq, Prod.mk.injEq] at h
    rw [hd] at this
    exact h.2 ▸ this

/-- Reading an exponent leaves no more than there was, whether there is one or not. -/
theorem length_exponent?_le {cs rest : List Char} {e : Option (Bool × List Nat)}
    (h : exponent? cs = some (e, rest)) : rest.length ≤ cs.length := by
  unfold exponent? at h
  split at h <;>
    first
    | (have hle := length_exponentBody?_le h
       simp only [List.length_cons]
       omega)
    | (simp only [Option.some.injEq, Prod.mk.injEq] at h; simp [h.2])

/-- Reading the whole part of a numeral takes a digit at least. -/
theorem length_whole?_lt {cs rest : List Char} {w : List Nat}
    (h : whole? cs = some (w, rest)) : rest.length < cs.length := by
  unfold whole? at h
  split at h
  · simp only [Option.some.injEq, Prod.mk.injEq] at h
    simp [← h.2]
  · split at h
    · simp at h
    · rename_i hne
      simp only [Option.some.injEq] at h
      cases cs with
      | nil => exact absurd rfl (hne _)
      | cons c cs =>
        by_cases hc : isDigit c = true
        · have : rest = cs.dropWhile isDigit := by
            simpa [digits, hc] using (congrArg Prod.snd h).symm
          have := (List.dropWhile_suffix isDigit (l := cs)).length_le
          simp only [List.length_cons]; subst_vars; omega
        · exact absurd (by simp [digits, hc]) (hne (c :: cs))

/-- Reading a numeral takes a character at least. -/
theorem length_numeral?_lt {negative : Bool} {cs rest : List Char} {n : Numeral}
    (h : numeral? negative cs = some (n, rest)) : rest.length < cs.length := by
  simp only [numeral?, Option.bind_eq_bind, Option.bind_eq_some_iff, Option.pure_def,
    Option.some.injEq, Prod.mk.injEq, Prod.exists] at h
  obtain ⟨w, cs₁, hw, f, cs₂, hf, e, cs₃, he, _, rfl⟩ := h
  have h₁ := length_whole?_lt hw
  have h₂ := length_fraction?_le hf
  have h₃ := length_exponent?_le he
  omega

/-- Every token takes a character at least, so a text has finitely many tokens. -/
theorem length_lt_of_first? {cs rest : List Char} {t : JsonToken}
    (h : first? cs = some (t, rest)) : rest.length < cs.length := by
  unfold first? at h
  split at h
  all_goals try (simp only [Option.some.injEq, Prod.mk.injEq] at h; simp [← h.2]; try omega)
  · split at h
    · rename_i hs
      simp only [Option.some.injEq, Prod.mk.injEq] at h
      have := length_lt_of_stringBody hs
      simp only [List.length_cons, ← h.2]; omega
    · simp at h
  · simp only [Option.map_eq_some_iff, Prod.exists, Prod.mk.injEq] at h
    obtain ⟨n, r, hn, _, rfl⟩ := h
    have := length_numeral?_lt hn
    simp only [List.length_cons]; omega
  · simp only [Option.map_eq_some_iff, Prod.exists, Prod.mk.injEq] at h
    obtain ⟨n, r, hn, _, rfl⟩ := h
    exact length_numeral?_lt hn

/-- The tokens of a text after those read before. -/
def scan (before : List JsonToken) (cs : List Char) : Option (List JsonToken) :=
  match cs with
  | [] => some before.reverse
  | c :: rest =>
    if isBlank c then scan before rest
    else
      match _h : first? (c :: rest) with
      | some (t, more) => scan (t :: before) more
      | none => none
termination_by cs.length
decreasing_by
  · simp
  · exact length_lt_of_first? ‹_›

def ofText (s : String) : Option (List JsonToken) :=
  scan [] s.toList

end JsonToken

end EntityModel
