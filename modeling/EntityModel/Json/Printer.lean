import EntityModel.Json.Basic

/-!
# Compact JSON text

A document is written without blanks. Of the characters in a string only quotes, backslashes and
control characters are escaped. A double-precision number has the fewest digits that read back and
is told from a whole number by a decimal point or an exponent; infinities and NaN have no text and
are written as null.
-/

namespace EntityModel.Json

/-- Numbers have their point in place for decimal exponents from -5 to 15, keep a zero after the
point of a whole number, and an exact tie of two shortest decimals goes to the even digit. -/
def numberStyle : NumberStyle where
  tie := .even
  isPositional := fun e => decide (-5 ≤ e) && decide (e ≤ 15)
  wholeSuffix := ['.', '0']

def hexDigit (n : Nat) : Char :=
  if n < 10 then Char.ofNat (48 + n) else Char.ofNat (87 + n)

def escapeChar (c : Char) : List Char :=
  match c with
  | '"' => ['\\', '"']
  | '\\' => ['\\', '\\']
  | '\n' => ['\\', 'n']
  | '\r' => ['\\', 'r']
  | '\t' => ['\\', 't']
  | '\x08' => ['\\', 'b']
  | '\x0c' => ['\\', 'f']
  | c =>
    if c.toNat < 32 then ['\\', 'u', '0', '0', hexDigit (c.toNat / 16), hexDigit (c.toNat % 16)]
    else [c]

def stringText (s : String) : List Char :=
  '"' :: s.toList.flatMap escapeChar ++ ['"']

def numberText : JsonNumber → List Char
  | .integer n => (toString n).toList
  | .float x => if x.isFinite then (numberStyle.write x).toList else "null".toList

mutual

def chars : Json → List Char
  | .null => "null".toList
  | .bool true => "true".toList
  | .bool false => "false".toList
  | .number n => numberText n
  | .string s => stringText s
  | .array items => '[' :: itemChars items ++ [']']
  | .object members => '\x7b' :: memberChars members ++ ['\x7d']

/-- The items of an array, separated by commas. -/
def itemChars : List Json → List Char
  | [] => []
  | [j] => chars j
  | j :: rest => chars j ++ ',' :: itemChars rest

def memberChars : List (String × Json) → List Char
  | [] => []
  | [(k, j)] => stringText k ++ ':' :: chars j
  | (k, j) :: rest => stringText k ++ ':' :: chars j ++ ',' :: memberChars rest

end

def compact (j : Json) : String :=
  String.ofList (chars j)

end EntityModel.Json
