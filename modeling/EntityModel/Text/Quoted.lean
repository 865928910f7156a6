import EntityModel.Text.Table.GraphemeExtend
import EntityModel.Text.Table.Unprintable

/-!
# Diagnostic texts

Diagnostic texts show things as records of named parts. They quote names so that each name can be
read off the output: quotes and backslashes are escaped, a few controls have letters, and a
character that would be invisible or would join the character before it is written as its code
point.
-/

namespace EntityModel.Text

/-- A character that has a visible form standing alone. -/
def isPlain (c : Char) : Bool :=
  !Table.graphemeExtend.any (·.covers c.toNat) && !Table.unprintable.any (·.covers c.toNat)

/-- The escape of a character as its code point in lowercase hexadecimal digits. -/
def codePointEscape (c : Char) : List Char :=
  ['\\', 'u', '\x7b'] ++ Nat.toDigits 16 c.toNat ++ ['\x7d']

/-- A character inside quotes. -/
def quoteChar (c : Char) : List Char :=
  match c with
  | '\x00' => ['\\', '0']
  | '\t' => ['\\', 't']
  | '\r' => ['\\', 'r']
  | '\n' => ['\\', 'n']
  | '\\' => ['\\', '\\']
  | '"' => ['\\', '"']
  | c => if isPlain c then [c] else codePointEscape c

def quoted (s : String) : String :=
  String.ofList ('"' :: s.toList.flatMap quoteChar ++ ['"'])

def bracketed (items : List String) : String :=
  "[" ++ ", ".intercalate items ++ "]"

/-- A record: its name and its named parts, one at least. -/
def record (name : String) (parts : List (String × String)) : String :=
  name ++ " \x7b " ++ ", ".intercalate (parts.map fun (part, text) => part ++ ": " ++ text) ++
    " \x7d"

def truth (b : Bool) : String :=
  if b then "true" else "false"

def optionalName : Option String → String
  | some name => "Some(" ++ quoted name ++ ")"
  | none => "None"

end EntityModel.Text
