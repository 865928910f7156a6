import EntityModel.Text.Table.UppercaseLetter
import EntityModel.Text.Table.LowercaseLetter
import EntityModel.Text.Table.DecimalDigit
import EntityModel.Text.Table.LowercaseMapping

/-!
# Character classes

The classes that names are read by: letters by case, decimal digits and blanks, and the lowercase
form of a character. All of them range over the whole of Unicode; names of types and properties are
not restricted to ASCII. The letters and digits are those of Unicode 16; the property `Uppercase`
and the lowercase forms follow Unicode 17, which has more capitals.
-/

namespace EntityModel.Text

/-- An uppercase letter: a character of the category `Lu`. -/
def isUppercaseLetter (c : Char) : Bool :=
  Table.uppercaseLetter.any (·.covers c.toNat)

/-- A lowercase letter: a character of the category `Ll`. -/
def isLowercaseLetter (c : Char) : Bool :=
  Table.lowercaseLetter.any (·.covers c.toNat)

/-- A decimal digit of any script: a character of the category `Nd`. -/
def isDecimalDigit (c : Char) : Bool :=
  Table.decimalDigit.any (·.covers c.toNat)

/-- Uppercase symbols that are no letters: Roman numerals and letters in circles and squares. -/
def uppercaseSymbols : List Span :=
  [⟨8544, 8559, 1⟩, ⟨9398, 9423, 1⟩, ⟨127280, 127305, 1⟩, ⟨127312, 127337, 1⟩, ⟨127344, 127369, 1⟩]

/-- The capitals that Unicode 17 added: they have lowercase forms, but are no uppercase letters of
the class above. -/
def newCapitals : List Span :=
  [⟨42958, 42958, 1⟩, ⟨42962, 42964, 2⟩, ⟨93856, 93880, 1⟩]

/-- The property `Uppercase`: uppercase letters, uppercase symbols and new capitals. -/
def isUppercase (c : Char) : Bool :=
  isUppercaseLetter c || uppercaseSymbols.any (·.covers c.toNat) ||
    newCapitals.any (·.covers c.toNat)

/-- The blanks, characters with the property `White_Space`. -/
def blanks : List Span :=
  [⟨9, 13, 1⟩, ⟨32, 32, 1⟩, ⟨133, 133, 1⟩, ⟨160, 160, 1⟩, ⟨5760, 5760, 1⟩, ⟨8192, 8202, 1⟩,
   ⟨8232, 8233, 1⟩, ⟨8239, 8239, 1⟩, ⟨8287, 8287, 1⟩, ⟨12288, 12288, 1⟩]

def isBlank (c : Char) : Bool :=
  blanks.any (·.covers c.toNat)

/-- The lowercase form of a character. Only the dotted capital I (`U+0130`) has one of two
characters: the letter i and a combining dot. -/
def lowercase (c : Char) : List Char :=
  if c.toNat = 0x130 then ['i', Char.ofNat 0x307]
  else
    match Table.lowercaseMapping.find? (·.1.covers c.toNat) with
    | some (_, offset) => [Char.ofNat (c.toNat + offset).toNat]
    | none => [c]

/-- The text without the blanks at its two ends. -/
def trimChars (cs : List Char) : List Char :=
  ((cs.dropWhile isBlank).reverse.dropWhile isBlank).reverse

/-- The text without the blanks at its two ends. -/
def trim (s : String) : String :=
  String.ofList (trimChars s.toList)

end EntityModel.Text
