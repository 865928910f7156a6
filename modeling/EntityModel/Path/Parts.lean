/-!
# Parts of a path source

A source is cut into parts at underscores and dots. One delimiter separates two parts; further
delimiters before a part belong to it, delimiters at the end are dropped. A quoted source, written
between `\Q` and `\E`, is cut at dots only, after every such marker has been taken out.
-/

namespace EntityModel.Path

/-- The runs of characters that are no delimiters, each with the delimiters directly before it. -/
def runs (isDelimiter : Char → Bool) : List Char → List (List Char × List Char)
  | [] => []
  | c :: cs =>
    match runs isDelimiter cs with
    | [] => if isDelimiter c then [] else [([], [c])]
    | (before, run) :: more =>
      if isDelimiter c then (c :: before, run) :: more
      else
        match before with
        | [] => ([], c :: run) :: more
        -- the run has delimiters before it, so the character makes a run of its own
        | before => ([], [c]) :: (before, run) :: more

/-- A run behind all of its delimiters but the first, which separates it from the run before. -/
def separated (run : List Char × List Char) : List Char :=
  run.1.drop 1 ++ run.2

def isUnderscoreOrDot (c : Char) : Bool :=
  c == '_' || c == '.'

def isDot (c : Char) : Bool :=
  c == '.'

/-- Whether a source is quoted as a whole, on one line. -/
def isQuoted : List Char → Bool
  | '\\' :: 'Q' :: rest => ['\\', 'E'].isSuffixOf rest && !rest.contains '\n'
  | _ => false

/-- The text without a marker, a backslash and the given letter, wherever it stands. -/
def removeMarker (letter : Char) : List Char → List Char
  | [] => []
  | '\\' :: c :: cs =>
    if c = letter then removeMarker letter cs else '\\' :: removeMarker letter (c :: cs)
  | c :: cs => c :: removeMarker letter cs

def parts (source : List Char) : List (List Char) :=
  if isQuoted source then
    (runs isDot (removeMarker 'E' (removeMarker 'Q' source))).map separated
  else
    match runs isUnderscoreOrDot source with
    -- the first part has no part before it, so it keeps all of its delimiters
    | [] => []
    | (before, run) :: more => (before ++ run) :: more.map separated

end EntityModel.Path
