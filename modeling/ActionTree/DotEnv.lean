/-
# Variables from a file

The file `.env` gives variables values, line by line. A value in quotes may go on
over several lines, and may mention variables. What stands in front of a fault
counts; a variable that is set keeps its value.

* `logicalLines`: the lines, where quotes and comments are respected.
* `readValue?`: the value of a line, without quotes and with variables replaced.
* `assignment?`: the variable that a line sets.
* `load?`: the environment after a file.
-/
import ActionTree.Environment
import ActionTree.Text.Alphanumeric
import ActionTree.Text.Blank
import ActionTree.Text.Mark

namespace ActionTree.DotEnv

open Text (isAlphanumeric isBlank)

/-- The text without the blanks in front. -/
def skipBlank (text : List Char) : List Char :=
  text.dropWhile isBlank

/-! ### Lines -/

/-- The lines of a text, each with the line feed at its end. -/
def lines : List Char → List (List Char)
  | [] => []
  | '\n' :: rest => ['\n'] :: lines rest
  | c :: rest => match lines rest with
    | [] => [[c]]
    | line :: others => (c :: line) :: others

/-- Where a line stands: outside of quotes or behind a first blank there, in single
or in double quotes, and behind a backslash in each of the three. -/
inductive Place where
  | plain
  | blank
  | escape
  | single
  | singleEscape
  | double
  | doubleEscape
  deriving DecidableEq

/-- The place behind a character outside of quotes. -/
def Place.outside (c : Char) : Place :=
  if c = '\\' then escape
  else if c = '"' then double
  else if c = '\'' then single
  else plain

/-- The place behind the next character. -/
def Place.next (c : Char) : Place → Place
  | plain => if isBlank c && c != '\n' && c != '\r' then blank else Place.outside c
  | blank => Place.outside c
  | escape => plain
  | single => if c = '\\' then singleEscape else if c = '\'' then plain else single
  | singleEscape => single
  | double => if c = '\\' then doubleEscape else if c = '"' then plain else double
  | doubleEscape => double

/-- The part of a line in front of a comment with nothing for the place, or the
whole line with the place at its end. A comment begins right behind a first
blank. -/
def scanLine : Place → List Char → List Char × Option Place
  | place, [] => ([], some place)
  | place, c :: rest =>
    if place = .blank && c = '#' then ([], none)
    else
      let (line, place) := scanLine (place.next c) rest
      (c :: line, place)

/-- The lines of a file joined where one ends inside of quotes. Nothing stands for
a line that the file does not finish. -/
def logicalLines : Place → List Char → List (List Char) → List (Option (List Char))
  | place, _, [] => if place = .plain then [] else [none]
  | place, before, line :: rest =>
    if (skipBlank (before ++ line)).head? = some '#' then logicalLines .plain [] rest
    else match scanLine place line with
      | (line, none) => some (before ++ line) :: logicalLines .plain [] rest
      | (line, some .plain) => some (before ++ line) :: logicalLines .plain [] rest
      | (line, some place) => logicalLines place (before ++ line) rest

/-! ### Values -/

/-- What the next character of a value belongs to: plain text, text in single or in
double quotes, an escape, the name of a variable with or without braces, or the
blanks behind the value. An escape or a name can stand in double quotes. -/
inductive Part where
  | plain
  | single
  | double
  | escape (quoted : Bool)
  | name (quoted : Bool) (name : List Char)
  | braces (quoted : Bool) (name : List Char)
  | done

/-- The text around an escape or a name. -/
def Part.around (quoted : Bool) : Part :=
  if quoted then double else plain

/-- The character that a backslash and this character stand for. -/
def escaped? (c : Char) : Option Char :=
  if c = 'n' then some '\n'
  else if c = '\\' || c = '\'' || c = '"' || c = '$' || c = ' ' then some c
  else none

/-- The characters that a name leads to. -/
def expand (environment : Environment) (name : List Char) : List Char :=
  ((environment.value? (String.ofList name)).getD "").toList

/-- Reads a value. Without braces a name goes on as long as letters and digits
follow, and the character behind it counts as text. -/
def readValue? (environment : Environment) : Part → List Char → Option (List Char)
  | .plain, [] | .done, [] => some []
  | .escape quoted, [] => if quoted then none else some []
  | .name quoted name, [] => if quoted then none else some (expand environment name)
  | .single, [] | .double, [] | .braces .., [] => none
  | .plain, c :: rest =>
    if c = '$' then readValue? environment (.name false []) rest
    else if c = '\'' then readValue? environment .single rest
    else if c = '"' then readValue? environment .double rest
    else if c = '\\' then readValue? environment (.escape false) rest
    else if c = ' ' || c = '\t' then readValue? environment .done rest
    else (readValue? environment .plain rest).map (c :: ·)
  | .single, c :: rest =>
    if c = '\'' then readValue? environment .plain rest
    else (readValue? environment .single rest).map (c :: ·)
  | .double, c :: rest =>
    if c = '$' then readValue? environment (.name true []) rest
    else if c = '"' then readValue? environment .plain rest
    else if c = '\\' then readValue? environment (.escape true) rest
    else (readValue? environment .double rest).map (c :: ·)
  | .escape quoted, c :: rest => match escaped? c with
    | none => none
    | some c => (readValue? environment (.around quoted) rest).map (c :: ·)
  | .name quoted name, c :: rest =>
    if isAlphanumeric c then readValue? environment (.name quoted (name ++ [c])) rest
    else if c = '{' && name.isEmpty then readValue? environment (.braces quoted []) rest
    else if c = '$' then
      (readValue? environment (.name quoted []) rest).map (expand environment name ++ ·)
    else (readValue? environment (.around quoted) rest).map (expand environment name ++ c :: ·)
  | .braces quoted name, c :: rest =>
    if c = '}' then
      (readValue? environment (.around quoted) rest).map (expand environment name ++ ·)
    else readValue? environment (.braces quoted (name ++ [c])) rest
  | .done, c :: rest =>
    if c = ' ' || c = '\t' then readValue? environment .done rest
    else if c = '#' then some []
    else none

/-! ### Assignments -/

/-- Whether a name can begin with a character. -/
def isNameStart (c : Char) : Bool :=
  c.isAlpha || c = '_'

/-- Whether a name can go on with a character. -/
def isNameChar (c : Char) : Bool :=
  c.isAlphanum || c = '_' || c = '.'

/-- Takes a name off the front of a text, and the blanks behind it. -/
def scanName? (text : List Char) : Option (List Char × List Char) :=
  match text with
  | c :: _ =>
    if isNameStart c then some (text.takeWhile isNameChar, skipBlank (text.dropWhile isNameChar))
    else none
  | [] => none

/-- The name of a line and what follows the equals sign behind it. The word
`export` may stand in front. -/
def scanTarget? (text : List Char) : Option (List Char × List Char) := do
  let (name, rest) ← scanName? text
  match rest with
  | '=' :: rest => some (name, rest)
  | rest =>
    if name = ['e', 'x', 'p', 'o', 'r', 't'] then
      match ← scanName? rest with
      | (name, '=' :: rest) => some (name, rest)
      | _ => none
    else none

/-- What a line sets: a variable with its value, or nothing if the line is blank or a
comment. None for any other line. -/
def assignment? (environment : Environment) (line : List Char) :
    Option (Option (String × String)) :=
  match Text.trimBlank line with
  | [] | '#' :: _ => some none
  | text => match scanTarget? text with
    | none => none
    | some (name, rest) => match skipBlank rest with
      | [] | '#' :: _ => some (some (String.ofList name, ""))
      | value => (readValue? environment .plain value).map fun value =>
        some (String.ofList name, String.ofList value)

/-! ### Files -/

/-- The environment after lines, up to the first that is at fault. None if a variable
would get a value that it cannot hold. -/
def loadLines? (environment : Environment) : List (Option (List Char)) → Option Environment
  | [] | none :: _ => some environment
  | some line :: rest => match assignment? environment line with
    | none => some environment
    | some none => loadLines? environment rest
    | some (some (name, value)) => match environment.provide? name value with
      | none => none
      | some environment => loadLines? environment rest

/-- The environment after a file with the given text. -/
def load? (environment : Environment) (text : String) : Option Environment :=
  loadLines? environment (logicalLines .plain [] (lines (Text.skipMark text.toList)))

end ActionTree.DotEnv
