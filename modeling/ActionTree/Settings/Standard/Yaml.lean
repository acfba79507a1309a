/-
# Reading YAML text

The part of YAML in which settings are written: mappings and sequences, by indentation or in
brackets, of plain and quoted texts on one line. Anchors, tags, texts over several lines and
directives are not read.

* `Yaml.scalar`: the value that a plain text denotes.
* `Yaml.readFlow?`: a text, or a mapping or sequence in brackets, off the front of a text.
* `Yaml.readBlock?`: a value off the front of a row of lines.
* `Yaml.ofText?`: the value that a document describes.
-/
import ActionTree.Fields
import ActionTree.Settings.Standard.Text
import ActionTree.Text.Hex

namespace ActionTree.Yaml

/-! ### Plain texts -/

/-- The integer that digits to a base denote, with an optional sign in front. -/
def based? (base : Nat) (text : List Char) : Option Int :=
  let (negative, digits) := Decimal.scanSign text
  let value? (c : Char) : Option Nat := (Text.hexValue? c).filter (· < base)
  if digits.isEmpty then none
  else do
    let magnitude ← digits.foldlM (fun n c => (value? c).map (base * n + ·)) 0
    let n : Int := if negative then -magnitude else magnitude
    if -0x8000000000000000 ≤ n && n < 0x8000000000000000 then some n else none

/-- The integer that a plain text denotes. -/
def integer? (text : List Char) : Option Int :=
  match text with
  | '0' :: 'x' :: digits => based? 16 digits
  | '0' :: 'o' :: digits => based? 8 digits
  | text => Settings.integer? text

/-- The words for infinity and NaN, which settings cannot have. -/
def unusual : List String :=
  [".inf", ".Inf", ".INF", "+.inf", "+.Inf", "+.INF", "-.inf", "-.Inf", "-.INF", ".nan", ".NaN",
    ".NAN"]

/-- The value that a plain text denotes. -/
def scalar (text : List Char) : Option Setting :=
  let word := String.ofList text
  if word = "" || word = "~" || word = "null" then some .null
  else if word = "true" then some (.bool true)
  else if word = "false" then some (.bool false)
  else if unusual.contains word then none
  else match integer? text with
    | some n => some (.int n)
    | none => match (Decimal.ofText? text).filter fun _ => text.any Char.isDigit with
      | some x => some (.float x)
      | none => some (.text word)

/-! ### Characters -/

/-- The blanks inside a line. -/
def isBlank (c : Char) : Bool :=
  c = ' ' || c = '\t'

/-- The text without the blanks in front. -/
def skipBlank (text : List Char) : List Char :=
  text.dropWhile isBlank

/-- Whether nothing but a comment follows. -/
def endsHere (text : List Char) : Bool :=
  match text with
  | [] => true
  | c :: _ => isBlank c && match skipBlank text with
    | [] | '#' :: _ => true
    | _ => false

/-- The signs that separate values in brackets. -/
def isFlowSign (c : Char) : Bool :=
  c = ',' || c = '[' || c = ']' || c = '{' || c = '}'

/-- Whether a text ends a name in front of it: a blank or the end, in brackets a sign too. -/
def endsName (flow : Bool) : List Char → Bool
  | [] => true
  | c :: _ => isBlank c || flow && isFlowSign c

/-- Whether a plain text can begin so. -/
def opensPlain (flow : Bool) : List Char → Bool
  | [] => false
  | c :: rest =>
    if c = '-' || c = '?' || c = ':' then !endsName flow rest
    else !(isFlowSign c || c = '#' || c = '&' || c = '*' || c = '!' || c = '|' || c = '>' ||
      c = '\'' || c = '"' || c = '%' || c = '@' || c.toNat = 0x60)

/-- Takes a plain text off the front, up to a colon, a comment or what ends it in brackets. -/
def takePlain (flow : Bool) (done : List Char) : List Char → List Char × List Char
  | [] => (done.reverse, [])
  | ':' :: rest =>
    if endsName flow rest then (done.reverse, ':' :: rest) else takePlain flow (':' :: done) rest
  | c :: rest =>
    if flow && isFlowSign c || isBlank c && rest.head? = some '#' then (done.reverse, c :: rest)
    else takePlain flow (c :: done) rest

/-- The text without the blanks at its end. -/
def dropBlankEnd (text : List Char) : List Char :=
  (text.reverse.dropWhile isBlank).reverse

/-! ### Quoted texts -/

/-- The character that a letter behind a backslash stands for. -/
def escaped? : Char → Option Char
  | '0' => some '\x00'
  | 'a' => some '\x07'
  | 'b' => some '\x08'
  | 't' | '\t' => some '\t'
  | 'n' => some '\n'
  | 'v' => some '\x0b'
  | 'f' => some '\x0c'
  | 'r' => some '\r'
  | 'e' => some '\x1b'
  | ' ' => some ' '
  | '"' => some '"'
  | '/' => some '/'
  | '\\' => some '\\'
  | 'N' => some (Char.ofNat 0x85)
  | '_' => some (Char.ofNat 0xA0)
  | 'L' => some (Char.ofNat 0x2028)
  | 'P' => some (Char.ofNat 0x2029)
  | _ => none

/-- Reads text behind its opening double quote, up to the closing one. -/
def readDouble? (done : List Char) : List Char → Option (String × List Char)
  | [] => none
  | '"' :: rest => some (String.ofList done.reverse, rest)
  | '\\' :: 'x' :: a :: b :: rest => match Text.scalar? [a, b] with
    | none => none
    | some c => readDouble? (c :: done) rest
  | '\\' :: 'u' :: a :: b :: c :: d :: rest => match Text.scalar? [a, b, c, d] with
    | none => none
    | some c => readDouble? (c :: done) rest
  | '\\' :: 'U' :: a :: b :: c :: d :: e :: f :: g :: h :: rest =>
    match Text.scalar? [a, b, c, d, e, f, g, h] with
    | none => none
    | some c => readDouble? (c :: done) rest
  | '\\' :: c :: rest => match escaped? c with
    | none => none
    | some c => readDouble? (c :: done) rest
  | c :: rest => if c != '\\' then readDouble? (c :: done) rest else none

/-- Reads text behind its opening single quote, up to the closing one. Two single quotes stand
for one. -/
def readSingle? (done : List Char) : List Char → Option (String × List Char)
  | [] => none
  | '\'' :: '\'' :: rest => readSingle? ('\'' :: done) rest
  | '\'' :: rest => some (String.ofList done.reverse, rest)
  | c :: rest => readSingle? (c :: done) rest

/-- Reads a plain or quoted text. -/
def readScalar? (flow : Bool) : List Char → Option (Setting × List Char)
  | '"' :: rest => (readDouble? [] rest).map fun (text, rest) => (.text text, rest)
  | '\'' :: rest => (readSingle? [] rest).map fun (text, rest) => (.text text, rest)
  | text =>
    if opensPlain flow text then
      let (plain, rest) := takePlain flow [] text
      (scalar (dropBlankEnd plain)).map fun value => (value, rest)
    else none

/-! ### Mappings -/

/-- The table of entries with values as keys. Only a text can be a name. -/
def tableOf (entries : List (Setting × Setting)) : Setting :=
  .table (Fields.ofList (entries.filterMap fun
    | (.text name, value) => some (name, value)
    | _ => none))

/-- Reads a key and the colon behind it. -/
def readKey? (flow : Bool) (text : List Char) : Option (Setting × List Char) :=
  match readScalar? flow text with
  | some (key, rest) => match skipBlank rest with
    | ':' :: rest => if endsName flow rest then some (key, rest) else none
    | _ => none
  | none => none

/-! ### Brackets -/

mutual

/-- Reads a text, or a mapping or sequence in brackets. -/
def readFlow? (flow : Bool) : Nat → List Char → Option (Setting × List Char)
  | 0, _ => none
  | fuel + 1, text => match text with
    | '[' :: rest => readFlowItems? fuel [] (skipBlank rest)
    | '{' :: rest => readFlowEntries? fuel [] (skipBlank rest)
    | text => readScalar? flow text

/-- Reads the items of a sequence from the next one on, and the closing bracket. -/
def readFlowItems? : Nat → List Setting → List Char → Option (Setting × List Char)
  | 0, _, _ => none
  | _ + 1, done, ']' :: rest => some (.array done.reverse, rest)
  | fuel + 1, done, text => match readFlow? true fuel text with
    | none => none
    | some (item, rest) => match skipBlank rest with
      | ',' :: rest => readFlowItems? fuel (item :: done) (skipBlank rest)
      | ']' :: rest => some (.array (item :: done).reverse, rest)
      | _ => none

/-- Reads the entries of a mapping from the next one on, and the closing brace. -/
def readFlowEntries? : Nat → List (Setting × Setting) → List Char → Option (Setting × List Char)
  | 0, _, _ => none
  | _ + 1, done, '}' :: rest => some (tableOf done.reverse, rest)
  | fuel + 1, done, text => match readKey? true text with
    | none => none
    | some (key, rest) => match readFlow? true fuel (skipBlank rest) with
      | none => none
      | some (value, rest) => match skipBlank rest with
        | ',' :: rest => readFlowEntries? fuel ((key, value) :: done) (skipBlank rest)
        | '}' :: rest => some (tableOf ((key, value) :: done).reverse, rest)
        | _ => none

end

/-- The value that the rest of a line holds. -/
def lineValue? (text : List Char) : Option Setting :=
  match readFlow? false (2 * text.length + 1) text with
  | some (value, rest) => if endsHere rest then some value else none
  | none => none

/-! ### Lines -/

/-- A line: how far it is indented, and what stands on it. -/
structure Line where
  indent : Nat
  text : List Char

/-- The item that a line begins with, behind its hyphen. -/
def Line.item? (line : Line) : Option (List Char) :=
  match line.text with
  | '-' :: rest => if endsName false rest then some rest else none
  | _ => none

/-- The lines with something on them. None if one is indented by a tab. -/
def linesOf? (text : List Char) : Option (List Line) :=
  let lines := (text.splitOn '\n').map fun line =>
    if line.getLast? = some '\r' then line.dropLast else line
  (lines.filter fun line => !endsHere (' ' :: line)).mapM fun line =>
    let rest := line.dropWhile (· = ' ')
    if rest.head? = some '\t' then none else some ⟨line.length - rest.length, rest⟩

mutual

/-- Reads the value that the next lines hold, if they are indented so far. Nothing there is
null. -/
def readBlock? (indent : Nat) : Nat → List Line → Option (Setting × List Line)
  | 0, _ => none
  | _ + 1, [] => some (.null, [])
  | fuel + 1, line :: rest =>
    if line.indent < indent then some (.null, line :: rest)
    else if line.item?.isSome then readItems? line.indent fuel [] (line :: rest)
    else if (readKey? false line.text).isSome then readEntries? line.indent fuel [] (line :: rest)
    else (lineValue? line.text).map fun value => (value, rest)

/-- Reads the items of a sequence on lines that are indented so far. -/
def readItems? (indent : Nat) : Nat → List Setting → List Line → Option (Setting × List Line)
  | 0, _, _ => none
  | _ + 1, done, [] => some (.array done.reverse, [])
  | fuel + 1, done, line :: rest =>
    if line.indent < indent then some (.array done.reverse, line :: rest)
    else match line.item? with
      | none => if line.indent = indent then some (.array done.reverse, line :: rest) else none
      | some text =>
        if indent < line.indent then none
        else if endsHere text then match readBlock? (indent + 1) fuel rest with
          | none => none
          | some (item, rest) => readItems? indent fuel (item :: done) rest
        else match lineValue? (skipBlank text) with
          | none => none
          | some item => readItems? indent fuel (item :: done) rest

/-- Reads the entries of a mapping on lines that are indented so far. The value of a key
stands behind it or on the lines that follow; a sequence need not be indented further. -/
def readEntries? (indent : Nat) :
    Nat → List (Setting × Setting) → List Line → Option (Setting × List Line)
  | 0, _, _ => none
  | _ + 1, done, [] => some (tableOf done.reverse, [])
  | fuel + 1, done, line :: rest =>
    if line.indent < indent then some (tableOf done.reverse, line :: rest)
    else if indent < line.indent then none
    else match readKey? false line.text with
      | none => none
      | some (key, text) =>
        if endsHere text then
          let below := if rest.head?.any (·.item?.isSome) then indent else indent + 1
          match readBlock? below fuel rest with
          | none => none
          | some (value, rest) => readEntries? indent fuel ((key, value) :: done) rest
        else match lineValue? (skipBlank text) with
          | none => none
          | some value => readEntries? indent fuel ((key, value) :: done) rest

end

/-! ### Documents -/

/-- The line that begins a document. -/
def marker : List Char :=
  ['-', '-', '-']

/-- The value that a document describes: an empty table if there is nothing in it. -/
def ofText? (text : String) : Option Setting := do
  let lines ← linesOf? text.toList
  let (marked, lines) := match lines with
    | ⟨0, first⟩ :: rest => if dropBlankEnd first = marker then (true, rest) else (false, lines)
    | lines => (false, lines)
  if lines.isEmpty && !marked then return .table []
  match ← readBlock? 0 (2 * lines.length + 2) lines with
  | (value, []) => return value
  | _ => none

end ActionTree.Yaml
