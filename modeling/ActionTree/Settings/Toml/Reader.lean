/-
# Reading TOML text

* `readValue?`: a value off the front of a text.
* `readDocument?`: the statements of a document, one after the other.
* `ofText?`: the value that a document describes.
-/
import ActionTree.Settings.Toml.Scalar
import ActionTree.Settings.Toml.Table
import ActionTree.Text.Mark

namespace ActionTree.Toml

/-! ### Space and comments -/

/-- The text behind blanks, line ends and comments. -/
def skipSpace? : Bool → List Char → Option (List Char)
  | _, [] => some []
  | _, '\n' :: rest => skipSpace? false rest
  | _, '\r' :: '\n' :: rest => skipSpace? false rest
  | true, c :: rest => if isPlain c then skipSpace? true rest else none
  | false, c :: rest =>
    if isBlank c then skipSpace? false rest
    else if c = '#' then skipSpace? true rest
    else some (c :: rest)

/-- The text behind the end of a line, in front of which a comment may stand. -/
def endLine? (text : List Char) : Option (List Char) :=
  let rest := match skipBlank text with
    | '#' :: rest => rest.dropWhile isPlain
    | rest => rest
  match rest with
  | [] => some []
  | '\n' :: rest => some rest
  | '\r' :: '\n' :: rest => some rest
  | _ => none

/-! ### Values -/

mutual

/-- Reads a value. At most `depth` arrays and tables may be open inside it. -/
def readValue? : Nat → Nat → List Char → Option (Value × List Char)
  | 0, _, _ => none
  | fuel + 1, depth, text => match text with
    | '[' :: rest => match depth with
      | 0 => none
      | depth + 1 => readItems? fuel depth [] rest
    | '{' :: rest => match depth with
      | 0 => none
      | depth + 1 => match skipBlank rest with
        | '}' :: rest => some (.table [], rest)
        | rest => readEntries? fuel depth (.empty .header) rest
    | '"' :: _ | '\'' :: _ => (readText? text).map fun (value, rest) => (.text value, rest)
    | text => readScalar? text

/-- Reads the items of an array from the next one on, and the closing bracket. -/
def readItems? : Nat → Nat → List Value → List Char → Option (Value × List Char)
  | 0, _, _, _ => none
  | fuel + 1, depth, done, text => match skipSpace? false text with
    | none => none
    | some (']' :: rest) => some (.array done.reverse, rest)
    | some text => match readValue? fuel depth text with
      | none => none
      | some (item, rest) => match skipSpace? false rest with
        | some (',' :: rest) => readItems? fuel depth (item :: done) rest
        | some (']' :: rest) => some (.array (item :: done).reverse, rest)
        | _ => none

/-- Reads the entries of a table in braces from the next one on, and the closing
brace. -/
def readEntries? : Nat → Nat → Table → List Char → Option (Value × List Char)
  | 0, _, _, _ => none
  | fuel + 1, depth, table, text => match readPath? text with
    | some (path, '=' :: rest) => match readValue? fuel depth (skipBlank rest) with
      | none => none
      | some (value, rest) => match table.assign? path value with
        | none => none
        | some table => match skipBlank rest with
          | ',' :: rest => readEntries? fuel depth table rest
          | '}' :: rest => some (table.toValue, rest)
          | _ => none
    | _ => none

end

/-! ### Statements -/

/-- Reads the path of a header behind its opening bracket, and one closing bracket. -/
def readHeader? (text : List Char) : Option (List String × List Char) :=
  match readPath? text with
  | some (path, ']' :: rest) => some (path, rest)
  | _ => none

/-- Reads the statements of a document below the header in force. -/
def readDocument? : Nat → List String → Table → List Char → Option Table
  | 0, _, _, _ => none
  | fuel + 1, header, table, text => match skipSpace? false text with
    | none => none
    | some [] => some table
    | some ('[' :: '[' :: rest) => match readHeader? rest with
      | some (path, ']' :: rest) => do
        readDocument? fuel path (← table.openItem? path) (← endLine? rest)
      | _ => none
    | some ('[' :: rest) => match readHeader? rest with
      | some (path, rest) => do
        readDocument? fuel path (← table.openTable? path) (← endLine? rest)
      | none => none
    | some text => match readPath? text with
      | some (path, '=' :: rest) => do
        let (value, rest) ← readValue? (2 * rest.length + 1) nestingLimit (skipBlank rest)
        readDocument? fuel header (← table.assignBelow? header path value) (← endLine? rest)
      | _ => none

/-- The table of a document. Each statement uses up a character. -/
def tableOf? (text : String) : Option Table :=
  let chars := Text.skipMark text.toList
  readDocument? (chars.length + 1) [] (.empty .header) chars

/-- The value that a document describes. -/
def ofText? (text : String) : Option Setting := do
  (← tableOf? text).toValue.toSetting?

end ActionTree.Toml
