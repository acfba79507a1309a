/-
# Reading patterns

* `readEscape?`: what a backslash stands for.
* `readOperands?`: a set in brackets.
* `readBranches?`: the branches of a group or of a whole pattern.
* `Pattern.ofText?`: the pattern that a text describes, if it can be used.
-/
import ActionTree.Pattern.Basic
import ActionTree.Text.Alphanumeric
import ActionTree.Text.Blank
import ActionTree.Text.Hex

namespace ActionTree.Pattern

open Text (isBlank isAlphabetic isAlphanumeric)

/-! ### Blanks and comments -/

/-- The text behind blanks and comments, from inside of a comment or not. -/
def skipComments : Bool → List Char → List Char
  | _, [] => []
  | true, c :: rest => skipComments (c != '\n') rest
  | false, c :: rest =>
    if isBlank c then skipComments false rest
    else if c = '#' then skipComments true rest
    else c :: rest

/-- The text behind what does not count in the spaced mode. -/
def skip (spaced : Bool) (text : List Char) : List Char :=
  if spaced then skipComments false text else text

/-- The next character that counts for a hyphen in a set. Of a comment only the number
sign and the blanks are left out. -/
def following? (spaced : Bool) (text : List Char) : Option Char :=
  if spaced then
    let rest := match text.dropWhile isBlank with
      | '#' :: rest => rest.dropWhile isBlank
      | rest => rest
    rest.head?.or text.head?
  else text.head?

/-! ### Escapes -/

/-- What a backslash and what follows it stand for: a character, which may be given as
a byte, a class in short, an end of the text, or an end of a word. -/
inductive Escape where
  | char (c : Char) (byte : Bool)
  | short (negated : Bool)
  | anchor
  | boundary

/-- Reads so many hexadecimal digits. -/
def readDigits? (spaced : Bool) : Nat → List Char → Option (List Char × List Char)
  | 0, text => some ([], text)
  | count + 1, text => match skip spaced text with
    | [] => none
    | c :: rest =>
      if (Text.hexValue? c).isNone then none
      else do
        let (digits, rest) ← readDigits? spaced count rest
        return (c :: digits, rest)

/-- Reads a character given by its code in so many hexadecimal digits. -/
def readCode? (spaced : Bool) (count : Nat) (text : List Char) :
    Option (Escape × List Char) := do
  let (digits, rest) ← readDigits? spaced count text
  return (.char (← Text.scalar? digits) (count = 2), rest)

/-- What a letter behind a backslash stands for. The letters of character properties
stand for nothing. -/
def Escape.ofLetter? : Char → Option Escape
  | 'a' => some (char '\x07' false)
  | 'f' => some (char '\x0c' false)
  | 't' => some (char '\t' false)
  | 'n' => some (char '\n' false)
  | 'r' => some (char '\r' false)
  | 'v' => some (char '\x0b' false)
  | 'd' | 's' | 'w' => some (short false)
  | 'D' | 'S' | 'W' => some (short true)
  | 'A' | 'z' => some anchor
  | 'b' | 'B' | '<' | '>' => some boundary
  | _ => none

/-- Reads what follows a backslash. A sign of ASCII stands for itself. -/
def readEscape? (spaced : Bool) : List Char → Option (Escape × List Char)
  | [] => none
  | 'x' :: rest => readCode? spaced 2 rest
  | 'u' :: rest => readCode? spaced 4 rest
  | 'U' :: rest => readCode? spaced 8 rest
  | c :: rest => match Escape.ofLetter? c with
    | some escape => some (escape, rest)
    | none => if c.toNat < 0x80 && !c.isAlphanum then some (.char c false, rest) else none

/-! ### Sets -/

/-- The names of classes. -/
def classNames : List (List Char) :=
  ["alnum", "alpha", "ascii", "blank", "cntrl", "digit", "graph", "lower", "print", "punct",
    "space", "upper", "word", "xdigit"].map String.toList

/-- Takes a caret off the front of a text. -/
def scanCaret : List Char → Bool × List Char
  | '^' :: rest => (true, rest)
  | text => (false, text)

/-- Takes a class by its name off the front of a text behind its opening bracket. -/
def scanNamed? : List Char → Option (SetItem × List Char)
  | ':' :: rest =>
    let (negated, text) := scanCaret rest
    match text.dropWhile (· != ':') with
    | ':' :: ']' :: rest =>
      if classNames.contains (text.takeWhile (· != ':')) then some (.named negated, rest) else none
    | _ => none
  | _ => none

/-- Reads a character, a class in short or the like of a set. -/
def readAtom? (spaced : Bool) : List Char → Option (Escape × List Char)
  | [] => none
  | '\\' :: rest => readEscape? spaced rest
  | c :: rest => some (.char c false, rest)

/-- The part of a set that something stands for by itself. -/
def Escape.toItem? : Escape → Option SetItem
  | char c _ => some (.char c)
  | short negated => some (.short negated)
  | anchor | boundary => none

/-- A range between two characters in order. -/
def range? : Escape → Escape → Option SetItem
  | .char first _, .char last _ => if first ≤ last then some (.range first last) else none
  | _, _ => none

/-- Reads a part of a set: a range, if a hyphen follows that is neither the last
character of the set nor one of two, else what stands there by itself. -/
def readItem? (spaced : Bool) (text : List Char) : Option (SetItem × List Char) := do
  let (first, rest) ← readAtom? spaced text
  match skip spaced rest with
  | '-' :: rest =>
    if following? spaced rest = some ']' || following? spaced rest = some '-' then
      return (← first.toItem?, '-' :: rest)
    else
      let (last, rest) ← readAtom? spaced (skip spaced rest)
      return (← range? first last, rest)
  | rest => return (← first.toItem?, rest)

/-- Whether two characters are the operator between operands. -/
def isOperator (c : Char) (rest : List Char) : Bool :=
  (c = '&' || c = '-' || c = '~') && rest.head? = some c

/-- Reads the operands of a set behind its bracket and its caret, up to the closing
bracket, with at most so many sets open inside it. Hyphens in front stand for
themselves, and so does a closing bracket in front of all else. -/
def readOperands? (spaced : Bool) : Nat → Nat → Bool → List (List SetItem) → List SetItem →
    List Char → Option (List (List SetItem) × List Char)
  | 0, _, _, _, _, _ => none
  | fuel + 1, depth, front, operands, items, text => match skip spaced text with
    | [] => none
    | c :: rest =>
      if front && (c = '-' || (c = ']' && items.isEmpty)) then
        readOperands? spaced fuel depth (c = '-') operands (.char c :: items) rest
      else if c = ']' then some ((items.reverse :: operands).reverse, rest)
      else if c = '[' then match scanNamed? rest, depth with
        | some (item, rest), _ =>
          readOperands? spaced fuel depth false operands (item :: items) rest
        | none, 0 => none
        | none, depth + 1 =>
          let (negated, rest) := scanCaret (skip spaced rest)
          match readOperands? spaced fuel depth true [] [] rest with
          | none => none
          | some (inner, rest) =>
            readOperands? spaced fuel (depth + 1) false operands (.set negated inner :: items) rest
      else if isOperator c rest then
        readOperands? spaced fuel depth false (items.reverse :: operands) [] (rest.drop 1)
      else match readItem? spaced (c :: rest) with
        | none => none
        | some (item, rest) => readOperands? spaced fuel depth false operands (item :: items) rest

/-! ### Groups -/

/-- What a parenthesis opens: a group, which may change modes or have a name, or
nothing, if it only changes modes up to the end of the group around it. -/
inductive Opening where
  | group (modes : ModeChange) (name : Option String)
  | change (modes : ModeChange)

/-- Reads the modes behind a question mark: letters, and a hyphen in front of those
that are switched off. No letter may come twice, and the hyphen is not the last. -/
def readModes? (on hyphen : Bool) (done : ModeChange) : List Char → Option (Opening × List Char)
  | [] => none
  | ':' :: rest => if hyphen then none else some (.group done.reverse none, rest)
  | ')' :: rest => if hyphen || done.isEmpty then none else some (.change done.reverse, rest)
  | '-' :: rest => if on then readModes? false true done rest else none
  | c :: rest => match Mode.ofLetter? c with
    | none => none
    | some mode =>
      if done.any (·.1 = mode) then none else readModes? on false ((mode, on) :: done) rest

/-- Whether a character may stand behind the first one of a name. -/
def isNameChar (c : Char) : Bool :=
  c = '_' || c = '.' || c = '[' || c = ']' || isAlphanumeric c

/-- Reads the name of a group up to the closing angle bracket. -/
def readName? (text : List Char) : Option (Opening × List Char) :=
  match text.takeWhile (· != '>'), text.dropWhile (· != '>') with
  | first :: others, '>' :: rest =>
    if (first = '_' || isAlphabetic first) && others.all isNameChar then
      some (.group [] (some (String.ofList (first :: others))), rest)
    else none
  | _, _ => none

/-- Reads what a parenthesis opens. -/
def readOpening? (spaced : Bool) (text : List Char) : Option (Opening × List Char) :=
  match skip spaced text with
  | '?' :: 'P' :: '<' :: rest => readName? rest
  | '?' :: '<' :: rest => readName? rest
  | '?' :: rest => readModes? true false [] rest
  | rest => some (.group [] none, rest)

/-! ### Patterns -/

/-- What an escape stands for outside of sets. -/
def Escape.toPattern : Escape → Pattern
  | char c byte => .char c byte
  | short negated => .short negated
  | anchor => .anchor
  | boundary => .boundary

/-- Repeats the last part, unless it is none. -/
def repeatLast? : List Pattern → Option (List Pattern)
  | [] | .change _ :: _ => none
  | part :: parts => some (.many part :: parts)

/-- The text without a question mark in front. -/
def skipLazy : List Char → List Char
  | '?' :: rest => rest
  | text => text

/-- Reads a part that is no group, or repeats the last one. A brace counts
repetitions, but there is none to close it. -/
def readPart? (spaced : Bool) (parts : List Pattern) : List Char →
    Option (List Pattern × List Char)
  | [] => none
  | '{' :: _ => none
  | '?' :: rest | '*' :: rest | '+' :: rest => (repeatLast? parts).map (·, skipLazy rest)
  | '.' :: rest => some (.any :: parts, rest)
  | '^' :: rest | '$' :: rest => some (.anchor :: parts, rest)
  | '\\' :: rest => (readEscape? spaced rest).map fun (escape, rest) =>
    (escape.toPattern :: parts, rest)
  | '[' :: rest =>
    let (negated, rest) := scanCaret (skip spaced rest)
    (readOperands? spaced (rest.length + 1) nestingLimit true [] [] rest).map
      fun (operands, rest) => (.set negated operands :: parts, rest)
  | c :: rest => some (.char c false :: parts, rest)

/-- Reads branches behind those that are done, and the parts of the last one, up to a
closing parenthesis or the end, with at most so many groups open. Each step uses up a
character. -/
def readBranches? : Nat → Nat → Bool → List Pattern → List Pattern → List Char →
    Option (Pattern × List Char)
  | 0, _, _, _, _, _ => none
  | fuel + 1, depth, spaced, branches, parts, text => match skip spaced text with
    | '|' :: rest => readBranches? fuel depth spaced (ofParts parts.reverse :: branches) [] rest
    | '(' :: rest => match readOpening? spaced rest, depth with
      | none, _ => none
      | some (.change modes, rest), _ =>
        readBranches? fuel depth (modes.apply .spaced spaced) branches (.change modes :: parts) rest
      | some (.group .., _), 0 => none
      | some (.group modes name, rest), inside + 1 =>
        match readBranches? fuel inside (modes.apply .spaced spaced) [] [] rest with
        | some (body, ')' :: rest) =>
          readBranches? fuel depth spaced branches (.group modes name body :: parts) rest
        | _ => none
    | [] | ')' :: _ =>
      some (ofBranches (ofParts parts.reverse :: branches).reverse, skip spaced text)
    | text => match readPart? spaced parts text with
      | none => none
      | some (parts, rest) => readBranches? fuel depth spaced branches parts rest

/-- The pattern that a text describes, if it can be used. -/
def ofText? (text : List Char) : Option Pattern :=
  match readBranches? (text.length + 1) nestingLimit false [] [] text with
  | some (pattern, []) => if pattern.isUsable then some pattern else none
  | _ => none

end ActionTree.Pattern
