/-
# Log filters

A log filter is a list of directives with commas between them. Each gives the
events of a target or of a span a level: `info`, `decision_tree=debug`,
`[span]=warn`, `[span{field=value}]`.

* `Directive`, `LogFilter`: what a filter says.
* `Directive.read`, `LogFilter.read`: reads a filter.
* `LogFilter.shows`: whether events of a level are shown.
-/
import ActionTree.Decimal.Numeral
import ActionTree.Pattern.Reader
import ActionTree.Run.Event
import ActionTree.Text.Cut

namespace ActionTree

/-- What a directive lets pass: nothing, or the events of at least some
importance. -/
inductive Threshold where
  | off
  | error
  | warn
  | info
  | debug
  | trace
  deriving DecidableEq

namespace Threshold

/-- The thresholds by their number. -/
def ofNumber? : Nat → Option Threshold
  | 0 => some off
  | 1 => some error
  | 2 => some warn
  | 3 => some info
  | 4 => some debug
  | 5 => some trace
  | _ => none

/-- The thresholds by their name, in any case. -/
def ofName? (name : String) : Option Threshold :=
  List.lookup name.toLower [("off", off), ("error", error), ("warn", warn), ("info", info),
    ("debug", debug), ("trace", trace)]

/-- The number that a text of digits denotes; a plus may stand in front. -/
def number? (text : List Char) : Option Nat :=
  let digits := match text with
    | '+' :: rest => rest
    | text => text
  if digits.isEmpty || !digits.all Char.isDigit then none
  else some (digits.foldl (fun n c => 10 * n + (c.toNat - '0'.toNat)) 0)

/-- The threshold that a text names or numbers. -/
def ofText? (text : List Char) : Option Threshold :=
  ((number? text).bind ofNumber?).or (ofName? (String.ofList text))

/-- Whether events of a level pass. -/
def passes : Threshold → Level → Bool
  | off, _ => false
  | error, _ => false
  | warn, level => level = .warn
  | info, level => level = .warn || level = .info
  | debug, _ => true
  | trace, _ => true

end Threshold

/-- Why a text says nothing: it is not of the right form, or a piece of it would end
inside of a character, which nothing can hold. -/
inductive FilterFault where
  | malformed
  | brokenCharacter
  deriving DecidableEq

/-- A directive: the threshold for the events of a target, or for all, and whether
it is for events inside of spans only. -/
structure Directive where
  target : Option String
  inSpan : Bool
  threshold : Threshold
  deriving DecidableEq

namespace Directive

/-- The directive that lets everything pass. -/
def everything : Directive :=
  ⟨none, false, .trace⟩

/-! ### Fields -/

/-- Whether the value of a field can be compared with a text: as a number, or as a
pattern. -/
def isComparable (value : List Char) : Bool :=
  (Decimal.ofText? value).isSome || (Pattern.ofText? value).isSome

/-- Whether a text is a field: a name, and possibly a value that it is to have. What
stands behind a second equals sign does not count. -/
def isField (text : List Char) : Bool :=
  !text.isEmpty && match text.dropWhile (· != '=') with
    | '=' :: rest => isComparable (rest.takeWhile (· != '='))
    | _ => true

/-! ### Reading -/

/-- Where the reading of a directive stands: at its beginning, in its first word, in
the name of a span, in a field, behind the brace of the fields, behind the bracket
of the span, and in the threshold. A piece that is to be cut out begins at a place. -/
inductive Place where
  | start
  | word
  | span (start : Nat)
  | field (start : Nat)
  | fields
  | closed
  | threshold (start : Nat)
  deriving DecidableEq

/-- Whether a directive can begin with a character that is no bracket. -/
def isStart (c : Char) : Bool :=
  c = '-' || c = ':' || c = '_' || Text.isAlphanumeric c

/-- What stands between two places of a text. -/
def piece (text : List Char) (start stop : Nat) : Except FilterFault (List Char) :=
  match Text.cut? start stop text with
  | some piece => .ok piece
  | none => .error .brokenCharacter

/-- The target that the first word of a text names. -/
def readTarget (text : List Char) (stop : Nat) (directive : Directive) :
    Except FilterFault Directive := do
  return { directive with target := some (String.ofList (← piece text 0 stop)) }

/-- Reads a field of a text. -/
def readField (text : List Char) (start stop : Nat) : Except FilterFault Unit := do
  if isField (← piece text start stop) then return () else throw .malformed

/-- Reads the next character, which stands at a place. The pieces are cut out of
`text`. -/
def step (text : List Char) (directive : Directive) (i : Nat) (c : Char) :
    Place → Except FilterFault (Directive × Place)
  | .start =>
    if c = '[' then return (directive, .span (i + 1))
    else if isStart c then return (directive, .word)
    else throw .malformed
  | .word => do
    if c = '=' then return (← readTarget text i directive, .threshold (i + 1))
    else if c = '[' then return (← readTarget text i directive, .span (i + 1))
    else return (directive, .word)
  | .span start => do
    if c = ']' then
      let _ ← piece text start i
      return ({ directive with inSpan := true }, .closed)
    else if c = '{' then
      let _ ← piece text start i
      return ({ directive with inSpan := true }, .field (i + 1))
    else return (directive, .span start)
  | .field start => do
    if c = '}' then
      readField text start i
      return (directive, .fields)
    else return (directive, .field start)
  | .fields => if c = ']' then return (directive, .closed) else throw .malformed
  | .closed => if c = '=' then return (directive, .threshold (i + 1)) else throw .malformed
  | .threshold start => return (directive, .threshold start)

/-- Reads characters that stand at a place and behind it. -/
def steps (text : List Char) (directive : Directive) (place : Place) (i : Nat) :
    List Char → Except FilterFault (Directive × Place)
  | [] => return (directive, place)
  | c :: rest => do
    let (directive, place) ← step text directive i c place
    steps text directive place (i + c.utf8Size) rest

/-- The directive of a single word: the threshold of that name, or all events of a
target. -/
def ofWord (word : List Char) : Directive :=
  match Threshold.ofText? word with
  | some threshold => { everything with threshold }
  | none => { everything with target := some (String.ofList word) }

/-- What a text says at its end. No text for the threshold stands for all events. -/
def finish (text : List Char) (directive : Directive) : Place → Except FilterFault Directive
  | .word => return ofWord text
  | .closed => return directive
  | .threshold start => match Text.dropBytes? start text with
    | none => throw .brokenCharacter
    | some [] => return directive
    | some word => match Threshold.ofText? word with
      | some threshold => return { directive with threshold }
      | none => throw .malformed
  | .start | .span _ | .field _ | .fields => throw .malformed

/-- Reads a directive. It is looked through without the blanks around it, but its
pieces are cut out of the whole text at the places that were found. -/
def read (text : List Char) : Except FilterFault Directive := do
  let (directive, place) ← steps text everything .start 0 (Text.trimBlank text)
  finish text directive place

end Directive

/-- A log filter. -/
structure LogFilter where
  directives : List Directive
  deriving DecidableEq

namespace LogFilter

/-- Reads a log filter. Where nothing stands between two commas there is no
directive. -/
def read (text : String) : Except FilterFault LogFilter := do
  let directives ← ((text.splitOn ",").filter (· != "")).mapM (Directive.read ·.toList)
  return ⟨directives⟩

/-! ### Showing events -/

/-- The target of the events of a run. -/
def target : String := "decision_tree"

/-- The directives that are for the events of a run, wherever they are reported. -/
def relevant (filter : LogFilter) : List Directive :=
  filter.directives.filter fun directive =>
    !directive.inSpan && (directive.target.getD "").isPrefixOf target

/-- The threshold for the events of a run: that of the longest target that fits, and
of the last of those. A filter that says nothing shows errors only. -/
def threshold (filter : LogFilter) : Threshold :=
  let longer (best next : Directive) : Directive :=
    if (best.target.getD "").length ≤ (next.target.getD "").length then next else best
  if filter.directives.isEmpty then .error
  else match filter.relevant with
    | [] => .off
    | first :: rest => (rest.foldl longer first).threshold

/-- Whether events of a level are shown. -/
def shows (filter : LogFilter) (level : Level) : Bool :=
  filter.threshold.passes level

end LogFilter
end ActionTree
