/-
# Patterns

Regular expressions for the texts of fields. A pattern is turned into a table over
the bytes of a text, which knows nothing of the properties of characters beyond
ASCII and finds well formed text only. So not every pattern of the right form can be
used.

* `Pattern`: the patterns.
* `Pattern.depth`, `Pattern.names`: how deep a pattern nests, and the names of its
  groups.
* `Pattern.modesBehind?`: the modes in force behind a pattern that can be used.
* `Pattern.isUsable`: whether a pattern can be used.
-/

namespace ActionTree

/-! ### Modes -/

/-- What a pattern may switch on and off: that letters stand for both cases, that the
ends of lines count as ends, that a point stands for a line feed too, that shortest
matches come first, that characters are meant and not bytes, that carriage returns
end lines, and that blanks and comments do not count. -/
inductive Mode where
  | anyCase
  | byLine
  | pointForAll
  | shortestFirst
  | characters
  | carriageReturns
  | spaced
  deriving DecidableEq

/-- The mode of a letter. -/
def Mode.ofLetter? : Char → Option Mode
  | 'i' => some anyCase
  | 'm' => some byLine
  | 's' => some pointForAll
  | 'U' => some shortestFirst
  | 'u' => some characters
  | 'R' => some carriageReturns
  | 'x' => some spaced
  | _ => none

/-- Modes with what becomes of them. -/
abbrev ModeChange := List (Mode × Bool)

/-- A mode after a change. -/
def ModeChange.apply (change : ModeChange) (mode : Mode) (before : Bool) : Bool :=
  (List.lookup mode change).getD before

/-- The modes that decide what can be used. -/
structure Modes where
  anyCase : Bool
  characters : Bool
  deriving DecidableEq

namespace Modes

/-- The modes at the beginning. -/
def initial : Modes :=
  ⟨false, true⟩

/-- The modes after a change. -/
def after (modes : Modes) (change : ModeChange) : Modes :=
  ⟨change.apply .anyCase modes.anyCase, change.apply .characters modes.characters⟩

end Modes

/-! ### Sets of characters -/

/-- A part of a set in brackets: a character, a range, a class by its name or in
short, and a set of its own. A set is made of the operands between its operators,
each of which joins its parts. -/
inductive SetItem where
  | char (c : Char)
  | range (first last : Char)
  | named (negated : Bool)
  | short (negated : Bool)
  | set (negated : Bool) (operands : List (List SetItem))

namespace SetItem

mutual

/-- How deep a part of a set nests. -/
def depth : SetItem → Nat
  | set _ operands => 1 + operandsDepth operands
  | char .. | range .. | named .. | short .. => 0

/-- How deep the operands of a set nest. An operator takes all that stands in front
of it as its first operand. -/
def operandsDepth : List (List SetItem) → Nat
  | [] => 0
  | operand :: rest => chainDepth (operandDepth operand) rest

/-- How deep operands nest behind a first one of a depth. -/
def chainDepth (depth : Nat) : List (List SetItem) → Nat
  | [] => depth
  | operand :: rest => chainDepth (1 + max depth (operandDepth operand)) rest

/-- How deep the parts of an operand nest. -/
def operandDepth : List SetItem → Nat
  | [] => 0
  | [item] => item.depth
  | first :: rest => 1 + max first.depth (itemsDepth rest)

/-- The largest depth of several parts. -/
def itemsDepth : List SetItem → Nat
  | [] => 0
  | item :: rest => max item.depth (itemsDepth rest)

end

mutual

/-- Whether a part of a set can be used. By characters there are no classes in short
and no second case; by bytes there is nothing beyond ASCII, which a set turned
around always holds. -/
def isUsable (modes : Modes) : SetItem → Bool
  | char c => if modes.characters then !modes.anyCase else c.toNat < 0x80
  | range first last =>
    if modes.characters then !modes.anyCase else first.toNat < 0x80 && last.toNat < 0x80
  | named negated => if modes.characters then !modes.anyCase else !negated
  | short negated => !modes.characters && !negated
  | set negated operands => (modes.characters || !negated) && areUsable modes operands

/-- Whether all operands of a set can be used. -/
def areUsable (modes : Modes) : List (List SetItem) → Bool
  | [] => true
  | operand :: rest => itemsUsable modes operand && areUsable modes rest

/-- Whether all parts of an operand can be used. -/
def itemsUsable (modes : Modes) : List SetItem → Bool
  | [] => true
  | item :: rest => item.isUsable modes && itemsUsable modes rest

end

end SetItem

/-! ### Patterns -/

/-- The patterns: a change of modes, a character, which may be given as a byte, any
character, the ends of a text or line, the ends of words, a class in short, a set,
a repetition, a group, which may change modes or have a name, parts one after the
other, and several branches. -/
inductive Pattern where
  | change (modes : ModeChange)
  | char (c : Char) (byte : Bool)
  | any
  | anchor
  | boundary
  | short (negated : Bool)
  | set (negated : Bool) (operands : List (List SetItem))
  | many (body : Pattern)
  | group (modes : ModeChange) (name : Option String) (body : Pattern)
  | sequence (parts : List Pattern)
  | choice (branches : List Pattern)

namespace Pattern

/-- Parts one after the other; a single one stands for itself. -/
def ofParts : List Pattern → Pattern
  | [part] => part
  | parts => sequence parts

/-- Several branches; a single one stands for itself. -/
def ofBranches : List Pattern → Pattern
  | [branch] => branch
  | branches => choice branches

mutual

/-- How deep a pattern nests. -/
def depth : Pattern → Nat
  | change .. | char .. | any | anchor | boundary | short .. => 0
  | set _ operands => 1 + SetItem.operandsDepth operands
  | many body => 1 + body.depth
  | group _ _ body => 1 + body.depth
  | sequence [] => 0
  | sequence (part :: parts) => 1 + max part.depth (depths parts)
  | choice branches => 1 + depths branches

/-- The largest depth of several patterns. -/
def depths : List Pattern → Nat
  | [] => 0
  | pattern :: rest => max pattern.depth (depths rest)

end

mutual

/-- The names of the groups of a pattern. -/
def names : Pattern → List String
  | change .. | char .. | any | anchor | boundary | short .. | set .. => []
  | many body => body.names
  | group _ name body => name.toList ++ body.names
  | sequence parts => namesOf parts
  | choice branches => namesOf branches

/-- The names of the groups of several patterns. -/
def namesOf : List Pattern → List String
  | [] => []
  | pattern :: rest => pattern.names ++ namesOf rest

end

mutual

/-- The modes in force behind a pattern, if it can be used under the modes in front of
it. A change goes on to the end of the group around it. By characters there are no
second case, no classes in short and no words; by bytes a point or a byte alone might
be half a character. -/
def modesBehind? (modes : Modes) : Pattern → Option Modes
  | .change step => some (modes.after step)
  | char c byte =>
    if modes.characters && modes.anyCase then none
    else if !modes.characters && byte && 0x80 ≤ c.toNat then none
    else some modes
  | any => if modes.characters then some modes else none
  | anchor => some modes
  | boundary => if modes.characters then none else some modes
  | short negated => if modes.characters || negated then none else some modes
  | set negated operands =>
    if (SetItem.set negated operands).isUsable modes then some modes else none
  | many body => modesBehind? modes body
  | group step _ body => (modesBehind? (modes.after step) body).map fun _ => modes
  | sequence parts => modesBehindAll? modes parts
  | choice branches => modesBehindAll? modes branches

/-- The modes in force behind several patterns. -/
def modesBehindAll? (modes : Modes) : List Pattern → Option Modes
  | [] => some modes
  | pattern :: rest => (modesBehind? modes pattern).bind (modesBehindAll? · rest)

end

/-- How deep a pattern may nest. -/
def nestingLimit : Nat := 250

/-- Whether a pattern can be used: its parts can, it does not nest too deeply, and no
two of its groups have one name. -/
def isUsable (pattern : Pattern) : Bool :=
  pattern.depth ≤ nestingLimit && pattern.names.Nodup && (pattern.modesBehind? .initial).isSome

end Pattern
end ActionTree
