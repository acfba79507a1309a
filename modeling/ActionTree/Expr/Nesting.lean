/-
# Nesting of brackets

Before a text is parsed its brackets and question marks are counted. A question
mark is never closed: what follows it reaches to the end of the expression.
Inside a string nothing counts.

* `Nesting.within`: whether at no place more than so many levels are open.
-/
import ActionTree.Expr.Token

namespace ActionTree.Nesting

/-- Where a character stands: outside of strings, in a string with the given
quote, or there behind a backslash. -/
inductive Place where
  | outside
  | quoted (quote : Char)
  | escaped (quote : Char)
  deriving DecidableEq

/-- Whether at no place of a text more than `limit` levels are open, if it
continues a text with so many open brackets and question marks. A closing
bracket without an opening one counts for nothing. -/
def within (limit : Nat) : Place → Nat → Nat → List Char → Bool
  | _, _, _, [] => true
  | .escaped quote, brackets, questions, _ :: rest =>
    within limit (.quoted quote) brackets questions rest
  | .quoted quote, brackets, questions, c :: rest =>
    if c = '\\' then within limit (.escaped quote) brackets questions rest
    else if c = quote then within limit .outside brackets questions rest
    else within limit (.quoted quote) brackets questions rest
  | .outside, brackets, questions, c :: rest =>
    if Token.isQuote c then within limit (.quoted c) brackets questions rest
    else if c = '(' || c = '[' then
      brackets + 1 + questions ≤ limit && within limit .outside (brackets + 1) questions rest
    else if c = ')' || c = ']' then within limit .outside (brackets - 1) questions rest
    else if c = '?' then
      brackets + (questions + 1) ≤ limit && within limit .outside brackets (questions + 1) rest
    else within limit .outside brackets questions rest

/-- Whether a whole text keeps within the limit. -/
def admits (limit : Nat) (text : List Char) : Bool :=
  within limit .outside 0 0 text

end ActionTree.Nesting
