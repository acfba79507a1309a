/-
# The byte order mark

* `skipMark`: cuts the mark off the front of a text.
-/

namespace ActionTree.Text

/-- The text without a byte order mark in front. -/
def skipMark : List Char → List Char
  | '\uFEFF' :: rest => rest
  | text => text

end ActionTree.Text
