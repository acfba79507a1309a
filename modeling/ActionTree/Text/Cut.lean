/-
# Cuts between characters

Places in a text are counted in the bytes of its UTF-8 form, and a text can be cut
only between two characters.

* `dropBytes?`, `takeBytes?`: the two sides of a cut.
* `cut?`: what stands between two places.
-/

namespace ActionTree.Text

/-- The text behind so many bytes, unless they end inside of a character. -/
def dropBytes? : Nat → List Char → Option (List Char)
  | 0, text => some text
  | _ + 1, [] => none
  | count + 1, c :: rest =>
    if c.utf8Size ≤ count + 1 then dropBytes? (count + 1 - c.utf8Size) rest else none

/-- The first so many bytes of a text, unless they end inside of a character. -/
def takeBytes? : Nat → List Char → Option (List Char)
  | 0, _ => some []
  | _ + 1, [] => none
  | count + 1, c :: rest =>
    if c.utf8Size ≤ count + 1 then (takeBytes? (count + 1 - c.utf8Size) rest).map (c :: ·)
    else none

/-- What stands between two places of a text, unless one of them is inside of a
character. -/
def cut? (start stop : Nat) (text : List Char) : Option (List Char) :=
  (dropBytes? start text).bind (takeBytes? (stop - start))

end ActionTree.Text
