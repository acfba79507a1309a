/-
# Files that a program can see

* `Entry`: what a path leads to.
* `Files`: what every path leads to.
* `Files.extension?`: the extension of the last name of a path.
* `Files.ofList`: a working directory with the given files, and little around it.
-/

namespace ActionTree

/-- What a path leads to: nothing, a text, or something that is no text, such as a
directory. -/
inductive Entry where
  | absent
  | other
  | text (content : String)
  deriving DecidableEq

/-- The text at the end of a path. -/
def Entry.content? : Entry → Option String
  | .text content => some content
  | _ => none

/-- What every path leads to. -/
abbrev Files := String → Entry

namespace Files

/-- What stands behind the last point in the last name of a path, if something stands in
front of it. -/
def extension? (path : String) : Option String :=
  let name := path.toList.reverse.takeWhile (· != '/')
  let extension := name.takeWhile (· != '.')
  if extension.length + 1 < name.length then some (String.ofList extension.reverse) else none

/-- A place below the working directory: the names that lead to it. -/
abbrev Place := List String

/-- Files by their place. -/
abbrev Listing := List (Place × String)

/-- The working directory and every place with a file below it are directories. -/
def isDirectory (listing : Listing) (place : Place) : Bool :=
  place.isEmpty || listing.any fun entry => place.isPrefixOf entry.1 && place != entry.1

/-- What a place holds. -/
def entryAt (listing : Listing) (place : Place) : Entry :=
  match List.lookup place listing with
  | some content => .text content
  | none => if isDirectory listing place then .other else .absent

/-- Where the parts of a path lead: to a place, or to a directory above the working
directory, of which nothing is known but that it is one. -/
inductive Spot where
  | below (place : Place)
  | above
  deriving DecidableEq

namespace Spot

/-- Whether a path can go on from a spot. -/
def isDirectory (listing : Listing) : Spot → Bool
  | below place => Files.isDirectory listing place
  | above => true

/-- The directory that a directory is in. -/
def parent : Spot → Spot
  | below [] => above
  | below place => below place.dropLast
  | above => above

/-- What a name leads to. Nothing is found above the working directory. -/
def child? : Spot → String → Option Spot
  | below place, name => some (below (place ++ [name]))
  | above, _ => none

/-- Follows the parts of a path. Only a directory leads anywhere. -/
def follow? (listing : Listing) : Spot → List String → Option Spot
  | spot, [] => some spot
  | spot, part :: parts =>
    if !spot.isDirectory listing then none
    else if part = "" || part = "." then follow? listing spot parts
    else if part = ".." then follow? listing spot.parent parts
    else match spot.child? part with
      | some spot => follow? listing spot parts
      | none => none

/-- What a spot holds. -/
def entry (listing : Listing) : Spot → Entry
  | below place => entryAt listing place
  | above => .other

end Spot

/-- The parts of a path that are names. -/
def names (path : String) : List String :=
  (path.splitOn "/").filter fun part => part != "" && part != "."

/-- The directories that stand at the root. -/
def rootDirectories : List String :=
  ["bin", "dev", "etc", "home", "lib", "opt", "proc", "root", "run", "sbin", "sys", "tmp", "usr",
    "var"]

/-- What stands at the root: directories, and the devices without and with the
standard input. -/
def rootEntry : List String → Entry
  | [] => .other
  | [name] => if rootDirectories.contains name then .other else .absent
  | ["dev", "null"] => .text ""
  | ["dev", "stdin"] => .other
  | _ => .absent

/-- A working directory that holds the given files. The empty path leads to
nothing. -/
def ofList (files : List (String × String)) : Files :=
  let listing := files.map fun (path, content) => (names path, content)
  fun path =>
    if path.isEmpty then .absent
    else if path.startsWith "/" then rootEntry (names path)
    else match Spot.follow? listing (.below []) (path.splitOn "/") with
      | some spot => spot.entry listing
      | none => .absent

end Files
end ActionTree
