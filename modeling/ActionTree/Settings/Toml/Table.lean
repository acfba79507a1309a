/-
# Tables of a TOML document

A table may be opened by one header only, and a name may be given one value only.
The tables in front of the last name of a path come into being on the way, and how
a table came into being decides what may still be added to it. Entries keep their
order.

* `Table`: a table with its origin.
* `Table.assign?`: gives a path of names a value.
* `Table.openTable?`, `Table.openItem?`: what the two kinds of header do.
* `Table.toValue`: the table as a value.
-/
import ActionTree.Settings.Toml.Value

namespace ActionTree.Toml

/-- How a table came into being: by a header of its own, in front of the last name
of a header, or in front of the last name of a path that was given a value. -/
inductive Origin where
  | header
  | implied
  | dotted
  deriving DecidableEq

/-- What a name stands for: a value, a table, or a row of tables of which only the
last one can still grow. -/
inductive Item where
  | value (value : Value)
  | table (origin : Origin) (entries : List (String × Item))
  | tables (earlier : List Value) (last : List (String × Item))
  deriving Inhabited

/-! ### Entries -/

/-- Items by their name, in the order in which the names came. -/
abbrev Entries := List (String × Item)

namespace Entries

/-- The item of a name. -/
def get? (entries : Entries) (name : String) : Option Item :=
  List.lookup name entries

/-- Gives a name an item: in its place, or at the end if it is new. -/
def put : Entries → String → Item → Entries
  | [], name, item => [(name, item)]
  | (other, old) :: rest, name, item =>
    if name = other then (name, item) :: rest else (other, old) :: put rest name item

/-- Gives a name an item at the end, wherever it stood before. -/
def putLast (entries : Entries) (name : String) (item : Item) : Entries :=
  entries.filter (·.1 != name) ++ [(name, item)]

end Entries

/-! ### Values -/

mutual

/-- What a name stands for, as a value. -/
def Item.toValue : Item → Value
  | .value value => value
  | .table _ entries => .table (valuesOf entries)
  | .tables earlier last => .array (earlier ++ [.table (valuesOf last)])

/-- The values of named items. -/
def valuesOf : List (String × Item) → List (String × Value)
  | [] => []
  | (name, item) :: rest => (name, item.toValue) :: valuesOf rest

end

/-- A table with its origin. -/
structure Table where
  origin : Origin
  entries : Entries

namespace Table

/-- A table with nothing in it. -/
def empty (origin : Origin) : Table :=
  ⟨origin, []⟩

/-- A table as a value. -/
def toValue (table : Table) : Value :=
  .table (valuesOf table.entries)

/-! ### Ways into a table -/

/-- What the tables on the way have to be: anything for a header, no table with a
header of its own for a path that is given a value. -/
inductive Way where
  | header
  | dotted
  deriving DecidableEq

/-- The origin of the tables that come into being on a way. -/
def Way.origin : Way → Origin
  | .header => .implied
  | .dotted => .dotted

/-- Changes the table at the end of a path. Tables that are missing on the way come
into being; of a row of tables the last one is meant. -/
def change? (way : Way) : List String → (Table → Option Table) → Table → Option Table
  | [], step, table => step table
  | name :: path, step, table => do
    let item ← match table.entries.get? name with
      | none => do
        let inner ← change? way path step (empty way.origin)
        some (Item.table inner.origin inner.entries)
      | some (.value _) => none
      | some (.tables earlier last) => do
        let inner ← change? way path step ⟨.header, last⟩
        some (Item.tables earlier inner.entries)
      | some (.table origin entries) =>
        if way = .dotted && origin = .header then none
        else do
          let inner ← change? way path step ⟨origin, entries⟩
          some (Item.table inner.origin inner.entries)
    return { table with entries := table.entries.put name item }

/-! ### Statements -/

/-- Gives a new name of a table a value. -/
def define? (name : String) (value : Value) (table : Table) : Option Table :=
  match table.entries.get? name with
  | none => some { table with entries := table.entries.put name (.value value) }
  | some _ => none

/-- Gives the last name of a path a value. If the path has more names than this one,
the table in front of it must be the work of such paths only. -/
def assign? (path : List String) (value : Value) (table : Table) : Option Table := do
  let name ← path.getLast?
  let front := path.dropLast
  change? .dotted front
    (fun inner => if !front.isEmpty && inner.origin != .dotted then none else define? name value inner)
    table

/-- Opens the table at a path. It must be new, or implied by another header: then it
moves behind the entries that came since. -/
def openTable? (path : List String) (table : Table) : Option Table := do
  let name ← path.getLast?
  change? .header path.dropLast
    (fun inner => match inner.entries.get? name with
      | none => some { inner with entries := inner.entries.put name (.table .header []) }
      | some (.table .implied entries) =>
        some { inner with entries := inner.entries.putLast name (.table .header entries) }
      | some _ => none)
    table

/-- Opens a new table in the row of tables at a path. -/
def openItem? (path : List String) (table : Table) : Option Table := do
  let name ← path.getLast?
  change? .header path.dropLast
    (fun inner => match inner.entries.get? name with
      | none => some { inner with entries := inner.entries.put name (.tables [] []) }
      | some (.tables earlier last) =>
        let earlier := earlier ++ [.table (valuesOf last)]
        some { inner with entries := inner.entries.put name (.tables earlier []) }
      | some _ => none)
    table

/-- Gives a path a value below the table that a header opened. -/
def assignBelow? (header path : List String) (value : Value) (table : Table) : Option Table :=
  change? .header header (assign? path value) table

end Table
end ActionTree.Toml
