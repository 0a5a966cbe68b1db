/-!
# TOML tables

The values of a TOML document, and the rules on which parts of a document may add to a table. A
table can be written in several places, and how it came to be decides what may still be added to it.

## Main definitions

* `Table.put`: what a line with a key and a value adds.
* `Table.openTable`, `Table.openElement`: what a header adds.
* `Table.within`: the table that a header names.
-/
namespace WebCall.Toml

/-- How a table came to be. -/
inductive Origin
  /-- A header names it. -/
  | header
  /-- A longer header names it on the way; a header of its own may still follow. -/
  | implied
  /-- A dotted key names it on the way. -/
  | dotted
  /-- It is written in braces and complete. -/
  | closed
  deriving DecidableEq, Repr

/-- A value of a document. Nothing reads floats and points of time, so they are kept as such only.
-/
inductive Item
  | string (text : String)
  | integer (value : Int)
  | float
  | boolean (value : Bool)
  | moment
  | array (items : List Item)
  | table (origin : Origin) (entries : List (String × Item))
  /-- The tables that headers in double brackets add one by one, the last of them first. -/
  | tables (last : List (String × Item)) (before : List (List (String × Item)))

/-- The entries of a table, in the order of their first mention. -/
abbrev Table := List (String × Item)

namespace Table

/-- The item of a key. -/
def get? (t : Table) (key : String) : Option Item := t.lookup key

/-- Gives a key an item, in place of the one it has. -/
def set : Table → String → Item → Table
  | [], key, item => [(key, item)]
  | entry :: rest, key, item =>
    if entry.1 = key then (key, item) :: rest else entry :: set rest key item

/-- Adds a key; there must be none of its name. -/
def add (t : Table) (key : String) (item : Item) : Option Table :=
  match t.get? key with
  | some _ => none
  | none => some (t.set key item)

/-- Adds a value under a dotted key, whose parts before the last are `path`. The parts on the way
name tables that dotted keys made, and of them only those before the last may also be tables that a
header implied. -/
def put : (path : List String) → (key : String) → Item → Table → Option Table
  | [], key, item, t => t.add key item
  | part :: path, key, item, t =>
    match t.get? part with
    | none => (put path key item []).map fun sub => t.set part (.table .dotted sub)
    | some (.table origin sub) =>
      if origin = .dotted ∨ (origin = .implied ∧ path ≠ []) then
        (put path key item sub).map fun sub => t.set part (.table origin sub)
      else none
    | some (.tables last before) =>
      if path = [] then none
      else (put path key item last).map fun last => t.set part (.tables last before)
    | some _ => none

/-- Changes the table that the parts of a header name. Tables that are missing are implied, and of
tables in double brackets the last one is meant. -/
def within : (path : List String) → (Table → Option Table) → Table → Option Table
  | [], change, t => change t
  | part :: path, change, t =>
    match t.get? part with
    | none => (within path change []).map fun sub => t.set part (.table .implied sub)
    | some (.table .closed _) => none
    | some (.table origin sub) =>
      (within path change sub).map fun sub => t.set part (.table origin sub)
    | some (.tables last before) =>
      (within path change last).map fun last => t.set part (.tables last before)
    | some _ => none

/-- Opens a table by a header of its own. It must be new or implied. -/
def openTable (key : String) (t : Table) : Option Table :=
  match t.get? key with
  | none => some (t.set key (.table .header []))
  | some (.table .implied entries) => some (t.set key (.table .header entries))
  | some _ => none

/-- Opens one more table under a header in double brackets. -/
def openElement (key : String) (t : Table) : Option Table :=
  match t.get? key with
  | none => some (t.set key (.tables [] []))
  | some (.tables last before) => some (t.set key (.tables [] (last :: before)))
  | some _ => none

end Table

end WebCall.Toml
