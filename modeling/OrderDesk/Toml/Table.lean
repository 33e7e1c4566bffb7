import OrderDesk.Toml.Value

/-
  This file defines how tables grow while a TOML text is
  read. What a key may still be used for depends on how its
  table came about: by a header of its own, by a longer
  header, or by a key with points in it.

  Key definitions include:
    * `Toml.Node`
    * `Toml.Table`
    * `Toml.Table.assign?`
    * `Toml.Table.openTable?`
    * `Toml.Table.openItem?`
    * `Toml.Node.toValue`
-/

namespace OrderDesk

namespace Toml

/-
  How a table came about: by its own header, because it is
  part of the path in another header, or as a part of a key.
-/
inductive Origin where
  | header
  | path
  | key
deriving DecidableEq

/-
  What a key stands for: a value, a table, or the tables of
  an array, the latest first.
-/
inductive Node where
  | value (v : Value)
  | table (origin : Origin) (entries : List (String × Node))
  | tables (latest : List (String × Node))
      (earlier : List (List (String × Node)))

/- The keys of a table and what they stand for. -/
abbrev Table :=
  List (String × Node)

namespace Table

/- Change what a key stands for. -/
def alter?
    (name : String)
    (f : Option Node → Option Node) :
    Table → Option Table
| [] => (f none).map fun node => [(name, node)]
| (key, node) :: rest =>
    if key = name then
      (f (some node)).map fun node => (key, node) :: rest
    else
      (alter? name f rest).map ((key, node) :: ·)

/- Let a key that is not used yet stand for a value. -/
def put?
    (name : String)
    (v : Value)
    (t : Table) : Option Table :=
  t.alter? name fun
    | none => some (.value v)
    | some _ => none

/-
  Assign a value to the last of a path of keys. The tables
  on the way may not have a header of their own, and the
  table that holds the value has to be there by keys only.
-/
def assign? :
    List String → Value → Table → Option Table
| [], _, _ => none
| [name], v, t => t.put? name v
| name :: path, v, t =>
    t.alter? name fun
      | none => (assign? path v []).map (.table .key)
      | some (.table .header _) => none
      | some (.table .path entries) =>
          if path.length = 1 then
            none
          else
            (assign? path v entries).map (.table .path)
      | some (.table .key entries) =>
          (assign? path v entries).map (.table .key)
      | some (.tables latest earlier) =>
          if path.length = 1 then
            none
          else
            (assign? path v latest).map fun t => .tables t earlier
      | some (.value _) => none

/-
  Change the table that the path of a header leads to. Of an
  array it is the latest table.
-/
def within?
    (f : Table → Option Table) :
    List String → Table → Option Table
| [], t => f t
| name :: path, t =>
    t.alter? name fun
      | none => (within? f path []).map (.table .path)
      | some (.table origin entries) =>
          (within? f path entries).map (.table origin)
      | some (.tables latest earlier) =>
          (within? f path latest).map fun t => .tables t earlier
      | some (.value _) => none

/-
  Start the table of a header. It may be there already as a
  part of the path of another header.
-/
def openTable?
    (path : List String)
    (t : Table) : Option Table :=
  path.getLast?.bind fun name =>
    t.within?
      (fun parent =>
        parent.alter? name fun
          | none => some (.table .header [])
          | some (.table .path entries) => some (.table .header entries)
          | some _ => none)
      path.dropLast

/- Start the next table of the array that a header names. -/
def openItem?
    (path : List String)
    (t : Table) : Option Table :=
  path.getLast?.bind fun name =>
    t.within?
      (fun parent =>
        parent.alter? name fun
          | none => some (.tables [] [])
          | some (.tables latest earlier) =>
              some (.tables [] (latest :: earlier))
          | some _ => none)
      path.dropLast

end Table

------------------------------------------------------------
-- Finished Tables
------------------------------------------------------------

mutual

/- What a key stands for, as a value. -/
def Node.toValue :
    Node → Value
| .value v => v
| .table _ entries => .table (entryValues entries)
| .tables latest earlier =>
    .array (tableValues earlier ++ [.table (entryValues latest)])

/- The entries of a table, as values. -/
def entryValues :
    List (String × Node) → List (String × Value)
| [] => []
| (name, node) :: rest => (name, node.toValue) :: entryValues rest

/- The tables of an array, the latest first, as values in order. -/
def tableValues :
    List (List (String × Node)) → List Value
| [] => []
| entries :: rest =>
    tableValues rest ++ [.table (entryValues entries)]

end

end Toml

end OrderDesk
