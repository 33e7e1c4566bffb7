import OrderDesk.Toml.Table

/-
  This file defines how a TOML text is read: as lines with
  headers and assignments, which build one table.

  Key definitions include:
    * `Toml.value`
    * `Toml.Statement`
    * `Toml.Builder`
    * `Toml.ofText?`
-/

namespace OrderDesk

namespace Toml

open Scan

------------------------------------------------------------
-- Values In Values
------------------------------------------------------------

/- Take a table between braces. -/
def inlineTable
    (item : Scan Value) : Scan Value := do
  exactly ['{']
  let given ← maybe (separated (exactly [',']) do
    let pair ← assignment item
    blanks
    return pair)
  blanks
  exactly ['}']
  let table ←
    (given.getD []).foldlM
      (fun (t : Table) (pair : List String × Value) =>
        t.assign? pair.1 pair.2) []
  return .table (entryValues table)

/- Take a value in which others are nested up to the given depth. -/
def value :
    Nat → Scan Value
| 0 => scalar
| n + 1 => scalar <|> arrayOf (value n) <|> inlineTable (value n)

------------------------------------------------------------
-- Lines
------------------------------------------------------------

/- What a line says. -/
inductive Statement where
  | assign (path : List String) (v : Value)
  | openTable (path : List String)
  | openItem (path : List String)

/- Take the header of a table of an array. -/
def itemHeader : Scan Statement := do
  exactly ['[', '[']
  let path ← keyPath
  exactly [']', ']']
  lineEnd
  return .openItem path

/- Take the header of a table. -/
def tableHeader : Scan Statement := do
  exactly ['[']
  let path ← keyPath
  exactly [']']
  lineEnd
  return .openTable path

/- Take an assignment. -/
def assignmentLine : Scan Statement := do
  let (path, v) ← assignment (value maxNesting)
  lineEnd
  return .assign path v

/- Take a line that says nothing. -/
def emptyLine : Scan Unit :=
  newline <|> (do exactly ['#']; let _ ← run isPrintable; newline <|> done)

/- Take a line with the blanks in front of the next one. -/
def line : Scan (Option Statement) := do
  let statement ←
    (do emptyLine; return none) <|>
    some <$> (itemHeader <|> tableHeader <|> assignmentLine)
  blanks
  return statement

/- Take a whole text. A byte order mark in front of it is passed over. -/
def statements : Scan (List Statement) := do
  let _ ← maybe (char fun c => c.toNat = 0xFEFF)
  blanks
  let lines ← many line
  done
  return lines.filterMap id

------------------------------------------------------------
-- Building A Table
------------------------------------------------------------

/- A table that is being built, and the path of the open table in it. -/
structure Builder where
  root : Table
  path : List String

namespace Builder

/- Do what a line says. -/
def step?
    (b : Builder) :
    Statement → Option Builder
| .assign path v =>
    (b.root.within? (Table.assign? path v) b.path).map fun root =>
      { b with root := root }
| .openTable path =>
    (b.root.openTable? path).map fun root => ⟨root, path⟩
| .openItem path =>
    (b.root.openItem? path).map fun root => ⟨root, path⟩

end Builder

/- The table that a text holds. -/
def ofText?
    (s : String) : Option Value :=
  (statements s.toList).bind fun (lines, _) =>
    (lines.foldlM Builder.step? ⟨[], []⟩).map fun b =>
      .table (entryValues b.root)

end Toml

end OrderDesk
