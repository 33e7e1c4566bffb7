/-
  This file defines how the parts of a TOML text are taken
  from its front. A scan either takes something and leaves
  the rest, or fails and leaves everything.

  Key definitions include:
    * `Toml.Scan`
    * `Toml.Scan.many`
    * `Toml.Scan.separated`
    * `Toml.newline`
    * `Toml.lineEnd`
-/

namespace OrderDesk

namespace Toml

/- A way to take something from the front of a text. -/
abbrev Scan (α : Type) :=
  StateT (List Char) Option α

namespace Scan

variable {α β : Type}

/- Take one character of a class. -/
def char
    (p : Char → Bool) : Scan Char :=
  fun cs =>
    match cs with
    | c :: rest => if p c then some (c, rest) else none
    | [] => none

/- Take a certain text. -/
def exactly :
    List Char → Scan Unit
| [] => pure ()
| c :: more => do
    let _ ← char (· = c)
    exactly more

/- Take all characters up to the first that is not of a class. -/
def run
    (p : Char → Bool) : Scan (List Char) :=
  fun cs => some (cs.takeWhile p, cs.dropWhile p)

/- Take at least one character of a class. -/
def run1
    (p : Char → Bool) : Scan (List Char) := do
  let c ← char p
  let cs ← run p
  return c :: cs

/- See whether the next character is of a class. -/
def next
    (p : Char → Bool) : Scan Bool :=
  fun cs => some (cs.head?.any p, cs)

/- Go on only if the next character is of a class. -/
def ahead
    (p : Char → Bool) : Scan Unit :=
  fun cs => if cs.head?.any p then some ((), cs) else none

/- Go on only at the end of the text. -/
def done : Scan Unit :=
  fun cs => if cs.isEmpty then some ((), cs) else none

/- Take something if it is there. -/
def maybe
    (p : Scan α) : Scan (Option α) :=
  fun cs =>
    match p cs with
    | some (a, rest) => some (some a, rest)
    | none => some (none, cs)

/- Take as many as there are, each of which uses up text. -/
def collect
    (p : Scan α)
    (cs : List Char) : List α × List Char :=
  match p cs with
  | none => ([], cs)
  | some (a, rest) =>
      if rest.length < cs.length then
        let (others, after) := collect p rest
        (a :: others, after)
      else
        ([], cs)
termination_by cs.length

/- Take as many as there are. -/
def many
    (p : Scan α) : Scan (List α) :=
  fun cs => some (collect p cs)

/- Take at least one, with something between them. -/
def separated
    (between : Scan β)
    (p : Scan α) : Scan (List α) := do
  let first ← p
  let others ← many do
    let _ ← between
    p
  return first :: others

end Scan

open Scan

------------------------------------------------------------
-- Blanks, Lines And Comments
------------------------------------------------------------

/- A space or a tab. -/
def isBlank
    (c : Char) : Bool :=
  c = ' ' || c = '\t'

/- A character that may stand in a line: no control but the tab. -/
def isPrintable
    (c : Char) : Bool :=
  c = '\t' || (32 ≤ c.toNat && c.toNat ≠ 127)

/- Take spaces and tabs. -/
def blanks : Scan Unit := do
  let _ ← run isBlank

/- Take a line break. -/
def newline : Scan Unit :=
  exactly ['\n'] <|> exactly ['\r', '\n']

/- Take a comment, up to the line break. -/
def comment : Scan Unit := do
  exactly ['#']
  let _ ← run isPrintable

/- Take what is left of a line: blanks, a comment and the break. -/
def lineEnd : Scan Unit := do
  blanks
  let _ ← maybe comment
  newline <|> done

/- Take blanks, comments and line breaks. -/
def layout : Scan Unit := do
  let _ ← many ((do let _ ← run1 isBlank) <|> newline <|> comment)

end Toml

end OrderDesk
