import OrderDesk.Toml.Scan
import OrderDesk.Uuid

/-
  This file defines the strings and keys of TOML. A string
  stands between quotes or apostrophes, one of them on a
  line or three of them around several lines. Escapes hold
  between quotes only. A line break counts as a line feed.

  Key definitions include:
    * `Toml.text`
    * `Toml.keyPath`
-/

namespace OrderDesk

namespace Toml

open Scan

------------------------------------------------------------
-- Escapes
------------------------------------------------------------

/- The character with the given number, unless it is a surrogate. -/
def charOfNat?
    (n : Nat) : Option Char :=
  if n.isValidChar then some (Char.ofNat n) else none

/- Take an escaped character number of `n` digits. -/
def numbered
    (n : Nat) : Scan Char :=
  fun cs =>
    let digits := cs.take n
    if digits.length = n then
      ((digits.foldlM
          (fun m c => (Uuid.hexValue? c).map (16 * m + ·)) 0).bind
        charOfNat?).map fun c => (c, cs.drop n)
    else
      none

/- Take an escape. -/
def escape : Scan Char := do
  exactly ['\\']
  match ← char fun _ => true with
  | 'b' => return Char.ofNat 8
  | 't' => return '\t'
  | 'n' => return '\n'
  | 'f' => return Char.ofNat 12
  | 'r' => return '\r'
  | '"' => return '"'
  | '\\' => return '\\'
  | 'u' => numbered 4
  | 'U' => numbered 8
  | _ => failure

------------------------------------------------------------
-- Strings On One Line
------------------------------------------------------------

/- A character that stands for itself between quotes. -/
def isPlain
    (c : Char) : Bool :=
  isPrintable c && c ≠ '"' && c ≠ '\\'

/- A character that stands for itself between apostrophes. -/
def isLiteral
    (c : Char) : Bool :=
  isPrintable c && c ≠ '\''

/- Take a string between quotes. -/
def basicText : Scan (List Char) := do
  exactly ['"']
  let cs ← many (char isPlain <|> escape)
  exactly ['"']
  return cs

/- Take a string between apostrophes. -/
def literalText : Scan (List Char) := do
  exactly ['\'']
  let cs ← run isLiteral
  exactly ['\'']
  return cs

------------------------------------------------------------
-- Strings On Several Lines
------------------------------------------------------------

/- Take a line break as a line feed. -/
def lineFeed : Scan (List Char) := do
  newline
  return ['\n']

/- Take an escaped line break with all blanks after it. -/
def joinedLines : Scan (List Char) := do
  exactly ['\\']
  blanks
  newline
  let _ ← many ((do let _ ← run1 isBlank) <|> newline)
  return []

/-
  Take one or two marks that do not end the string, because
  something else follows them.
-/
def looseMarks
    (mark : Char) : Scan (List Char) :=
  (do
    exactly [mark, mark]
    ahead (· ≠ mark)
    return [mark, mark]) <|>
  (do
    exactly [mark]
    ahead (· ≠ mark)
    return [mark])

/- Take the end of a string and up to two marks before it. -/
def closingMarks
    (mark : Char) : Scan (List Char) :=
  (do
    exactly (List.replicate 5 mark)
    return [mark, mark]) <|>
  (do
    exactly (List.replicate 4 mark)
    return [mark]) <|>
  (do
    exactly (List.replicate 3 mark)
    return [])

/-
  Take a string between three marks, given what it is made
  of besides line breaks and marks. A line break right after
  the opening marks does not count.
-/
def multiline
    (mark : Char)
    (piece : Scan (List Char)) : Scan (List Char) := do
  exactly (List.replicate 3 mark)
  let _ ← maybe newline
  let pieces ← many (piece <|> lineFeed <|> looseMarks mark)
  let last ← closingMarks mark
  return pieces.flatten ++ last

/- Take a string of any of the four forms. -/
def text : Scan String :=
  String.ofList <$>
    (multiline '"'
        (run1 isPlain <|> joinedLines <|> (fun c => [c]) <$> escape) <|>
      basicText <|>
      multiline '\'' (run1 isLiteral) <|>
      literalText)

------------------------------------------------------------
-- Keys
------------------------------------------------------------

/- A character of a key without quotes. -/
def isBare
    (c : Char) : Bool :=
  ('a' ≤ c && c ≤ 'z') || ('A' ≤ c && c ≤ 'Z') ||
    ('0' ≤ c && c ≤ '9') || c = '-' || c = '_'

/- Take one key. -/
def key : Scan String :=
  String.ofList <$> (basicText <|> literalText <|> run1 isBare)

/- How deep values may be nested and how long a path may be. -/
def maxNesting : Nat :=
  79

/- Take keys with points between them. -/
def keyPath : Scan (List String) := do
  let path ← separated (exactly ['.']) do
    blanks
    let k ← key
    blanks
    return k
  if path.length ≤ maxNesting then return path else failure

end Toml

end OrderDesk
