import Sm83Codegen.Text.Blank
import Sm83Codegen.Text.Word

/-!
# Lines of the generated text

Generated text is a list of lines, each ended by a line feed. This file lays lines out.

* `indented` -- a line at an indentation, an empty line staying empty;
* `listed` -- a head, items and a tail on one line if they fit `maxWidth`, else an item per line;
* `reindented` -- a block moved to another indentation: the blank lines at its ends go, the
  indentation its lines share goes, and all else stays;
* `textOf` -- lines as text.
-/

namespace Sm83Codegen.Text

/-! ## 1. Lines -/

/-- Lines longer than this many bytes are broken, one item a line. -/
def maxWidth : Nat := 120

/-- That many spaces. -/
def spaces (n : Nat) : String := String.ofList (List.replicate n ' ')

/-- A line at an indentation; an empty line takes no spaces. -/
def indented (indent : Nat) (line : String) : String :=
  if line.isEmpty then "" else spaces indent ++ line

theorem indented_of_ne_empty {line : String} (h : line ≠ "") (indent : Nat) :
    indented indent line = spaces indent ++ line :=
  if_neg fun hempty => h (String.isEmpty_iff.mp hempty)

/-- Lines as text, each ended by a line feed. -/
def textOf (lines : List String) : String := String.join (lines.map (· ++ "\n"))

/-- Items separated by a comma and a space. -/
def commaSeparated (items : List String) : String := String.intercalate ", " items

/-- `head`, the items and `tail` on one line if they fit, else an item per line, each with a
    comma after it. Without items there is nothing to break. -/
def listed (indent : Nat) (head : String) (items : List String) (tail : String) : List String :=
  let single := head ++ commaSeparated items ++ tail
  if indent + single.utf8ByteSize ≤ maxWidth || items.isEmpty then [indented indent single]
  else indented indent head ::
    (items.map (fun item => indented (indent + 4) (item ++ ",")) ++ [indented indent tail])

/-! ## 2. Blocks -/

/-- The lines of a text, without their line feeds. A text that ends in a line feed has an empty
    last line. -/
def splitLines (cs : List Char) : List (List Char) := pieces (fun c => c == '\n') cs

/-- The number of bytes characters take. -/
def byteLength (cs : List Char) : Nat := cs.foldr (fun c n => c.utf8Size + n) 0

/-- What follows the first `n` bytes; nothing if they end inside a character. -/
def dropBytes : Nat → List Char → List Char
  | _, [] => []
  | n, c :: cs =>
    if n = 0 then c :: cs else if c.utf8Size ≤ n then dropBytes (n - c.utf8Size) cs else []

/-- The bytes of white space a line starts with. -/
def marginOf (line : List Char) : Nat := byteLength (line.takeWhile isBlank)

/-- The least of some numbers, zero if there are none. -/
def least : List Nat → Nat
  | [] => 0
  | [n] => n
  | n :: m :: ns => min n (least (m :: ns))

/-- The lines from the first to the last that is not empty. -/
def withoutBlankEnds (lines : List (List Char)) : List (List Char) :=
  ((lines.dropWhile List.isEmpty).reverse.dropWhile List.isEmpty).reverse

/-- The lines of a block without white space at their ends, from the first to the last that is
    not empty. -/
def blockLines (block : List Char) : List (List Char) :=
  withoutBlankEnds ((splitLines block).map trimEnd)

/-- The indentation the lines of a block share; its empty lines have no say. -/
def sharedMargin (lines : List (List Char)) : Nat :=
  least ((lines.filter (fun l => !l.isEmpty)).map marginOf)

/-- The lines of a block without the indentation they share. -/
def outdentedLines (block : List Char) : List (List Char) :=
  let lines := blockLines block
  lines.map (dropBytes (sharedMargin lines))

/-- A block at another indentation. -/
def reindented (indent : Nat) (block : String) : List String :=
  (outdentedLines block.toList).map (fun l => indented indent (String.ofList l))

end Sm83Codegen.Text
