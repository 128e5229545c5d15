/-!
# Space between the words of a TOML document

Readers take characters from the front of a text and give back the rest.

* `skipBlanks` -- the blanks inside a line;
* `lineEnd?` -- the end of a line: blanks, a comment, and a line feed or the end of the text;
* `skipLines` -- blanks, comments and line feeds between the items of an array.
-/

namespace Sm83Codegen.Toml

/-- What takes something from the front of a text. -/
abbrev Reader (α : Type) := List Char → Option (α × List Char)

/-- The blanks inside a line. -/
def isBlank (c : Char) : Bool := c == ' ' || c == '\t'

/-- The characters of a comment: no controls but the tab. -/
def isCommentChar (c : Char) : Bool :=
  let n := c.toNat
  n == 0x09 || (0x20 ≤ n && n ≤ 0x7E) || 0x80 ≤ n

/-- A text without the blanks at its front. -/
def skipBlanks (cs : List Char) : List Char := cs.dropWhile isBlank

/-- What follows a line feed, which may have a carriage return before it. -/
def afterNewline? : List Char → Option (List Char)
  | '\n' :: cs => some cs
  | '\r' :: '\n' :: cs => some cs
  | _ => none

/-- A text without the comment at its front, if there is one. -/
def skipComment : List Char → List Char
  | '#' :: cs => cs.dropWhile isCommentChar
  | cs => cs

/-- What follows the end of a line. -/
def lineEnd? (cs : List Char) : Option (List Char) :=
  match skipComment (skipBlanks cs) with
  | [] => some []
  | rest => afterNewline? rest

/-- A text without the blanks, comments and line feeds at its front. A comment has to end in a line
    feed. `inComment` tells that the text starts inside a comment. -/
def skipLinesFrom (inComment : Bool) : List Char → Option (List Char)
  | [] => if inComment then none else some []
  | '\n' :: cs => skipLinesFrom false cs
  | '\r' :: cs => if cs.head? == some '\n' then skipLinesFrom false cs else none
  | c :: cs =>
    if inComment then
      if isCommentChar c then skipLinesFrom true cs else none
    else if isBlank c then skipLinesFrom false cs
    else if c == '#' then skipLinesFrom true cs
    else some (c :: cs)

/-- A text without the blanks, comments and line feeds at its front. -/
def skipLines (cs : List Char) : Option (List Char) := skipLinesFrom false cs

end Sm83Codegen.Toml
