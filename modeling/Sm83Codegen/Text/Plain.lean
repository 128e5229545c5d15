/-!
# Text without control sequences

A terminal takes some characters as commands. A text for a terminal that shall only show text is
freed of them: of control characters other than those that separate words and lines, and of the
sequences that an escape character starts.

* `ControlState` -- which sequence a reader is in;
* `ControlState.step` -- what a character does there, and whether it is shown;
* `plain` -- what is shown of a text.
-/

namespace Sm83Codegen.Text

/-- Which sequence a reader is in: none; behind an escape character; behind one with further marks;
    in a control sequence; in the head of a device control, at its start, in its parameters or in
    its marks; in a string of no meaning here; in a command to the operating system. -/
inductive ControlState where
  | none
  | escape
  | escapeMarks
  | control
  | deviceStart
  | deviceParameters
  | deviceMarks
  | string
  | command
  deriving DecidableEq, Repr

namespace ControlState

/-- The control characters that separate words and lines. -/
def isSeparating (n : Nat) : Bool := n == 9 || n == 10 || n == 12 || n == 13

/-- Whether a code point is between two others. -/
def isIn (lo hi n : Nat) : Bool := lo ≤ n && n ≤ hi

/-- The sequence that a character behind an escape character starts. -/
def started (n : Nat) : ControlState :=
  if isIn 0x20 0x2F n then escapeMarks
  else if n == 0x5B then control
  else if n == 0x5D then command
  else if n == 0x50 then deviceStart
  else if n == 0x58 || n == 0x5E || n == 0x5F then string
  else none

/-- Whether a character has the byte in it that ends a string. -/
def endsString (c : Char) : Bool := (String.utf8EncodeChar c).contains 0x9C

/-- The sequence a printable ASCII character leads to. -/
def onPrintable (n : Nat) : ControlState → ControlState
  | none => none
  | escape => started n
  | escapeMarks => if isIn 0x20 0x2F n then escapeMarks else none
  | control => if isIn 0x20 0x3F n then control else none
  | deviceStart =>
    if isIn 0x20 0x2F n then deviceMarks else if isIn 0x30 0x3F n then deviceParameters else string
  | deviceParameters =>
    if isIn 0x20 0x2F n then deviceMarks else if isIn 0x30 0x3B n then deviceParameters else string
  | deviceMarks => if isIn 0x20 0x2F n then deviceMarks else string
  | string => string
  | command => command

/-- Whether the characters that separate words and lines end a sequence, and are shown. -/
def endsAtSeparator : ControlState → Bool
  | none | escape | escapeMarks | control => true
  | _ => false

/-- The sequence after a character, and whether the character is shown. -/
def step (s : ControlState) (c : Char) : ControlState × Bool :=
  let n := c.toNat
  if n == 0x1B then (escape, false)
  else if n == 0x18 || n == 0x1A then (none, false)
  else if isIn 0x20 0x7E n then (s.onPrintable n, s == none)
  else if isSeparating n && s.endsAtSeparator then (none, true)
  else if n ≥ 0x80 then
    if s == string && endsString c then (none, false) else (s, s == none)
  else if n == 7 && s == command then (none, false)
  else (s, false)

end ControlState

/-- What is shown of a text that starts in a sequence. -/
def plainFrom (s : ControlState) : List Char → List Char
  | [] => []
  | c :: cs =>
    let (next, shown) := s.step c
    if shown then c :: plainFrom next cs else plainFrom next cs

/-- What is shown of a text. -/
def plain (cs : List Char) : List Char := plainFrom .none cs

end Sm83Codegen.Text
