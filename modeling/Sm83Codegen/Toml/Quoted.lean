import Sm83Codegen.Text.Hex
import Sm83Codegen.Toml.Spacing

/-!
# Quoted texts of TOML

Four ways to quote a text: with escapes or literally, on one line or on several.

* `plainEscape?`, `scalar?` -- the characters that escapes stand for;
* `basic`, `literal` -- texts on one line, from behind the opening mark;
* `longBasic`, `longLiteral` -- texts on several lines, from behind the opening marks;
* `quoted` -- a quoted text of any kind, with its marks.
-/

namespace Sm83Codegen.Toml

/-! ## 1. Characters -/

/-- The characters that stand for themselves between quotation marks. -/
def isBasicChar (c : Char) : Bool := isCommentChar c && c != '\"' && c != '\\'

/-- The characters of a literal text. -/
def isLiteralChar (c : Char) : Bool := isCommentChar c && c != '\''

/-- The character that a letter after a backslash stands for. -/
def plainEscape? : Char → Option Char
  | 'b' => some '\x08'
  | 't' => some '\t'
  | 'n' => some '\n'
  | 'f' => some '\x0c'
  | 'r' => some '\r'
  | '\"' => some '\"'
  | '\\' => some '\\'
  | _ => none

/-- The number of digits of a code point after a letter. -/
def codeLength? : Char → Option Nat
  | 'u' => some 4
  | 'U' => some 8
  | _ => none

/-- The character of a code point. Halves of surrogate pairs are none. -/
def scalar? (n : Nat) : Option Char :=
  if n.isValidChar then some (Char.ofNat n) else none

/-- Puts a character before a text that was read. -/
def prepend (c : Char) : Option (List Char × List Char) → Option (List Char × List Char)
  | some (text, rest) => some (c :: text, rest)
  | none => none

/-! ## 2. On one line -/

/-- Where a reader is in a quoted text: between escapes; behind a backslash; in a code point, with
    the number of digits to come and the value so far; behind a backslash that ends its line, which
    has not ended yet; or at the front of the lines after it. -/
inductive QuotedState where
  | plain
  | escape
  | code (left value : Nat)
  | lineBreak
  | nextLine
  deriving DecidableEq, Repr

/-- The state after one more digit of a code point, or the character that is complete. -/
def codeDigit? (left value : Nat) (c : Char) : Option (QuotedState ⊕ Char) :=
  match Text.hexValue? c with
  | none => none
  | some d =>
    if left ≤ 1 then (scalar? (16 * value + d)).map .inr
    else some (.inl (.code (left - 1) (16 * value + d)))

/-- Reads a text with escapes up to its closing mark. -/
def basicFrom : QuotedState → List Char → Option (List Char × List Char)
  | _, [] => none
  | .escape, c :: cs =>
    match codeLength? c with
    | some n => basicFrom (.code n 0) cs
    | none =>
      match plainEscape? c with
      | some x => prepend x (basicFrom .plain cs)
      | none => none
  | .code left value, c :: cs =>
    match codeDigit? left value c with
    | some (.inl state) => basicFrom state cs
    | some (.inr x) => prepend x (basicFrom .plain cs)
    | none => none
  | _, c :: cs =>
    if c == '\"' then some ([], cs)
    else if c == '\\' then basicFrom .escape cs
    else if isBasicChar c then prepend c (basicFrom .plain cs)
    else none

/-- A text with escapes on one line. -/
def basic (cs : List Char) : Option (List Char × List Char) := basicFrom .plain cs

/-- A literal text on one line. -/
def literal : List Char → Option (List Char × List Char)
  | [] => none
  | c :: cs =>
    if c == '\'' then some ([], cs)
    else if isLiteralChar c then prepend c (literal cs)
    else none

/-! ## 3. On several lines -/

/-- A text without the line feed at its front, if there is one. -/
def dropFirstNewline (cs : List Char) : List Char := (afterNewline? cs).getD cs

/-- The marks that still belong to a text, behind the three that may close it: up to two more. -/
def closeLong (mark : Char) : List Char → List Char × List Char
  | c :: d :: cs =>
    if c == mark && d == mark then ([mark, mark], cs)
    else if c == mark then ([mark], d :: cs)
    else ([], c :: d :: cs)
  | [c] => if c == mark then ([mark], []) else ([], [c])
  | [] => ([], [])

/-- Whether a text starts with two marks. -/
def startsWithTwo (mark : Char) : List Char → Bool
  | c :: d :: _ => c == mark && d == mark
  | _ => false

/-- Reads a text with escapes up to its closing marks. A backslash at the end of a line joins it
    with what follows the blanks and line feeds after it. -/
def longBasicFrom : QuotedState → List Char → Option (List Char × List Char)
  | _, [] => none
  | .escape, c :: cs =>
    if isBlank c then longBasicFrom .lineBreak cs
    else if c == '\n' then longBasicFrom .nextLine cs
    else if c == '\r' then
      if cs.head? == some '\n' then longBasicFrom .lineBreak cs else none
    else
      match codeLength? c with
      | some n => longBasicFrom (.code n 0) cs
      | none =>
        match plainEscape? c with
        | some x => prepend x (longBasicFrom .plain cs)
        | none => none
  | .code left value, c :: cs =>
    match codeDigit? left value c with
    | some (.inl state) => longBasicFrom state cs
    | some (.inr x) => prepend x (longBasicFrom .plain cs)
    | none => none
  | .lineBreak, c :: cs =>
    if isBlank c then longBasicFrom .lineBreak cs
    else if c == '\n' then longBasicFrom .nextLine cs
    else if c == '\r' && cs.head? == some '\n' then longBasicFrom .lineBreak cs
    else none
  | state, c :: cs =>
    if state == .nextLine && (isBlank c || c == '\n') then longBasicFrom .nextLine cs
    else if c == '\r' then
      if cs.head? == some '\n' then longBasicFrom state cs else none
    else if c == '\"' then
      if startsWithTwo '\"' cs then some (closeLong '\"' (cs.drop 2))
      else prepend c (longBasicFrom .plain cs)
    else if c == '\\' then longBasicFrom .escape cs
    else if isBasicChar c || c == '\n' then prepend c (longBasicFrom .plain cs)
    else none

/-- A text with escapes on several lines. -/
def longBasic (cs : List Char) : Option (List Char × List Char) :=
  longBasicFrom .plain (dropFirstNewline cs)

/-- Reads a literal text up to its closing marks. -/
def longLiteralFrom : List Char → Option (List Char × List Char)
  | [] => none
  | c :: cs =>
    if c == '\r' then
      if cs.head? == some '\n' then longLiteralFrom cs else none
    else if c == '\'' then
      if startsWithTwo '\'' cs then some (closeLong '\'' (cs.drop 2))
      else prepend c (longLiteralFrom cs)
    else if isLiteralChar c || c == '\n' then prepend c (longLiteralFrom cs)
    else none

/-- A literal text on several lines. -/
def longLiteral (cs : List Char) : Option (List Char × List Char) :=
  longLiteralFrom (dropFirstNewline cs)

/-! ## 4. With its marks -/

/-- A read text as a string. -/
def asText (r : Option (List Char × List Char)) : Option (String × List Char) :=
  r.map (fun p => (String.ofList p.1, p.2))

/-- A quoted text of one line. -/
def quotedLine : Reader String
  | '\"' :: cs => asText (basic cs)
  | '\'' :: cs => asText (literal cs)
  | _ => none

/-- A quoted text of any kind. -/
def quoted : Reader String
  | '\"' :: '\"' :: '\"' :: cs => asText (longBasic cs)
  | '\'' :: '\'' :: '\'' :: cs => asText (longLiteral cs)
  | cs => quotedLine cs

end Sm83Codegen.Toml
