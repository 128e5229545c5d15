import Sm83Codegen.Json.Value
import Sm83Codegen.Text.Hex

/-!
# The words of a JSON text

A JSON text is a sequence of words: punctuation, and values that hold no other value.

* `scanString` -- a quoted text, from behind its first quotation mark;
* `scanNumber` -- a number;
* `tokens?` -- all words of a text, or nothing if some of it is no word.
-/

namespace Sm83Codegen.Json

/-- A word of a JSON text. -/
inductive Token where
  | beginObject
  | endObject
  | beginArray
  | endArray
  | colon
  | comma
  | scalar (value : Json)

/-! ## 1. Quoted texts -/

/-- The number four hexadecimal digits write. -/
def codeUnit? (a b c d : Char) : Option Nat := Text.hexNumber? 0 [a, b, c, d]

/-- The character an escape letter stands for. -/
def escaped? (c : Char) : Option Char :=
  match c with
  | '\"' => some '\"'
  | '\\' => some '\\'
  | '/' => some '/'
  | 'b' => some (Char.ofNat 8)
  | 'f' => some (Char.ofNat 12)
  | 'n' => some '\n'
  | 'r' => some '\r'
  | 't' => some '\t'
  | _ => none

/-- Whether a code unit is the first half of a surrogate pair. -/
def isHighHalf (n : Nat) : Bool := 0xD800 ≤ n && n ≤ 0xDBFF

/-- Whether a code unit is the second half of a surrogate pair. -/
def isLowHalf (n : Nat) : Bool := 0xDC00 ≤ n && n ≤ 0xDFFF

/-- The character a surrogate pair stands for. -/
def pairChar (high low : Nat) : Char :=
  Char.ofNat (0x10000 + (high - 0xD800) * 0x400 + (low - 0xDC00))

/-- What is known of a quoted text: its characters so far, the last one first; whether no half of
    a surrogate pair stood alone; and the first half that waits for its second. -/
structure TextSoFar where
  read : List Char := []
  whole : Bool := true
  half : Option Nat := none

namespace TextSoFar

/-- A half that waits has waited in vain. -/
def settled (t : TextSoFar) : TextSoFar :=
  { t with whole := t.whole && t.half.isNone, half := none }

/-- The text with one more character. -/
def push (t : TextSoFar) (c : Char) : TextSoFar :=
  { t.settled with read := c :: t.settled.read }

/-- The text with one more escaped code unit. -/
def pushUnit (t : TextSoFar) (n : Nat) : TextSoFar :=
  if isLowHalf n then
    match t.half with
    | some high => { t with read := pairChar high n :: t.read, half := none }
    | none => { t with whole := false }
  else if isHighHalf n then { t.settled with half := some n }
  else t.push (Char.ofNat n)

/-- The text as it stands, unless half a pair stands alone in it. -/
def text? (t : TextSoFar) : Option String :=
  if t.settled.whole then some (String.ofList t.read.reverse) else none

end TextSoFar

/-- Reads a quoted text up to its closing mark and gives it with what follows. -/
def scanString (t : TextSoFar) : List Char → Option (Option String × List Char)
  | [] => none
  | '\"' :: cs => some (t.text?, cs)
  | '\\' :: 'u' :: a :: b :: c :: d :: cs =>
    match codeUnit? a b c d with
    | some n => scanString (t.pushUnit n) cs
    | none => none
  | '\\' :: e :: cs =>
    match escaped? e with
    | some c => scanString (t.push c) cs
    | none => none
  | c :: cs => if c.toNat < 0x20 || c == '\\' then none else scanString (t.push c) cs

/-! ## 2. Numbers -/

/-- The digits a text starts with, and what follows. -/
def scanDigits (cs : List Char) : List Char × List Char :=
  (cs.takeWhile Text.isDecimalDigit, cs.dropWhile Text.isDecimalDigit)

/-- A fraction, if the text goes on with one. -/
def scanFraction? : List Char → Option (Option (List Char) × List Char)
  | '.' :: cs =>
    let (digits, rest) := scanDigits cs
    if digits.isEmpty then none else some (some digits, rest)
  | cs => some (none, cs)

/-- The digits of an exponent whose sign is known. -/
def scanExponentDigits? (negative : Bool) (cs : List Char) :
    Option (Option (Bool × List Char) × List Char) :=
  let (digits, rest) := scanDigits cs
  if digits.isEmpty then none else some (some (negative, digits), rest)

/-- An exponent, if the text goes on with one. -/
def scanExponent? : List Char → Option (Option (Bool × List Char) × List Char)
  | c :: cs =>
    if c == 'e' || c == 'E' then
      match cs with
      | '+' :: ds => scanExponentDigits? false ds
      | '-' :: ds => scanExponentDigits? true ds
      | _ => scanExponentDigits? false cs
    else some (none, c :: cs)
  | [] => some (none, [])

/-- A number from its first digit on. A zero is followed by no digit. -/
def scanNumber (negative : Bool) (cs : List Char) : Option (Number × List Char) :=
  let (whole, rest) := scanDigits cs
  match whole with
  | [] => none
  | '0' :: _ :: _ => none
  | _ => do
    let (fraction, rest) ← scanFraction? rest
    let (exponent, rest) ← scanExponent? rest
    some (⟨negative, whole, fraction, exponent⟩, rest)

/-! ## 3. All words -/

/-- The word a text starts with, and what follows; no blank stands before it. -/
def scanToken : List Char → Option (Token × List Char)
  | '{' :: cs => some (.beginObject, cs)
  | '}' :: cs => some (.endObject, cs)
  | '[' :: cs => some (.beginArray, cs)
  | ']' :: cs => some (.endArray, cs)
  | ':' :: cs => some (.colon, cs)
  | ',' :: cs => some (.comma, cs)
  | '\"' :: cs => (scanString {} cs).map (fun (t, rest) => (.scalar (.string t), rest))
  | 'n' :: 'u' :: 'l' :: 'l' :: cs => some (.scalar .null, cs)
  | 't' :: 'r' :: 'u' :: 'e' :: cs => some (.scalar (.bool true), cs)
  | 'f' :: 'a' :: 'l' :: 's' :: 'e' :: cs => some (.scalar (.bool false), cs)
  | '-' :: cs => (scanNumber true cs).map (fun (n, rest) => (.scalar (.number n), rest))
  | cs => (scanNumber false cs).map (fun (n, rest) => (.scalar (.number n), rest))

/-- The blanks between words. -/
def isGap (c : Char) : Bool := c == ' ' || c == '\n' || c == '\t' || c == '\r'

/-- The words of a text. Each takes a character at least, so `fuel` of the text's length is
    enough. -/
def tokensFrom? (fuel : Nat) (read : List (Placed Token)) (cs : List Char) :
    Option (List (Placed Token)) :=
  match fuel with
  | 0 => if cs.isEmpty then some read.reverse else none
  | fuel + 1 =>
    match cs with
    | [] => some read.reverse
    | c :: rest =>
      if isGap c then tokensFrom? fuel read rest
      else
        match scanToken (c :: rest) with
        | some (t, after) => tokensFrom? fuel (⟨t, c :: rest, after⟩ :: read) after
        | none => none

/-- The words of a text, if it holds nothing else. -/
def tokens? (cs : List Char) : Option (List (Placed Token)) := tokensFrom? cs.length [] cs

end Sm83Codegen.Json
