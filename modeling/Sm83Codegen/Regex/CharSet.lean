import Sm83Codegen.Text.Blank
import Sm83Codegen.Text.WordCharacter

/-!
# Sets of characters

What one place of a pattern admits.

* `CharSet`, `CharSet.contains` -- sets, and their characters;
* `CharSet.size` -- about how much room a set takes;
* `CharSet.asciiClass?` -- the sets of ASCII that have a name.
-/

namespace Sm83Codegen

/-- A set of characters: a range of code points with both ends; the white space, the decimal digits
    or the word characters of all scripts; and what is made of sets. A caseless set holds a
    character together with its other case. -/
inductive CharSet where
  | range (lo hi : Nat)
  | anyBlank
  | anyDigit
  | anyWord
  | outside (s : CharSet)
  | union (s t : CharSet)
  | intersection (s t : CharSet)
  | caseless (s : CharSet)
  deriving DecidableEq, Repr

namespace CharSet

/-! ## 1. Members -/

/-- The other spellings of a letter: ASCII letters have two cases, the letters k and s a third
    spelling each, the Kelvin sign and the long s. -/
def spellings (c : Char) : List Char :=
  let n := c.toNat
  if n == 0x4B || n == 0x6B || n == 0x212A then ['K', 'k', Char.ofNat 0x212A]
  else if n == 0x53 || n == 0x73 || n == 0x17F then ['S', 's', Char.ofNat 0x17F]
  else if 65 ≤ n && n ≤ 90 then [c, Char.ofNat (n + 32)]
  else if 97 ≤ n && n ≤ 122 then [c, Char.ofNat (n - 32)]
  else [c]

/-- Whether a character is in a set. -/
def contains : CharSet → Char → Bool
  | range lo hi, c => lo ≤ c.toNat && c.toNat ≤ hi
  | anyBlank, c => Text.isBlank c
  | anyDigit, c => Text.isDigitCharacter c
  | anyWord, c => Text.isWordCharacter c
  | outside s, c => !s.contains c
  | union s t, c => s.contains c || t.contains c
  | intersection s t, c => s.contains c && t.contains c
  | caseless s, c => (spellings c).any s.contains

/-- About how many states an automaton over UTF-8 bytes needs for a set. -/
def size : CharSet → Nat
  | range _ hi => if hi < 0x80 then 1 else 4
  | anyBlank => 12
  | anyDigit => 150
  | anyWord => 1500
  | outside s => s.size + 8
  | union s t | intersection s t => s.size + t.size
  | caseless s => s.size + 1

/-! ## 2. Some sets -/

/-- The set without a character. -/
def none : CharSet := range 1 0

/-- The set of all characters. -/
def all : CharSet := outside none

/-- The set of one character. -/
def single (c : Char) : CharSet := range c.toNat c.toNat

/-- The set of ranges. -/
def ofRanges (rs : List (Nat × Nat)) : CharSet :=
  rs.foldl (fun s r => s.union (range r.1 r.2)) none

/-- The first set without the second. -/
def difference (s t : CharSet) : CharSet := s.intersection t.outside

/-- What is in one of two sets only. -/
def symmetricDifference (s t : CharSet) : CharSet := (s.difference t).union (t.difference s)

/-- The word characters of ASCII. -/
def asciiWords : CharSet := ofRanges [(48, 57), (65, 90), (95, 95), (97, 122)]

/-- The digits of ASCII. -/
def asciiDigits : CharSet := range 48 57

/-- The white space of ASCII. -/
def asciiBlanks : CharSet := ofRanges [(9, 13), (32, 32)]

/-- The set of ASCII characters of a name. -/
def asciiClass? (name : String) : Option CharSet :=
  match name with
  | "alnum" => some (ofRanges [(48, 57), (65, 90), (97, 122)])
  | "alpha" => some (ofRanges [(65, 90), (97, 122)])
  | "ascii" => some (range 0 127)
  | "blank" => some (ofRanges [(9, 9), (32, 32)])
  | "cntrl" => some (ofRanges [(0, 31), (127, 127)])
  | "digit" => some asciiDigits
  | "graph" => some (range 33 126)
  | "lower" => some (range 97 122)
  | "print" => some (range 32 126)
  | "punct" => some (ofRanges [(33, 47), (58, 64), (91, 96), (123, 126)])
  | "space" => some asciiBlanks
  | "upper" => some (range 65 90)
  | "word" => some asciiWords
  | "xdigit" => some (ofRanges [(48, 57), (65, 70), (97, 102)])
  | _ => Option.none

end CharSet

end Sm83Codegen
