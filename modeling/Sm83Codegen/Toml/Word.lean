import Sm83Codegen.Text.Hex
import Sm83Codegen.Text.Word
import Sm83Codegen.Toml.Spacing
import Sm83Codegen.Toml.Value

/-!
# Unquoted values of TOML

Truth values, numbers and dates are written without quotation marks, as one word. Only a date and
a time may have a space between them.

* `integer?` -- decimal, hexadecimal, octal and binary numbers of 64 bits;
* `float?` -- numbers with a fraction or an exponent, infinity and no number;
* `dateTime?` -- dates, times, and both;
* `word` -- any of these at the front of a text.
-/

namespace Sm83Codegen.Toml

/-! ## 1. Digits -/

/-- Digits in groups: one underscore may stand between two digits. The digits alone are kept. -/
def grouped? (isDigit : Char → Bool) (cs : List Char) : Option (List Char) :=
  let groups := Text.pieces (fun c => c == '_') cs
  if groups.all (fun g => !g.isEmpty && g.all isDigit) then some groups.flatten else none

/-- The value of digits in a base of at most sixteen. -/
def valueIn (base : Nat) (digits : List Char) : Nat :=
  digits.foldl (fun n c => base * n + (Text.hexValue? c).getD 0) 0

/-- A sign at the front of a word, and the rest. -/
def signOf : List Char → Bool × List Char
  | '-' :: cs => (true, cs)
  | '+' :: cs => (false, cs)
  | cs => (false, cs)

/-- The digits of a whole number in decimal, which has no zeros in front. -/
def wholeDigits? (cs : List Char) : Option (List Char) :=
  match grouped? Text.isDecimalDigit cs with
  | some ['0'] => some ['0']
  | some ('0' :: _) => none
  | r => r

/-! ## 2. Integers -/

/-- A number that fits 64 bits with a sign. -/
def inRange? (n : Int) : Option Int :=
  if Int64.minValue.toInt ≤ n && n ≤ Int64.maxValue.toInt then some n else none

/-- A number with a mark of its base. -/
def based? (base : Nat) (isDigit : Char → Bool) (cs : List Char) : Option Int :=
  (grouped? isDigit cs).bind (fun digits => inRange? (valueIn base digits))

/-- An integer. Only a decimal one has a sign. -/
def integer? : List Char → Option Int
  | '0' :: 'x' :: cs => based? 16 Text.isHexDigit cs
  | '0' :: 'o' :: cs => based? 8 (fun c => '0' ≤ c && c ≤ '7') cs
  | '0' :: 'b' :: cs => based? 2 (fun c => c == '0' || c == '1') cs
  | cs =>
    let (negative, digits) := signOf cs
    (wholeDigits? digits).bind (fun ds =>
      let n : Int := valueIn 10 ds
      inRange? (if negative then -n else n))

/-! ## 3. Floating-point numbers -/

/-- Whether `n * 10^exponent` is too large for a binary number of 64 bits: nearer to infinity than
    to the largest of them, or as near. Numbers of more than 400 places are too large for certain,
    and those of less than 300 are not. -/
def overflows (n : Nat) (exponent : Int) : Bool :=
  let places : Int := (toString n).length + exponent
  if n = 0 || places < 300 then false
  else if places > 400 then true
  else
    let limit : Nat := (1 <<< 1024) - (1 <<< 970)
    if exponent ≥ 0 then limit ≤ n * Nat.pow 10 exponent.toNat
    else limit * Nat.pow 10 (-exponent).toNat ≤ n

/-- The digits of an exponent with its sign; zero if there is none. -/
def exponent? : Option (List Char) → Option Int
  | none => some 0
  | some cs =>
    let (negative, digits) := signOf cs
    (grouped? Text.isDecimalDigit digits).map (fun ds =>
      let n : Int := valueIn 10 ds
      if negative then -n else n)

/-- A text cut at the first character that satisfies a test; the character goes. -/
def cutAt (p : Char → Bool) (cs : List Char) : List Char × Option (List Char) :=
  match cs.dropWhile (fun c => !p c) with
  | [] => (cs, none)
  | _ :: rest => (cs.takeWhile (fun c => !p c), some rest)

/-- Whether a word without its sign is a number with a fraction or an exponent. A positive one may
    not be too large. -/
def isDecimalFloat (negative : Bool) (cs : List Char) : Bool :=
  let (mantissa, exponent) := cutAt (fun c => c == 'e' || c == 'E') cs
  let (whole, fraction) := cutAt (fun c => c == '.') mantissa
  let places := match fraction with
    | none => some []
    | some ds => grouped? Text.isDecimalDigit ds
  match wholeDigits? whole, places, exponent? exponent with
  | some ws, some fs, some e =>
    (exponent.isSome || fraction.isSome) &&
      (negative || !overflows (valueIn 10 (ws ++ fs)) (e - fs.length))
  | _, _, _ => false

/-- A number that is no integer, as it is written. -/
def float? (cs : List Char) : Option String :=
  let (negative, rest) := signOf cs
  if rest == ['i', 'n', 'f'] || rest == ['n', 'a', 'n'] || isDecimalFloat negative rest then
    some (String.ofList cs)
  else none

/-! ## 4. Dates and times -/

/-- The number that two digits write, if it lies between two bounds. -/
def twoDigits? (lo hi : Nat) (a b : Char) : Option Nat :=
  if Text.isDecimalDigit a && Text.isDecimalDigit b then
    let n := Text.decimalNumber 0 [a, b]
    if lo ≤ n && n ≤ hi then some n else none
  else none

/-- The days of a month. -/
def daysIn (year month : Nat) : Nat :=
  if month = 2 then
    if year % 4 = 0 && (year % 100 != 0 || year % 400 = 0) then 29 else 28
  else if month = 4 || month = 6 || month = 9 || month = 11 then 30
  else 31

/-- What follows a date at the front of a word. -/
def afterDate? : List Char → Option (List Char)
  | y₁ :: y₂ :: y₃ :: y₄ :: '-' :: m₁ :: m₂ :: '-' :: d₁ :: d₂ :: rest => do
    let month ← twoDigits? 1 12 m₁ m₂
    let day ← twoDigits? 1 31 d₁ d₂
    let year := [y₁, y₂, y₃, y₄]
    if year.all Text.isDecimalDigit && day ≤ daysIn (Text.decimalNumber 0 year) month then
      some rest
    else none
  | _ => none

/-- What follows the fraction of a second, if there is one. -/
def afterFraction : List Char → List Char
  | '.' :: c :: cs =>
    if Text.isDecimalDigit c then cs.dropWhile Text.isDecimalDigit else '.' :: c :: cs
  | cs => cs

/-- What follows a time at the front of a word. -/
def afterTime? : List Char → Option (List Char)
  | h₁ :: h₂ :: ':' :: m₁ :: m₂ :: ':' :: s₁ :: s₂ :: rest => do
    let _ ← twoDigits? 0 23 h₁ h₂
    let _ ← twoDigits? 0 59 m₁ m₂
    let _ ← twoDigits? 0 60 s₁ s₂
    some (afterFraction rest)
  | _ => none

/-- Whether a word is the distance to universal time, or nothing. -/
def isOffset : List Char → Bool
  | [] | ['Z'] | ['z'] => true
  | [s, h₁, h₂, ':', m₁, m₂] =>
    (s == '+' || s == '-') && (twoDigits? 0 23 h₁ h₂).isSome && (twoDigits? 0 59 m₁ m₂).isSome
  | _ => false

/-- Whether a word is a time that may have an offset. -/
def isTimeOfDay (cs : List Char) : Bool :=
  match afterTime? cs with
  | some rest => isOffset rest
  | none => false

/-- Whether a word is a date, a time, or both. -/
def isDateTime (cs : List Char) : Bool :=
  match afterDate? cs with
  | some [] => true
  | some (t :: rest) => (t == 'T' || t == 't') && isTimeOfDay rest
  | none => afterTime? cs == some []

/-! ## 5. Words -/

/-- The characters of a word. -/
def isWordChar (c : Char) : Bool :=
  Text.isWordChar c || c == '_' || c == '+' || c == '-' || c == '.' || c == ':'

/-- The value of a word. -/
def ofWord? (cs : List Char) : Option Toml :=
  if cs == ['t', 'r', 'u', 'e'] then some (.truth true)
  else if cs == ['f', 'a', 'l', 's', 'e'] then some (.truth false)
  else if isDateTime cs then some (.dateTime (String.ofList cs))
  else
    match integer? cs with
    | some n => some (.integer n)
    | none => (float? cs).map .float

/-- A word at the front of a text, with its value. A date takes a time along that follows after one
    space. -/
def word : Reader Toml := fun cs =>
  let first := cs.takeWhile isWordChar
  let rest := cs.dropWhile isWordChar
  match rest with
  | ' ' :: more =>
    let second := more.takeWhile isWordChar
    if afterDate? first == some [] && isTimeOfDay second then
      some (.dateTime (String.ofList (first ++ ' ' :: second)), more.dropWhile isWordChar)
    else (ofWord? first).map (fun v => (v, rest))
  | _ => (ofWord? first).map (fun v => (v, rest))

end Sm83Codegen.Toml
