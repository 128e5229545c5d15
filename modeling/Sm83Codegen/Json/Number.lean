import Sm83Codegen.Json.Value

/-!
# The value of a written number

A whole number without point and exponent keeps its exact value as long as it fits 64 bits. Any
other number is a floating-point number: its digits are read as long as they fit 64 bits, the rest
only count as places, and a power of ten scales the outcome.

* `Number.Reading` -- the value of a number;
* `Number.read` -- the value a number writes.
-/

namespace Sm83Codegen.Json.Number

/-- The value of a number: a natural number, the negative of one, a floating-point number, or too
    large for any. -/
inductive Reading where
  | natural (n : Nat)
  | negative (n : Nat)
  | float (x : Float)
  | tooLarge

/-! ## 1. Digits -/

/-- Digits read so far: their number, and the power of ten it has to be scaled by. -/
structure Digits where
  value : Nat
  places : Int

/-- The value of a decimal digit. -/
def digitValue (c : Char) : Nat := c.toNat - 48

/-- The number with one more digit, if it still fits 64 bits. -/
def extend? (n : Nat) (c : Char) : Option Nat :=
  let m := 10 * n + digitValue c
  if m < UInt64.size then some m else none

/-- Digits before the point. The ones from the first that does not fit on only count. -/
def readWhole : Nat → List Char → Digits
  | n, [] => ⟨n, 0⟩
  | n, c :: cs =>
    match extend? n c with
    | some m => readWhole m cs
    | none => ⟨n, cs.length + 1⟩

/-- Digits after the point. The ones from the first that does not fit on are left out. -/
def readFraction : Digits → List Char → Digits
  | d, [] => d
  | d, c :: cs =>
    match extend? d.value c with
    | some m => readFraction ⟨m, d.places - 1⟩ cs
    | none => d

/-- A run of digits as a number. -/
def digitsValue (cs : List Char) : Nat := cs.foldl (fun n c => 10 * n + digitValue c) 0

/-! ## 2. Floating-point numbers -/

/-- A power of ten as a floating-point number. -/
def powerOfTen (n : Nat) : Float := Float.ofScientific 1 false n

/-- A number scaled by a power of ten, if it stays finite. Powers above the largest there is are
    taken in steps. -/
def scaledFloat? (x : Float) (places : Int) : Nat → Option Float
  | 0 => none
  | fuel + 1 =>
    if places.natAbs ≤ 308 then
      if places ≥ 0 then
        let y := x * powerOfTen places.natAbs
        if y.isInf then none else some y
      else some (x / powerOfTen places.natAbs)
    else if x == 0.0 then some x
    else if places ≥ 0 then none
    else scaledFloat? (x / powerOfTen 308) (places + 308) fuel

/-- A number scaled by a power of ten. A number that is not zero becomes zero within four steps
    downwards. -/
def scaled? (x : Float) (places : Int) : Option Float := scaledFloat? x places 8

/-! ## 3. The whole number -/

/-- The largest exponent that is told apart from infinity. -/
def maxExponent : Nat := (1 <<< 31) - 1

/-- A sum kept within the range of a signed 32-bit number. -/
def clamped (n : Int) : Int := max Int32.minValue.toInt (min Int32.maxValue.toInt n)

/-- The value of digits with a sign, as a floating-point number. -/
def floatReading (negative : Bool) (d : Digits) : Reading :=
  match scaled? (Float.ofNat d.value) d.places with
  | some x => .float (if negative then -x else x)
  | none => .tooLarge

/-- The value of digits that have an exponent. -/
def exponentReading (negative : Bool) (d : Digits) (down : Bool) (digits : List Char) : Reading :=
  let e := digitsValue digits
  if e > maxExponent then
    if d.value ≠ 0 && !down then .tooLarge else .float (if negative then -0.0 else 0.0)
  else
    floatReading negative
      ⟨d.value, clamped (if down then d.places - (e : Int) else d.places + (e : Int))⟩

/-- The value of a number with neither point nor exponent. -/
def wholeReading (negative : Bool) (d : Digits) : Reading :=
  if d.places ≠ 0 then floatReading negative d
  else if !negative then .natural d.value
  else if d.value = 0 || d.value > 1 <<< 63 then .float (-(Float.ofNat d.value))
  else .negative d.value

/-- The value a number writes. -/
def read (n : Number) : Reading :=
  let whole := readWhole 0 n.whole
  match n.fraction, n.exponent with
  | none, none => wholeReading n.negative whole
  | fraction, exponent =>
    let d := readFraction whole (fraction.getD [])
    match exponent with
    | none => floatReading n.negative d
    | some (down, digits) => exponentReading n.negative d down digits

end Sm83Codegen.Json.Number
