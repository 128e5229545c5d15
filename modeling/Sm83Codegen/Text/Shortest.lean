/-!
# The shortest decimal of a binary number

A finite binary floating-point number is `m * 2^q`. All real numbers nearer to it than to its
neighbours round to it; of the decimals among them, the one with the fewest digits stands for it,
and of two such decimals the nearer.

* `Binary.ofFloat` -- the parts of a floating-point number;
* `Binary.shortest` -- the digits and the place of the first of them;
* `Decimal`, `FloatLayout` -- digits with their place, and when an exponent is written;
* `floatText` -- a number written out.
-/

namespace Sm83Codegen.Text

/-! ## 1. The parts of a floating-point number -/

/-- The number `significand * 2^exponent`. `atPower` marks the least significand of its exponent,
    below which the neighbours lie twice as close. -/
structure Binary where
  significand : Nat
  exponent : Int
  atPower : Bool

/-- The parts of the absolute value of a finite number. -/
def Binary.ofFloat (x : Float) : Binary :=
  let bits : Nat := x.toBits.toNat % (1 <<< 63)
  let field : Nat := bits >>> 52
  let fraction : Nat := bits % (1 <<< 52)
  if field = 0 then ⟨fraction, -1074, false⟩
  else ⟨(1 <<< 52) + fraction, (field : Int) - 1075, fraction == 0 && field != 1⟩

/-! ## 2. The shortest decimal -/

/-- A fraction of natural numbers. -/
structure Ratio where
  num : Nat
  den : Nat

/-- A quarter of `n`, times a power of two. -/
def Ratio.quarters (n : Nat) (exponent : Int) : Ratio :=
  if exponent ≥ 0 then ⟨n <<< exponent.toNat, 4⟩ else ⟨n, 4 <<< (-exponent).toNat⟩

/-- A fraction divided by a power of ten. -/
def Ratio.scaled (r : Ratio) (place : Int) : Ratio :=
  if place ≥ 0 then ⟨r.num, r.den * Nat.pow 10 place.toNat⟩
  else ⟨r.num * Nat.pow 10 (-place).toNat, r.den⟩

/-- The least power of ten, from `place` on, at which a fraction is one or more; tried downwards
    at most `fuel` times. -/
def Ratio.leadingBelow (r : Ratio) : Nat → Int → Int
  | 0, place => place
  | fuel + 1, place =>
    let s := r.scaled place
    if s.num ≥ s.den then place else r.leadingBelow fuel (place - 1)

/-- The place of the first digit of a fraction that is not zero. -/
def Ratio.leading (r : Ratio) : Int :=
  if r.num ≥ r.den then ((toString (r.num / r.den)).length : Int) - 1
  else r.leadingBelow 400 (-1)

namespace Binary

/-- Whether `n` at a decimal place rounds to the number: the ends of the interval belong to a
    number with an even significand. -/
def admits (b : Binary) (n : Nat) (place : Int) : Bool :=
  let below := if b.atPower then 1 else 2
  let low := (Ratio.quarters (4 * b.significand - below) b.exponent).scaled place
  let high := (Ratio.quarters (4 * b.significand + 2) b.exponent).scaled place
  if b.significand % 2 = 0 then low.num ≤ n * low.den && n * high.den ≤ high.num
  else low.num < n * low.den && n * high.den < high.num

/-- The multiple of a decimal place that stands for the number, if one does: of two the nearer,
    and of two as near the even one. -/
def onGrid? (b : Binary) (place : Int) : Option Nat :=
  let value := (Ratio.quarters (4 * b.significand) b.exponent).scaled place
  let below := value.num / value.den
  let rest := 2 * (value.num % value.den)
  let nearer := if rest < value.den then below
    else if value.den < rest then below + 1
    else if below % 2 = 0 then below else below + 1
  let other := if nearer = below then below + 1 else below
  if b.admits nearer place then some nearer
  else if b.admits other place then some other
  else none

/-- The first grid with a hit, from `digits` digits on. -/
def firstGrid (b : Binary) (leading : Int) : Nat → Nat → Nat × Int
  | 0, _ => (0, 0)
  | fuel + 1, digits =>
    let place := leading - digits + 1
    match b.onGrid? place with
    | some n => (n, place)
    | none => firstGrid b leading fuel (digits + 1)

/-- The shortest decimal `n * 10^place` of a number that is not zero. -/
def shortest (b : Binary) : Nat × Int :=
  b.firstGrid (Ratio.quarters (4 * b.significand) b.exponent).leading 18 1

end Binary

/-! ## 3. Written out -/

/-- The significant digits of a number, and the power of ten of the first. -/
structure Decimal where
  digits : List Char
  exponent : Int

/-- The decimal `n * 10^place`, without the zeros at its end. -/
def Decimal.ofScaled (n : Nat) (place : Int) : Decimal :=
  let digits := (toString n).toList
  ⟨(digits.reverse.dropWhile (fun c => c == '0')).reverse, place + digits.length - 1⟩

/-- The powers of ten of the first digit, least and most, for which a number is written without an
    exponent. -/
structure FloatLayout where
  least : Int
  most : Int

namespace Decimal

/-- So many zeros. -/
def zeros (n : Nat) : List Char := List.replicate n '0'

/-- Without an exponent, with a digit at least on both sides of the point. -/
def positional (d : Decimal) : List Char :=
  if d.exponent < 0 then '0' :: '.' :: (zeros (-d.exponent - 1).toNat ++ d.digits)
  else
    let places := d.exponent.toNat + 1
    let fraction := d.digits.drop places
    d.digits.take places ++ zeros (places - d.digits.length) ++
      '.' :: (if fraction.isEmpty then ['0'] else fraction)

/-- With an exponent, which has a sign, and one digit before the point. -/
def scientific (d : Decimal) : List Char :=
  let fraction := d.digits.drop 1
  let sign := if d.exponent < 0 then '-' else '+'
  d.digits.take 1 ++ (if fraction.isEmpty then [] else '.' :: fraction) ++
    'e' :: sign :: (toString d.exponent.natAbs).toList

/-- With an exponent or without, as the layout has it. -/
def chars (d : Decimal) (l : FloatLayout) : List Char :=
  if l.least ≤ d.exponent && d.exponent ≤ l.most then d.positional else d.scientific

end Decimal

/-- A finite number with the fewest digits that read back as it. -/
def floatText (l : FloatLayout) (x : Float) : String :=
  let b := Binary.ofFloat x
  let text := if b.significand = 0 then ['0', '.', '0']
    else
      let (n, place) := b.shortest
      (Decimal.ofScaled n place).chars l
  String.ofList (if x.toBits.toNat ≥ 1 <<< 63 then '-' :: text else text)

end Sm83Codegen.Text
