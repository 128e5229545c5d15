/-!
# Numbers in hexadecimal and decimal

How bytes and addresses are written, and how a byte is read.

* `hex8`, `hex16` -- `0x` and two or four capital digits;
* `hexByte` -- the two capital digits alone, `hexByteLower` the two small ones;
* `byteOfHex?`, `byteOfDecimal?` -- digits read as a byte, with nothing for a number above 255.
-/

namespace Sm83Codegen.Text

/-! ## 1. Writing -/

/-- The digit for a number below sixteen, in capitals. -/
def hexDigit (n : Nat) : Char :=
  if n < 10 then Char.ofNat (48 + n) else Char.ofNat (55 + n)

/-- The digit for a number below sixteen, in small letters. -/
def hexDigitLower (n : Nat) : Char :=
  if n < 10 then Char.ofNat (48 + n) else Char.ofNat (87 + n)

/-- A byte as two capital digits. -/
def hexByte (b : UInt8) : String :=
  String.ofList [hexDigit (b.toNat / 16), hexDigit (b.toNat % 16)]

/-- A byte as two small digits. -/
def hexByteLower (b : UInt8) : String :=
  String.ofList [hexDigitLower (b.toNat / 16), hexDigitLower (b.toNat % 16)]

/-- A byte as `0x` and two digits. -/
def hex8 (b : UInt8) : String := "0x" ++ hexByte b

/-- An address or word as `0x` and four digits. -/
def hex16 (w : UInt16) : String :=
  "0x" ++ hexByte (UInt8.ofNat (w.toNat / 256)) ++ hexByte (UInt8.ofNat (w.toNat % 256))

/-! ## 2. Reading -/

/-- The value of a hexadecimal digit, in either case. -/
def hexValue? (c : Char) : Option Nat :=
  let n := c.toNat
  if 48 ≤ n && n ≤ 57 then some (n - 48)
  else if 65 ≤ n && n ≤ 70 then some (n - 55)
  else if 97 ≤ n && n ≤ 102 then some (n - 87)
  else none

/-- The ASCII hexadecimal digits, in either case. -/
def isHexDigit (c : Char) : Bool := (hexValue? c).isSome

/-- The ASCII decimal digits. -/
def isDecimalDigit (c : Char) : Bool := 48 ≤ c.toNat && c.toNat ≤ 57

/-- The number a run of hexadecimal digits writes, after the digits already read. -/
def hexNumber? : Nat → List Char → Option Nat
  | n, [] => some n
  | n, c :: cs =>
    match hexValue? c with
    | some v => hexNumber? (16 * n + v) cs
    | none => none

/-- The number a run of decimal digits writes, after the digits already read. -/
def decimalNumber (n : Nat) (cs : List Char) : Nat :=
  cs.foldl (fun m c => 10 * m + (c.toNat - 48)) n

/-- A number as a byte, if it is one. -/
def byteOfNat? (n : Nat) : Option UInt8 :=
  if n < 256 then some (UInt8.ofNat n) else none

/-- One or more hexadecimal digits, after at most one plus sign, as a byte. -/
def byteOfHex? (cs : List Char) : Option UInt8 :=
  let digits := match cs with
    | '+' :: rest => rest
    | _ => cs
  if digits.isEmpty then none else (hexNumber? 0 digits).bind byteOfNat?

/-- One or more decimal digits as a byte. -/
def byteOfDecimal? (cs : List Char) : Option UInt8 :=
  if !cs.isEmpty && cs.all isDecimalDigit then byteOfNat? (decimalNumber 0 cs) else none

end Sm83Codegen.Text
