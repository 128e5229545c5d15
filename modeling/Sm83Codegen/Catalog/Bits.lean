import Sm83Codegen.Catalog.Arithmetic

/-!
# Rotates, shifts and single bits

The families that move the bits of a byte, those that test, clear and set one bit, and those that
change flags alone.

* the fragments;
* the fixtures;
* `bitFamilies` -- the families in order.
-/

namespace Sm83Codegen.Catalog

/-! ## 1. Fragments: flags and the accumulator -/

/-- Nothing beside the program counter and the fixed flags. -/
def nothing : Fragment := .program .joined .done

def complementAccumulator : Fragment :=
  single (setByte accumulatorTerm (.complement (.register accumulatorTerm)))

def complementCarry : Fragment := single (.assign (.deref (.flag .C)) (.complement (borrowed .C)))

/-- Adds to the result. -/
def addToResult (n : Nat) : Statement := .update .add (.named .result) (hexWord n)

/-- The correction after a subtraction. -/
def correctDifference : Program :=
  .choose (borrowed .H)
    (.step (.assign (.named .result)
      (.binary .and (.wrappingSub (.get .result) (hexWord 0x06)) (hexWord 0xFF))) .done)
    .done <|
  .choose (borrowed .C)
    (.step (.assign (.named .result) (.wrappingSub (.get .result) (hexWord 0x60))) .done)
    .done .done

/-- The correction after an addition. -/
def correctSum : Program :=
  .choose
    (.binary .either (borrowed .H)
      (.binary .greater (.group (.binary .and (.get .result) (hexWord 0x0F))) (hexWord 0x09)))
    (.step (addToResult 0x06) .done)
    .done <|
  .choose (.binary .either (borrowed .C) (.binary .greater (.get .result) (hexWord 0x9F)))
    (.step (addToResult 0x60) .done)
    .done .done

/-- Corrects the accumulator to packed decimal after an addition or a subtraction. -/
def decimalAdjust : Fragment :=
  framed <| .step (.bindMutable .result (wide (.register accumulatorTerm))) <|
    .blank <|
    .choose (.get (.flag .N)) correctDifference correctSum <|
    .blank <|
    .step (.assign (.deref (.flag .C))
      (.binary .either (borrowed .C)
        (.binary .different
          (.group (.binary .and (.get .result) (.number .u16 0x100 (.hex 3))))
          (decimal .u16 0)))) <|
    .step (setByte accumulatorTerm resultByte) .done

/-! ## 2. Fragments: rotates and shifts -/

/-- Sets carry from a bit of the value. -/
def carryFrom (mask : Nat) : Statement :=
  .assign (.deref (.flag .C))
    (.binary .different (.group (.binary .and (.get .value) (hexByte mask))) (decimal .u8 0))

/-- The value moved up by a bit, in brackets. -/
def shiftedUp : Expr := .group (.binary .shiftLeft (.get .value) (decimal .u8 1))

/-- The value moved down by a bit, in brackets. -/
def shiftedDown : Expr := .group (.binary .shiftRight (.get .value) (decimal .u8 1))

/-- The carry flag as the lowest bit. -/
def carryLow : Expr := .cast (borrowed .C) .u8

/-- The carry flag as the highest bit. -/
def carryHigh : Expr := .binary .shiftLeft (.group carryLow) (decimal .u8 7)

/-- Rotates the accumulator without the carry flag. -/
def rotateAccumulator (mask : Nat) (rotated : Expr) : Fragment :=
  framed <| .step (.bind .value (.register accumulatorTerm)) <|
    .blank <|
    .step (carryFrom mask) <|
    .step (setByte accumulatorTerm rotated) .done

/-- Rotates the accumulator through the carry flag. -/
def rotateAccumulatorCarry (carry : Expr) (mask : Nat) (shifted : Expr) : Fragment :=
  framed <| .step (.bind .value (.register accumulatorTerm)) <|
    .step (.bind .carryIn carry) <|
    .blank <|
    .step (carryFrom mask) <|
    .step (setByte accumulatorTerm (.binary .or shifted (.get .carryIn))) .done

/-- Rotates or shifts a register; the bit that falls out goes to carry. -/
def shiftRegister (combined : Expr) (mask : Nat) : Fragment :=
  .program .ended <| .step (.bind .value (.register dst)) <|
    .step (.bind .result combined) <|
    .blank <|
    .step (carryFrom mask) <|
    .step (setByte dst (.get .result)) .done

/-- Rotates or shifts the byte a register points at. -/
def shiftPointed (combined : Expr) (mask : Nat) : Fragment :=
  .program .ended <| .step (.bind .address (asAddress (.pair dst))) <|
    .step (.bind .value (.byteAt (.get .address))) <|
    .step (.bind .result combined) <|
    .blank <|
    .step (carryFrom mask) <|
    .step (.assign atAddress (.get .result)) .done

def rotatedLeft : Expr := .rotateLeft (.get .value) 1

def rotatedRight : Expr := .rotateRight (.get .value) 1

def rotatedLeftCarry : Expr := .binary .or shiftedUp carryLow

def rotatedRightCarry : Expr := .binary .or shiftedDown (.group carryHigh)

def shiftedLeft : Expr := .binary .shiftLeft (.get .value) (decimal .u8 1)

/-- The highest bit stays. -/
def shiftedRightSigned : Expr :=
  .binary .or shiftedDown (.group (.binary .and (.get .value) (hexByte 0x80)))

def shiftedRight : Expr := .binary .shiftRight (.get .value) (decimal .u8 1)

def swapRegister : Fragment :=
  framed <| .step (.bind .result (.rotateLeft (.register dst) 4)) <|
    .step (setByte dst (.get .result)) .done

def swapPointed : Fragment :=
  framed <| .step (.bind .address (asAddress (.pair dst))) <|
    .step (.bind .result (.rotateLeft (.byteAt (.get .address)) 4)) <|
    .step (.assign atAddress (.get .result)) .done

/-! ## 3. Fragments: single bits -/

/-- One, moved up to the bit the literal names. -/
def bitMask : Expr := .binary .shiftLeft (decimal .u8 1) (.get .literal)

/-- The bits beside the one the literal names. -/
def otherBits : Expr := .complement (.group bitMask)

def testRegister : Fragment :=
  single (.bind .result (.binary .and (.register src) (.group bitMask)))

def testPointed : Fragment := single (.bind .result (.binary .and (pointedBy src) (.group bitMask)))

def setRegister : Fragment := single (.update .or (.register src) bitMask)

def clearRegister : Fragment := single (.update .and (.register src) otherBits)

/-- Updates the byte the second register points at. -/
def updatePointed (op : BinaryOp) (e : Expr) : Fragment :=
  framed <| .step (.bind .address (asAddress (.pair src))) <| .step (.update op atAddress e) .done

/-! ## 4. Fixtures: flags and the accumulator -/

def nothingCases (_ : List Operand) : Fixtures := Fixtures.empty.baseline Scenario.blank

/-- The accumulator before and after. -/
def accumulatorCase (before after : UInt8) : Scenario :=
  (Scenario.blank.setReg8 "A" before).expectReg8 "A" after

/-- The accumulator before and after, with carry set afterwards. -/
def accumulatorCarry (before after : UInt8) : Scenario :=
  (accumulatorCase before after).expectFlag .C true

/-- The accumulator before and after, with carry set before and not afterwards. -/
def accumulatorCarryIn (before after : UInt8) : Scenario :=
  (((accumulatorCase before after).labelled "carry set").setFlag .C true).expectFlag .C false

def rotateLeftCases (_ : List Operand) : Fixtures :=
  (Fixtures.empty.baseline (accumulatorCase 0x78 0xF0)).flag .C (accumulatorCarry 0xF0 0xE1)

def rotateRightCases (_ : List Operand) : Fixtures :=
  (Fixtures.empty.baseline (accumulatorCase 0x1E 0x0F)).flag .C (accumulatorCarry 0x0F 0x87)

def rotateLeftCarryCases (_ : List Operand) : Fixtures :=
  ((Fixtures.empty.baseline (accumulatorCase 0x78 0xF0)).baseline
    (accumulatorCarryIn 0x78 0xF1)).flag .C (accumulatorCarry 0xF0 0xE0)

def rotateRightCarryCases (_ : List Operand) : Fixtures :=
  ((Fixtures.empty.baseline (accumulatorCase 0x1E 0x0F)).baseline
    (accumulatorCarryIn 0x1E 0x8F)).flag .C (accumulatorCarry 0x0F 0x07)

def decimalAdjustCases (_ : List Operand) : Fixtures :=
  (((Fixtures.empty.baseline (accumulatorCase 0x1B 0x21)).baseline
    ((((accumulatorCase 0x0F 0x09).labelled "after subtraction").setFlag .N true).setFlag
      .H true)).flag
    .Z (((accumulatorCase 0x9A 0x00).expectFlag .Z true).expectFlag .C true)).flag
    .C (accumulatorCarry 0xB1 0x11)

def complementAccumulatorCases (_ : List Operand) : Fixtures :=
  Fixtures.empty.baseline (accumulatorCase 0xF0 0x0F)

def complementCarryCases (_ : List Operand) : Fixtures :=
  (Fixtures.empty.baseline ((Scenario.blank.setFlag .C false).expectFlag .C true)).flag
    .C (((Scenario.blank.labelled "carry set").setFlag .C true).expectFlag .C false)

/-! ## 5. Fixtures: rotates and shifts -/

/-- The operand becomes zero and stays so. -/
def zeroCase (os : List Operand) : Scenario := (operandCase os 0x00 0x00).expectFlag .Z true

/-- The operand before and after, with carry set afterwards. -/
def carryCase (os : List Operand) (before after : UInt8) : Scenario :=
  (operandCase os before after).expectFlag .C true

/-- The operand becomes zero by losing its last bit to carry. -/
def lastBitCase (os : List Operand) (before : UInt8) : Scenario :=
  ((operandCase os before 0x00).expectFlag .Z true).expectFlag .C true

/-- The operand before and after, with carry set before and not afterwards. -/
def carryInCase (os : List Operand) (before after : UInt8) : Scenario :=
  (((operandCase os before after).labelled "carry set").setFlag .C true).expectFlag .C false

def rlcCases (os : List Operand) : Fixtures :=
  ((Fixtures.empty.baseline (operandCase os 0x78 0xF0)).flag .Z (zeroCase os)).flag
    .C (carryCase os 0xF0 0xE1)

def rrcCases (os : List Operand) : Fixtures :=
  ((Fixtures.empty.baseline (operandCase os 0x1E 0x0F)).flag .Z (zeroCase os)).flag
    .C (carryCase os 0x0F 0x87)

def rlCases (os : List Operand) : Fixtures :=
  (((Fixtures.empty.baseline (operandCase os 0x78 0xF0)).baseline (carryInCase os 0x78 0xF1)).flag
    .Z (lastBitCase os 0x80)).flag .C (carryCase os 0xF0 0xE0)

def rrCases (os : List Operand) : Fixtures :=
  (((Fixtures.empty.baseline (operandCase os 0x1E 0x0F)).baseline (carryInCase os 0x1E 0x8F)).flag
    .Z (lastBitCase os 0x01)).flag .C (carryCase os 0x0F 0x07)

def slaCases (os : List Operand) : Fixtures :=
  ((Fixtures.empty.baseline (operandCase os 0x21 0x42)).flag .Z (lastBitCase os 0x80)).flag
    .C (carryCase os 0xF0 0xE0)

def sraCases (os : List Operand) : Fixtures :=
  ((Fixtures.empty.baseline (operandCase os 0x8A 0xC5)).flag .Z (lastBitCase os 0x01)).flag
    .C (carryCase os 0x0F 0x07)

def srlCases (os : List Operand) : Fixtures :=
  ((Fixtures.empty.baseline (operandCase os 0xF0 0x78)).flag .Z (lastBitCase os 0x01)).flag
    .C (carryCase os 0x0F 0x07)

def swapCases (os : List Operand) : Fixtures :=
  (Fixtures.empty.baseline (operandCase os 0xF0 0x0F)).flag .Z (zeroCase os)

/-! ## 6. Fixtures: single bits -/

/-- The fixtures of a bit and a target, if the first operand is a bit index. -/
def withBit (os : List Operand) (cases : UInt8 → String → Fixtures) : Fixtures :=
  match literalAt os 0 with
  | some bit =>
    if bit < 8 then cases bit (nth os 1)
    else Fixtures.invalid ("'" ++ nth os 0 ++ "' is not a bit index")
  | none => Fixtures.invalid ("'" ++ nth os 0 ++ "' is not a bit index")

def testCases (os : List Operand) : Fixtures :=
  withBit os fun bit target =>
    let mask := (1 : UInt8) <<< bit
    (Fixtures.empty.baseline ((Scenario.blank.setOperand8 target mask).expectFlag .Z false)).flag
      .Z ((Scenario.blank.setOperand8 target (~~~mask)).expectFlag .Z true)

def setCases (os : List Operand) : Fixtures :=
  withBit os fun bit target =>
    Fixtures.empty.baseline
      ((Scenario.blank.setOperand8 target 0x00).expectOperand8 target ((1 : UInt8) <<< bit))

def clearCases (os : List Operand) : Fixtures :=
  withBit os fun bit target =>
    Fixtures.empty.baseline
      ((Scenario.blank.setOperand8 target 0xFF).expectOperand8 target (~~~((1 : UInt8) <<< bit)))

/-! ## 7. Families -/

/-- The register opcodes of a row of the second page. -/
def registerRow (base : UInt8) : List UInt8 := registerSlots.map (base + ·)

/-- The register opcodes of eight rows, one for each bit. -/
def bitRows (base : UInt8) : List UInt8 :=
  [0, 8, 16, 24, 32, 40, 48, 56].flatMap (fun row => registerRow (base + row))

/-- The `(HL)` opcodes of eight rows, one for each bit. -/
def bitSlots (base : UInt8) : List UInt8 :=
  [0, 8, 16, 24, 32, 40, 48, 56].map (fun row => base + row + 6)

/-- A family of the second page. -/
def secondPageFamily (name : String) (opcodes : List UInt8) (fragment : Fragment)
    (fixtures : List Operand → Fixtures) : Family :=
  (family name opcodes fragment fixtures).onSecondPage

/-- The families of rotates, shifts and single bits. -/
def bitFamilies : List Family :=
  [family "NOP" [0x00] nothing nothingCases,
   ((family "RLCA" [0x07] (rotateAccumulator 0x80 rotatedLeft)
     rotateLeftCases).usesRegisters).manages [.C],
   ((family "RRCA" [0x0F] (rotateAccumulator 0x01 rotatedRight)
     rotateRightCases).usesRegisters).manages [.C],
   ((family "RLA" [0x17] (rotateAccumulatorCarry carryLow 0x80 shiftedUp)
     rotateLeftCarryCases).usesRegisters).manages [.C],
   ((family "RRA" [0x1F] (rotateAccumulatorCarry carryHigh 0x01 shiftedDown)
     rotateRightCarryCases).usesRegisters).manages [.C],
   (((family "DAA" [0x27] decimalAdjust decimalAdjustCases).usesRegisters).readsFlags [.N]).manages
     [.C],
   (family "CPL" [0x2F] complementAccumulator complementAccumulatorCases).usesRegisters,
   family "SCF" [0x37] nothing nothingCases,
   (family "CCF" [0x3F] complementCarry complementCarryCases).manages [.C],
   (secondPageFamily "RLC r" (registerRow 0x00) (shiftRegister rotatedLeft 0x80)
     rlcCases).manages [.C],
   (secondPageFamily "RLC (HL)" [0x06] (shiftPointed rotatedLeft 0x80) rlcCases).manages [.C],
   (secondPageFamily "RRC r" (registerRow 0x08) (shiftRegister rotatedRight 0x01)
     rrcCases).manages [.C],
   (secondPageFamily "RRC (HL)" [0x0E] (shiftPointed rotatedRight 0x01) rrcCases).manages [.C],
   (secondPageFamily "RL r" (registerRow 0x10) (shiftRegister rotatedLeftCarry 0x80)
     rlCases).manages [.C],
   (secondPageFamily "RL (HL)" [0x16] (shiftPointed rotatedLeftCarry 0x80) rlCases).manages [.C],
   (secondPageFamily "RR r" (registerRow 0x18) (shiftRegister rotatedRightCarry 0x01)
     rrCases).manages [.C],
   (secondPageFamily "RR (HL)" [0x1E] (shiftPointed rotatedRightCarry 0x01) rrCases).manages [.C],
   (secondPageFamily "SLA r" (registerRow 0x20) (shiftRegister shiftedLeft 0x80)
     slaCases).manages [.C],
   (secondPageFamily "SLA (HL)" [0x26] (shiftPointed shiftedLeft 0x80) slaCases).manages [.C],
   (secondPageFamily "SRA r" (registerRow 0x28) (shiftRegister shiftedRightSigned 0x01)
     sraCases).manages [.C],
   (secondPageFamily "SRA (HL)" [0x2E] (shiftPointed shiftedRightSigned 0x01) sraCases).manages
     [.C],
   secondPageFamily "SWAP r" (registerRow 0x30) swapRegister swapCases,
   secondPageFamily "SWAP (HL)" [0x36] swapPointed swapCases,
   (secondPageFamily "SRL r" (registerRow 0x38) (shiftRegister shiftedRight 0x01)
     srlCases).manages [.C],
   (secondPageFamily "SRL (HL)" [0x3E] (shiftPointed shiftedRight 0x01) srlCases).manages [.C],
   secondPageFamily "BIT n, r" (bitRows 0x40) testRegister testCases,
   secondPageFamily "BIT n, (HL)" (bitSlots 0x40) testPointed testCases,
   secondPageFamily "RES n, r" (bitRows 0x80) clearRegister clearCases,
   (secondPageFamily "RES n, (HL)" (bitSlots 0x80) (updatePointed .and otherBits)
     clearCases).writesMemory,
   secondPageFamily "SET n, r" (bitRows 0xC0) setRegister setCases,
   (secondPageFamily "SET n, (HL)" (bitSlots 0xC0) (updatePointed .or bitMask)
     setCases).writesMemory]

end Sm83Codegen.Catalog
