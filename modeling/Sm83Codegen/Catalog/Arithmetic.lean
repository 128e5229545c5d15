import Sm83Codegen.Catalog.Loads

/-!
# Arithmetic and logic

The families that compute on the accumulator, on single registers and on pairs.

* the fragments, which bind `operand1`, `operand2` and `result` where a flag is computed from them;
* the fixtures;
* `arithmeticFamilies` -- the families in order.
-/

namespace Sm83Codegen.Catalog

/-! ## 1. Fragments: two operands -/

/-- Where the second operand of an accumulator operation is. -/
def registerSource : Expr := .register src

def pointedSource : Expr := pointedBy src

def immediateSource : Expr := .get .immediate

/-- The first operand, widened. -/
def wideOperand1 : Expr := wide (.get .operand1)

/-- The second operand, widened. -/
def wideOperand2 : Expr := wide (.get .operand2)

/-- The carry flag, widened. -/
def wideCarry : Expr := wide (borrowed .C)

def sum : Expr := .binary .add wideOperand1 wideOperand2

def sumWithCarry : Expr := .binary .add sum wideCarry

def difference : Expr := .wrappingSub (.group wideOperand1) wideOperand2

def differenceWithCarry : Expr := .wrappingSub difference wideCarry

/-- Binds both operands and the result. -/
def bindOperands (source combined : Expr) (rest : Program) : Program :=
  .step (.bind .operand1 (.register dst)) <|
    .step (.bind .operand2 source) <|
    .step (.bind .result combined) rest

/-- Writes the result back to the first operand. -/
def arithmetic (source combined : Expr) : Fragment :=
  .program .ended <| bindOperands source combined <| .blank <|
    .step (setByte dst resultByte) .done

/-- Only works out the difference. -/
def compare (source : Expr) : Fragment := .program .ended <| bindOperands source difference .done

/-- Combines two operands bit by bit. -/
def logic (op : BinaryOp) (source : Expr) : Fragment :=
  .program .ended <| .step (.bind .result (.binary op (.register dst) source)) <|
    .step (setByte dst (.get .result)) .done

/-! ## 2. Fragments: the accumulator with itself -/

/-- A register combined with itself yields zero; every flag is fixed. -/
def subtractItself : Fragment :=
  framed <| .step (.bind .value (.wrappingSub (.register dst) (.register src))) <|
    .step (setByte dst (.get .value)) .done

def clearItself : Fragment :=
  framed <| .step (.bind .value (.binary .xor (.register dst) (.register src))) <|
    .step (setByte dst (.get .value)) .done

/-- Only the borrow is left: the accumulator becomes `0x00` or `0xFF`, and carry stays. -/
def borrowItself : Fragment :=
  framed <| bindOperands registerSource (.wrappingSub difference (wide (.get (.flag .C)))) <|
    .blank <| .step (setByte dst resultByte) .done

/-- The accumulator equals itself, so it is only read. -/
def compareItself : Fragment := single (.drop (.wrappingSub (.register dst) (.register src)))

/-! ## 3. Fragments: one operand -/

/-- One, as a byte. -/
def one : Expr := .number .u8 1 .typed

/-- Steps a register by one. -/
def stepRegister (combined : Expr) : Fragment :=
  framed <| bindOperands one combined <| .blank <| .step (setByte dst resultByte) .done

/-- Steps the byte a register points at by one. -/
def stepPointed (combined : Expr) : Fragment :=
  framed <| .step (.bind .address (asAddress (.pair dst))) <|
    .step (.bind .operand1 (.byteAt (.get .address))) <|
    .step (.bind .operand2 one) <|
    .step (.bind .result combined) <|
    .blank <|
    .step (.assign atAddress resultByte) .done

/-- Steps a 16-bit register by one. -/
def stepPair (combined : Expr) : Fragment :=
  framed <| .step (.bind .value combined) <| .step (.setPair dst (.get .value)) .done

def pairUp : Expr := .wrappingAdd (.pair dst) (decimal .u16 1)

def pairDown : Expr := .wrappingSub (.pair dst) (decimal .u16 1)

/-- Adds two 16-bit registers. -/
def addPairs : Fragment :=
  framed <| .step (.bind .operand1 (.pair dst)) <|
    .step (.bind .operand2 (.pair src)) <|
    .step (.bind .result (.binary .add (wider (.get .operand1)) (wider (.get .operand2)))) <|
    .blank <|
    .step (.setPair dst (.cast (.get .result) .u16)) .done

/-! ## 4. Fixtures: operand sources -/

/-- Where the second operand of an accumulator operation comes from. -/
inductive Source where
  | register (name : String)
  | memory (pair : String)
  | immediate
  deriving DecidableEq, Repr

namespace Source

/-- The source an operand's name stands for. -/
def ofName (name : String) : Source :=
  if name == "n8" || name == "d8" then immediate
  else if isReg16Name name then memory name
  else register name

/-- Whether the source is a register of a name. -/
def isRegister (s : Source) (name : String) : Bool :=
  match s with
  | register r => r == name
  | _ => false

/-- A scenario with a value in the source. -/
def load (s : Source) (t : Scenario) (v : UInt8) : Scenario :=
  match s with
  | register r => t.setReg8 r v
  | memory pair => t.setOperand8 pair v
  | immediate => t.bytes [v]

end Source

/-- The source of the second operand. -/
def sourceOf (os : List Operand) : Source := .ofName (nth os 1)

/-- Whether the source is the first operand itself. -/
def sameOperand (os : List Operand) : Bool := (sourceOf os).isRegister (nth os 0)

/-- Both operands set; if they are one, the second value stays. -/
def binaryCase (os : List Operand) (lhs rhs : UInt8) : Scenario :=
  (sourceOf os).load (Scenario.blank.setReg8 (nth os 0) lhs) rhs

/-- Expects the first operand's value. -/
def gives (os : List Operand) (s : Scenario) (v : UInt8) : Scenario := s.expectReg8 (nth os 0) v

/-- Expects the first operand's value, and a flag set. -/
def givesWith (os : List Operand) (s : Scenario) (v : UInt8) (f : Flag) : Scenario :=
  (gives os s v).expectFlag f true

/-! ## 5. Fixtures: two operands -/

/-- The cases of an addition for Z, H and C. -/
def additionFlags (os : List Operand) (fx : Fixtures) : Fixtures :=
  ((fx.flag .Z (givesWith os (binaryCase os 0x00 0x00) 0x00 .Z)).flag
    .H (givesWith os (binaryCase os 0x18 0x18) 0x30 .H)).flag
    .C (givesWith os (binaryCase os 0x90 0x90) 0x20 .C)

/-- The plain case of an addition. -/
def additionBase (os : List Operand) : Scenario :=
  if sameOperand os then gives os (binaryCase os 0x21 0x21) 0x42
  else gives os (binaryCase os 0x21 0x30) 0x51

def addCases (os : List Operand) : Fixtures :=
  additionFlags os (Fixtures.empty.baseline (additionBase os))

def addWithCarryCases (os : List Operand) : Fixtures :=
  let carryIn := ((gives os (((binaryCase os 0xFF 0xFF).labelled "carry set").setFlag .C true)
    0xFF).expectFlag .H true).expectFlag .C true
  additionFlags os ((Fixtures.empty.baseline (additionBase os)).baseline carryIn)

/-- The cases of a subtraction for Z, H and C, with the values it leaves. -/
def subtractionFlags (os : List Operand) (fx : Fixtures) (z h c : UInt8) : Fixtures :=
  ((fx.flag .Z (givesWith os (binaryCase os 0x21 0x21) z .Z)).flag
    .H (givesWith os (binaryCase os 0x10 0x01) h .H)).flag
    .C (givesWith os (binaryCase os 0x20 0x30) c .C)

def subtractCases (os : List Operand) : Fixtures :=
  subtractionFlags os (Fixtures.empty.baseline (gives os (binaryCase os 0x51 0x30) 0x21))
    0x00 0x0F 0xF0

def subtractWithCarryCases (os : List Operand) : Fixtures :=
  let borrowIn := (gives os (((binaryCase os 0x51 0x30).labelled "carry set").setFlag .C true)
    0x20).expectFlag .C false
  subtractionFlags os
    ((Fixtures.empty.baseline (gives os (binaryCase os 0x51 0x30) 0x21)).baseline borrowIn)
    0x00 0x0F 0xF0

/-- A comparison leaves the first operand as it was. -/
def compareCases (os : List Operand) : Fixtures :=
  subtractionFlags os (Fixtures.empty.baseline (gives os (binaryCase os 0x51 0x30) 0x51))
    0x21 0x10 0x20

def andCases (os : List Operand) : Fixtures :=
  if sameOperand os then
    (Fixtures.empty.baseline (gives os (binaryCase os 0x21 0x21) 0x21)).flag
      .Z (givesWith os (binaryCase os 0x00 0x00) 0x00 .Z)
  else
    (Fixtures.empty.baseline (gives os (binaryCase os 0xF0 0x3C) 0x30)).flag
      .Z (givesWith os (binaryCase os 0xF0 0x0F) 0x00 .Z)

def orCases (os : List Operand) : Fixtures :=
  let base := if sameOperand os then gives os (binaryCase os 0x21 0x21) 0x21
    else gives os (binaryCase os 0x21 0x30) 0x31
  (Fixtures.empty.baseline base).flag .Z (givesWith os (binaryCase os 0x00 0x00) 0x00 .Z)

def xorCases (os : List Operand) : Fixtures :=
  (Fixtures.empty.baseline (gives os (binaryCase os 0x21 0x30) 0x11)).flag
    .Z (givesWith os (binaryCase os 0x21 0x21) 0x00 .Z)

/-! ## 6. Fixtures: the accumulator with itself -/

def selfCancelCases (os : List Operand) : Fixtures :=
  Fixtures.empty.baseline (gives os (Scenario.blank.setReg8 (nth os 0) 0x21) 0x00)

def borrowItselfCases (os : List Operand) : Fixtures :=
  let withCarry (carry : Bool) : Scenario :=
    (Scenario.blank.setReg8 (nth os 0) 0x5A).setFlag .C carry
  ((Fixtures.empty.baseline
    (((gives os (withCarry true) 0xFF).expectFlag .Z false).expectFlag .C true)).flag
    .Z ((((gives os (withCarry false) 0x00).expectFlag .Z true).expectFlag .H false).expectFlag
      .C false)).flag
    .H (givesWith os (withCarry true) 0xFF .H)

def compareItselfCases (os : List Operand) : Fixtures :=
  Fixtures.empty.baseline (gives os (Scenario.blank.setReg8 (nth os 0) 0x5A) 0x5A)

/-! ## 7. Fixtures: one operand -/

/-- An 8-bit operand before and after. -/
def operandCase (os : List Operand) (before after : UInt8) : Scenario :=
  (Scenario.blank.setOperand8 (nth os 0) before).expectOperand8 (nth os 0) after

def incrementCases (os : List Operand) : Fixtures :=
  ((Fixtures.empty.baseline (operandCase os 0x21 0x22)).flag
    .Z (((operandCase os 0xFF 0x00).expectFlag .Z true).expectFlag .H true)).flag
    .H ((operandCase os 0x1F 0x20).expectFlag .H true)

def decrementCases (os : List Operand) : Fixtures :=
  ((Fixtures.empty.baseline (operandCase os 0x22 0x21)).flag
    .Z ((operandCase os 0x01 0x00).expectFlag .Z true)).flag
    .H ((operandCase os 0x20 0x1F).expectFlag .H true)

/-- A 16-bit register before and after. -/
def pairCase (s : Scenario) (r : String) (before after : UInt16) : Scenario :=
  (s.setReg16 r before).expectReg16 r after

def incrementPairCases (os : List Operand) : Fixtures :=
  (Fixtures.empty.baseline (pairCase Scenario.blank (nth os 0) 0xCAFE 0xCAFF)).baseline
    (pairCase (Scenario.blank.labelled "wraparound") (nth os 0) 0xFFFF 0x0000)

def decrementPairCases (os : List Operand) : Fixtures :=
  (Fixtures.empty.baseline (pairCase Scenario.blank (nth os 0) 0xCAFE 0xCAFD)).baseline
    (pairCase (Scenario.blank.labelled "wraparound") (nth os 0) 0x0000 0xFFFF)

/-- Two 16-bit registers before, and their sum. -/
def pairSum (os : List Operand) (lhs rhs total : UInt16) : Scenario :=
  ((Scenario.blank.setReg16 (nth os 0) lhs).setReg16 (nth os 1) rhs).expectReg16 (nth os 0) total

/-- A register added to itself has cases of its own. -/
def addPairsCases (os : List Operand) : Fixtures :=
  if nth os 0 == nth os 1 then
    ((Fixtures.empty.baseline (pairCase Scenario.blank (nth os 0) 0x1111 0x2222)).flag
      .H ((pairCase Scenario.blank (nth os 0) 0x0800 0x1000).expectFlag .H true)).flag
      .C ((pairCase Scenario.blank (nth os 0) 0x8000 0x0000).expectFlag .C true)
  else
    ((Fixtures.empty.baseline (pairSum os 0x1234 0x0101 0x1335)).flag
      .H ((pairSum os 0x0F00 0x0100 0x1000).expectFlag .H true)).flag
      .C ((pairSum os 0xF000 0x1000 0x0000).expectFlag .C true)

def addSignedCases (os : List Operand) : Fixtures :=
  let sp := nth os 0
  (((Fixtures.empty.baseline
    (pairCase ((Scenario.blank.labelled "positive immediate").bytes [0x01]) sp 0x2100
      0x2101)).baseline
    (pairCase ((Scenario.blank.labelled "negative immediate").bytes [0xFF]) sp 0x2100 0x20FF)).flag
    .H ((pairCase (Scenario.blank.bytes [0x01]) sp 0xCAEF 0xCAF0).expectFlag .H true)).flag
    .C ((pairCase (Scenario.blank.bytes [0x10]) sp 0xCAFF 0xCB0F).expectFlag .C true)

/-! ## 8. Families -/

/-- The places of the registers in a row of eight, without the one of `(HL)`. -/
def registerSlots : List UInt8 := [0, 1, 2, 3, 4, 5, 7]

/-- The register opcodes of a row; the accumulator is left out if it has a family of its own. -/
def registerGroup (base : UInt8) (withAccumulator : Bool) : List UInt8 :=
  (registerSlots.filter (fun slot => withAccumulator || slot != 7)).map (base + ·)

/-- Half carry out of bit 3 and carry out of bit 7. -/
def byteCarries (f : Family) : Family := (f.carry .H .bit4).carry .C .bit8

/-- Half carry out of bit 11 and carry out of bit 15. -/
def wordCarries (f : Family) : Family := (f.carry .H .bit12).carry .C .bit16

/-- The families of arithmetic and logic. -/
def arithmeticFamilies : List Family :=
  [byteCarries (family "ADD A, r" (registerGroup 0x80 true) (arithmetic registerSource sum)
     addCases),
   byteCarries (family "ADD A, (HL)" [0x86] (arithmetic pointedSource sum) addCases),
   byteCarries (family "ADD A, n" [0xC6] (arithmetic immediateSource sum) addCases),
   byteCarries (family "ADC A, r" (registerGroup 0x88 true) (arithmetic registerSource sumWithCarry)
     addWithCarryCases),
   byteCarries (family "ADC A, (HL)" [0x8E] (arithmetic pointedSource sumWithCarry)
     addWithCarryCases),
   byteCarries (family "ADC A, n" [0xCE] (arithmetic immediateSource sumWithCarry)
     addWithCarryCases),
   byteCarries (family "SUB A, r" (registerGroup 0x90 false) (arithmetic registerSource difference)
     subtractCases),
   byteCarries (family "SUB A, (HL)" [0x96] (arithmetic pointedSource difference) subtractCases),
   byteCarries (family "SUB A, n" [0xD6] (arithmetic immediateSource difference) subtractCases),
   family "SUB A, A" [0x97] subtractItself selfCancelCases,
   byteCarries (family "SBC A, r" (registerGroup 0x98 false)
     (arithmetic registerSource differenceWithCarry) subtractWithCarryCases),
   byteCarries (family "SBC A, (HL)" [0x9E] (arithmetic pointedSource differenceWithCarry)
     subtractWithCarryCases),
   byteCarries (family "SBC A, n" [0xDE] (arithmetic immediateSource differenceWithCarry)
     subtractWithCarryCases),
   ((family "SBC A, A" [0x9F] borrowItself borrowItselfCases).readsFlags [.C]).carry .H .bit4,
   family "AND A, r" (registerGroup 0xA0 true) (logic .and registerSource) andCases,
   family "AND A, (HL)" [0xA6] (logic .and pointedSource) andCases,
   family "AND A, n" [0xE6] (logic .and immediateSource) andCases,
   family "XOR A, r" (registerGroup 0xA8 false) (logic .xor registerSource) xorCases,
   family "XOR A, (HL)" [0xAE] (logic .xor pointedSource) xorCases,
   family "XOR A, n" [0xEE] (logic .xor immediateSource) xorCases,
   family "XOR A, A" [0xAF] clearItself selfCancelCases,
   family "OR A, r" (registerGroup 0xB0 true) (logic .or registerSource) orCases,
   family "OR A, (HL)" [0xB6] (logic .or pointedSource) orCases,
   family "OR A, n" [0xF6] (logic .or immediateSource) orCases,
   byteCarries (family "CP A, r" (registerGroup 0xB8 false) (compare registerSource) compareCases),
   byteCarries (family "CP A, (HL)" [0xBE] (compare pointedSource) compareCases),
   byteCarries (family "CP A, n" [0xFE] (compare immediateSource) compareCases),
   family "CP A, A" [0xBF] compareItself compareItselfCases,
   (family "INC r" [0x04, 0x0C, 0x14, 0x1C, 0x24, 0x2C, 0x3C] (stepRegister sum)
     incrementCases).carry .H .bit4,
   (family "INC (HL)" [0x34] (stepPointed sum) incrementCases).carry .H .bit4,
   (family "DEC r" [0x05, 0x0D, 0x15, 0x1D, 0x25, 0x2D, 0x3D] (stepRegister difference)
     decrementCases).carry .H .bit4,
   (family "DEC (HL)" [0x35] (stepPointed difference) decrementCases).carry .H .bit4,
   family "INC rr" [0x03, 0x13, 0x23] (stepPair pairUp) incrementPairCases,
   family "INC SP" [0x33] (stepPair pairUp) incrementPairCases,
   family "DEC rr" [0x0B, 0x1B, 0x2B] (stepPair pairDown) decrementPairCases,
   family "DEC SP" [0x3B] (stepPair pairDown) decrementPairCases,
   wordCarries (family "ADD HL, rr" [0x09, 0x19, 0x29] addPairs addPairsCases),
   wordCarries (family "ADD HL, SP" [0x39] addPairs addPairsCases),
   byteCarries (family "ADD SP, e8" [0xE8] (addSigned dst) addSignedCases)]

end Sm83Codegen.Catalog
