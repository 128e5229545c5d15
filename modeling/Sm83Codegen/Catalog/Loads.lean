import Sm83Codegen.Catalog.Terms

/-!
# Loads, pushes and pops

The families that move bytes and words between registers, memory and the stack.

* the fragments, one a family;
* the fixtures, one a family;
* `loadFamilies` -- the families in order.
-/

namespace Sm83Codegen.Catalog

/-! ## 1. Fragments: bytes -/

/-- One statement on a line of its own. -/
def single (s : Statement) : Fragment := .program .joined (.step s .done)

/-- Lines between empty ones. -/
def framed (p : Program) : Fragment := .program .framed p

/-- Assigns an 8-bit register. -/
def setByte (r : RegisterTerm) (e : Expr) : Statement := .assign (.register r) e

def loadImmediate : Fragment := single (setByte dst (.get .immediate))

def loadRegister : Fragment := single (setByte dst (.register src))

def loadPointed : Fragment := single (setByte dst (pointedBy src))

def storePointed : Fragment := single (.assign (atPair dst) (.register src))

def storeImmediate : Fragment := single (.assign (atPair dst) (.get .immediate))

def loadAbsolute : Fragment := single (setByte dst (.byteAt (asAddress (.get .immediate))))

def storeAbsolute : Fragment :=
  single (.assign (.byteAt (asAddress (.get .immediate))) (.register src))

/-- Binds the address in the last page that an offset names. -/
def bindHighAddress (offset : Expr) : Statement :=
  .bind .address (.binary .add (.number .usize 0xFF00 (.hex 4)) (asAddress offset))

/-- The byte at the bound address. -/
def atAddress : Place := .byteAt (.get .address)

def loadHighImmediate : Fragment :=
  framed <| .step (bindHighAddress (.get .immediate)) <|
    .step (setByte dst (.byteAt (.get .address))) .done

def storeHighImmediate : Fragment :=
  framed <| .step (bindHighAddress (.get .immediate)) <|
    .step (.assign atAddress (.register src)) .done

def loadHighRegister : Fragment :=
  framed <| .step (bindHighAddress (.register src)) <|
    .step (setByte dst (.byteAt (.get .address))) .done

def storeHighRegister : Fragment :=
  framed <| .step (bindHighAddress (.register dst)) <|
    .step (.assign atAddress (.register src)) .done

/-! ## 2. Fragments: bytes with a stepped address -/

/-- The bound address as an address of memory. -/
def boundAddress : Expr := asAddress (.get .address)

/-- The address after an access that steps upwards. -/
def addressUp : Expr := .wrappingAdd (.get .address) (decimal .u16 1)

/-- The address after an access that steps downwards. -/
def addressDown : Expr := .wrappingSub (.get .address) (decimal .u16 1)

/-- Stores a byte where the first register points, and steps the register. -/
def storeStepping (next : Expr) : Fragment :=
  framed <| .step (.bind .address (.pair dst)) <|
    .step (.assign (.byteAt boundAddress) (.register src)) <|
    .step (.setPair dst next) .done

/-- Loads a byte from where the second register points, and steps the register. -/
def loadStepping (next : Expr) : Fragment :=
  framed <| .step (.bind .address (.pair src)) <|
    .step (setByte dst (.byteAt boundAddress)) <|
    .step (.setPair src next) .done

/-! ## 3. Fragments: words -/

def loadWord : Fragment := single (.setPair dst (.get .immediate))

def loadStackPointer : Fragment := single (.setPair dst (.pair src))

/-- The byte after an address. -/
def byteAfter (e : Expr) : Expr := asAddress (.wrappingAdd e (decimal .u16 1))

def storeWord : Fragment :=
  framed <| .step (.bindBytes (some .low) (some .high) (.pair src)) <|
    .step (.assign (.byteAt (asAddress (.get .immediate))) (.get .low)) <|
    .step (.assign (.byteAt (byteAfter (.get .immediate))) (.get .high)) .done

/-- Adds the signed immediate to the first register; the sum goes to `target`. -/
def addSigned (target : RegisterTerm) : Fragment :=
  framed <| .step (.bind .operand1 (.pair dst)) <|
    .step (.bind .operand2 (signedWord (.get .immediate))) <|
    .step (.bind .result (.wrappingAdd (.get .operand1) (.get .operand2))) <|
    .blank <|
    .step (.setPair target (.get .result)) .done

/-! ## 4. Fragments: the stack -/

/-- Moves the stack pointer down by a word, keeping its new value. -/
def growStack (rest : Program) : Program :=
  .step (.bind .newSp (.wrappingSub (.pair stackPointer) (decimal .u16 2))) <|
    .step (.setPair stackPointer (.get .newSp)) rest

/-- Stores two bytes at the new top of the stack. -/
def storeTop (first second : Binding) (rest : Program) : Program :=
  .step (.assign (.byteAt (asAddress (.get .newSp))) (.get first)) <|
    .step (.assign (.byteAt (byteAfter (.get .newSp))) (.get second)) rest

/-- The address of the word on top of the stack. -/
def bindTop (rest : Program) : Program := .step (.bind .sp (.pair stackPointer)) rest

/-- Moves the stack pointer up by a word. -/
def shrinkStack : Statement :=
  .setPair stackPointer (.wrappingAdd (.get .sp) (decimal .u16 2))

/-- The low byte of the word on top of the stack. -/
def topLow : Expr := .byteAt (asAddress (.get .sp))

/-- The high byte of the word on top of the stack. -/
def topHigh : Expr := .byteAt (byteAfter (.get .sp))

def push : Fragment :=
  framed <| growStack <| .blank <|
    .step (.bindBytes (some .low) (some .high) (.pair dst)) <|
    storeTop .low .high .done

def pop : Fragment :=
  framed <| bindTop <|
    .step (.bind .low topLow) <|
    .step (.bind .high topHigh) <|
    .blank <|
    .step (.setPair dst (.ofBytes (.get .low) (.get .high))) <|
    .step shrinkStack .done

/-- A flag as a bit of register F. -/
def flagBit (f : Flag) (bit : Nat) : Expr :=
  .binary .shiftLeft (.group (.cast (.get (.flag f)) .u8)) (decimal .u8 bit)

/-- Register F as the flags hold it. -/
def packedFlags : Expr :=
  .binary .or (.binary .or (.binary .or (flagBit .Z 7) (flagBit .N 6)) (flagBit .H 5))
    (flagBit .C 4)

/-- F lives in the flags, so it is put together from them and not read from the pair. -/
def pushAccumulator : Fragment :=
  framed <| growStack <| .blank <|
    .step (.bindBytes none (some .accumulator) (.pair dst)) <|
    .step (.bind .flags packedFlags) <|
    storeTop .flags .accumulator .done

/-- Sets a flag from its bit of register F. -/
def unpackFlag (f : Flag) (mask : Nat) : Statement :=
  .assign (.deref (.flag f))
    (.binary .different (.binary .and (.get .flags) (hexByte mask)) (decimal .u8 0))

/-- The low half of F always reads as zero. -/
def popAccumulator : Fragment :=
  framed <| bindTop <|
    .step (.bind .flags (.binary .and topLow (hexByte 0xF0))) <|
    .step (.bind .accumulator topHigh) <|
    .blank <|
    .step (.setPair dst (.ofBytes (.get .flags) (.get .accumulator))) <|
    .step shrinkStack <|
    .blank <|
    .step (unpackFlag .Z 0x80) <|
    .step (unpackFlag .N 0x40) <|
    .step (unpackFlag .H 0x20) <|
    .step (unpackFlag .C 0x10) .done

/-! ## 5. Fixtures: bytes -/

def loadImmediateCases (os : List Operand) : Fixtures :=
  Fixtures.empty.baseline ((Scenario.blank.bytes [0x21]).expectReg8 (nth os 0) 0x21)

def loadRegisterCases (os : List Operand) : Fixtures :=
  Fixtures.empty.baseline ((Scenario.blank.setReg8 (nth os 1) 0x21).expectReg8 (nth os 0) 0x21)

def loadPointedCases (os : List Operand) : Fixtures :=
  Fixtures.empty.baseline
    (((Scenario.blank.setMem 0x0CAF 0x21).setReg16 (nth os 1) 0x0CAF).expectReg8 (nth os 0) 0x21)

/-- Storing half of the address register stores that half of the address. -/
def storePointedCases (os : List Operand) : Fixtures :=
  let pair := nth os 0
  let r := nth os 1
  let stored := (pairByte? pair r 0x0CAF).getD 0x21
  Fixtures.empty.baseline
    (((Scenario.blank.setReg8 r 0x21).setReg16 pair 0x0CAF).expectMem 0x0CAF [stored])

def storeImmediateCases (os : List Operand) : Fixtures :=
  Fixtures.empty.baseline
    (((Scenario.blank.bytes [0x21]).setReg16 (nth os 0) 0x0CAF).expectMem 0x0CAF [0x21])

def loadAbsoluteCases (os : List Operand) : Fixtures :=
  Fixtures.empty.baseline
    (((Scenario.blank.bytes [0xAF, 0x0C]).setMem 0x0CAF 0x21).expectReg8 (nth os 0) 0x21)

def storeAbsoluteCases (os : List Operand) : Fixtures :=
  Fixtures.empty.baseline
    (((Scenario.blank.bytes [0xAF, 0x0C]).setReg8 (nth os 1) 0x21).expectMem 0x0CAF [0x21])

def loadHighImmediateCases (os : List Operand) : Fixtures :=
  Fixtures.empty.baseline
    (((Scenario.blank.bytes [0x13]).setMem 0xFF13 0x21).expectReg8 (nth os 0) 0x21)

def storeHighImmediateCases (os : List Operand) : Fixtures :=
  Fixtures.empty.baseline
    (((Scenario.blank.bytes [0x13]).setReg8 (nth os 1) 0x21).expectMem 0xFF13 [0x21])

def loadHighRegisterCases (os : List Operand) : Fixtures :=
  Fixtures.empty.baseline
    (((Scenario.blank.setReg8 (nth os 1) 0x13).setMem 0xFF13 0x21).expectReg8 (nth os 0) 0x21)

def storeHighRegisterCases (os : List Operand) : Fixtures :=
  Fixtures.empty.baseline
    (((Scenario.blank.setReg8 (nth os 1) 0x21).setReg8 (nth os 0) 0x13).expectMem 0xFF13 [0x21])

/-! ## 6. Fixtures: stepped addresses -/

/-- Stores at `before` and expects the address register to end at `after`. -/
def storeStep (os : List Operand) (s : Scenario) (before after : UInt16) : Scenario :=
  (((s.setReg8 (nth os 1) 0x21).setReg16 (nth os 0) before).expectReg16 (nth os 0) after).expectMem
    before [0x21]

def storeUpCases (os : List Operand) : Fixtures :=
  (Fixtures.empty.baseline (storeStep os Scenario.blank 0x0CAF 0x0CB0)).baseline
    (storeStep os (Scenario.blank.labelled "wraparound") 0xFFFF 0x0000)

def storeDownCases (os : List Operand) : Fixtures :=
  (Fixtures.empty.baseline (storeStep os Scenario.blank 0x0CAF 0x0CAE)).baseline
    (storeStep os (Scenario.blank.labelled "wraparound") 0x0000 0xFFFF)

/-- Loads from the operand address and expects the address register to end at `after`. -/
def loadStep (os : List Operand) (after : UInt16) : Fixtures :=
  Fixtures.empty.baseline
    ((((Scenario.blank.setMem 0x0CAF 0x21).setReg16 (nth os 1) 0x0CAF).expectReg8 (nth os 0)
      0x21).expectReg16 (nth os 1) after)

def loadUpCases (os : List Operand) : Fixtures := loadStep os 0x0CB0

def loadDownCases (os : List Operand) : Fixtures := loadStep os 0x0CAE

/-! ## 7. Fixtures: words -/

def loadWordCases (os : List Operand) : Fixtures :=
  Fixtures.empty.baseline ((Scenario.blank.bytes [0xFE, 0xCA]).expectReg16 (nth os 0) 0xCAFE)

def loadStackPointerCases (os : List Operand) : Fixtures :=
  Fixtures.empty.baseline
    ((Scenario.blank.setReg16 (nth os 1) 0xCAFE).expectReg16 (nth os 0) 0xCAFE)

def storeWordCases (os : List Operand) : Fixtures :=
  Fixtures.empty.baseline
    (((Scenario.blank.bytes [0xFE, 0xCA]).setReg16 (nth os 1) 0xBEEF).expectMem 0xCAFE [0xEF, 0xBE])

/-- Adds the signed byte to the register's value and expects the sum in HL. -/
def signedSum (os : List Operand) (label : String) (byte : UInt8) (before after : UInt16) :
    Scenario :=
  (((Scenario.blank.labelled label).bytes [byte]).setReg16 (nth os 0) before).expectReg16 "HL" after

def addressSumCases (os : List Operand) : Fixtures :=
  (((((Fixtures.empty.baseline (signedSum os "positive immediate" 0x01 0x2100 0x2101)).baseline
    (signedSum os "negative immediate" 0xFF 0x2100 0x20FF)).flag
    .H ((signedSum os "positive immediate" 0x01 0xCAEF 0xCAF0).expectFlag .H true)).flag
    .H ((signedSum os "negative immediate" 0xE1 0xCA0F 0xC9F0).expectFlag .H true)).flag
    .C ((signedSum os "positive immediate" 0x10 0xCAFF 0xCB0F).expectFlag .C true)).flag
    .C ((signedSum os "negative immediate" 0xE0 0xCA2F 0xCA0F).expectFlag .C true)

/-! ## 8. Fixtures: the stack -/

/-- Pushes `0xBEEF` with the stack pointer at `before`. -/
def pushAt (os : List Operand) (s : Scenario) (before after : UInt16) : Scenario :=
  (((s.setReg16 (nth os 0) 0xBEEF).setReg16 "SP" before).expectReg16 "SP" after).expectMem
    after [0xEF, 0xBE]

def pushCases (os : List Operand) : Fixtures :=
  (Fixtures.empty.baseline (pushAt os Scenario.blank 0xCAFE 0xCAFC)).baseline
    (pushAt os (Scenario.blank.labelled "wraparound") 0x0000 0xFFFE)

/-- Pops `0xBEEF` with the stack pointer at `before`. -/
def popAt (os : List Operand) (s : Scenario) (before after : UInt16) : Scenario :=
  ((((s.setMem before 0xEF).setMem (before + 1) 0xBE).setReg16 "SP" before).expectReg16
    (nth os 0) 0xBEEF).expectReg16 "SP" after

def popCases (os : List Operand) : Fixtures :=
  (Fixtures.empty.baseline (popAt os Scenario.blank 0xCAFE 0xCB00)).baseline
    (popAt os (Scenario.blank.labelled "wraparound") 0xFFFE 0x0000)

/-- Pushes the accumulator with two flags set, and expects `packed` as the low byte. -/
def pushFlags (os : List Operand) (s : Scenario) (f g : Flag) (packed : UInt8) : Scenario :=
  (((((s.setReg16 (nth os 0) 0xBE00).setFlag f true).setFlag g true).setReg16 "SP"
    0xCAFE).expectReg16 "SP" 0xCAFC).expectMem 0xCAFC [packed, 0xBE]

def pushAccumulatorCases (os : List Operand) : Fixtures :=
  (Fixtures.empty.baseline (pushFlags os Scenario.blank .Z .C 0x90)).baseline
    (pushFlags os (Scenario.blank.labelled "half carry and subtract") .N .H 0x60)

/-- Pops a word of two bytes. -/
def popped (low high : UInt8) : Scenario :=
  (((Scenario.blank.setMem 0xCAFE low).setMem 0xCAFF high).setReg16 "SP" 0xCAFE).expectReg16 "SP"
    0xCB00

/-- Pops a word in which one flag alone is set. -/
def poppedFlag (os : List Operand) (f : Flag) (bit : UInt8) : Scenario :=
  Flag.all.foldl (fun s other => s.expectFlag other (other == f))
    ((popped bit 0x12).expectReg16 (nth os 0) (0x1200 + bit.toUInt16))

def popAccumulatorCases (os : List Operand) : Fixtures :=
  let all := Flag.all.foldl (fun s f => s.expectFlag f true)
    ((popped 0xFF 0xBE).expectReg16 (nth os 0) 0xBEF0)
  ((((Fixtures.empty.baseline all).flag .Z (poppedFlag os .Z 0x80)).flag
    .N (poppedFlag os .N 0x40)).flag .H (poppedFlag os .H 0x20)).flag .C (poppedFlag os .C 0x10)

/-! ## 9. Families -/

/-- A family of the first page. -/
def family (name : String) (opcodes : List UInt8) (fragment : Fragment)
    (fixtures : List Operand → Fixtures) : Family :=
  { name := name, opcodes := opcodes, fragment := fragment, fixtures := fixtures }

/-- The opcodes of the loads between registers: a row for B, C, D, E, H, L and A each. -/
def registerLoads : List UInt8 :=
  [0x40, 0x41, 0x42, 0x43, 0x44, 0x45, 0x47,
   0x48, 0x49, 0x4A, 0x4B, 0x4C, 0x4D, 0x4F,
   0x50, 0x51, 0x52, 0x53, 0x54, 0x55, 0x57,
   0x58, 0x59, 0x5A, 0x5B, 0x5C, 0x5D, 0x5F,
   0x60, 0x61, 0x62, 0x63, 0x64, 0x65, 0x67,
   0x68, 0x69, 0x6A, 0x6B, 0x6C, 0x6D, 0x6F,
   0x78, 0x79, 0x7A, 0x7B, 0x7C, 0x7D, 0x7F]

/-- The families of loads, pushes and pops. -/
def loadFamilies : List Family :=
  [family "LD r, n" [0x06, 0x0E, 0x16, 0x1E, 0x26, 0x2E, 0x3E] loadImmediate loadImmediateCases,
   family "LD r1, r2" registerLoads loadRegister loadRegisterCases,
   family "LD r1, (rr2)" [0x0A, 0x1A, 0x46, 0x4E, 0x56, 0x5E, 0x66, 0x6E, 0x7E] loadPointed
     loadPointedCases,
   family "LD (rr1), r2" [0x02, 0x12, 0x70, 0x71, 0x72, 0x73, 0x74, 0x75, 0x77] storePointed
     storePointedCases,
   family "LD (HL), n" [0x36] storeImmediate storeImmediateCases,
   family "LD A, (nn)" [0xFA] loadAbsolute loadAbsoluteCases,
   family "LD (nn), A" [0xEA] storeAbsolute storeAbsoluteCases,
   family "LDH A, (n)" [0xF0] loadHighImmediate loadHighImmediateCases,
   family "LDH (n), A" [0xE0] storeHighImmediate storeHighImmediateCases,
   family "LD A, (C)" [0xF2] loadHighRegister loadHighRegisterCases,
   family "LD (C), A" [0xE2] storeHighRegister storeHighRegisterCases,
   family "LDI (HL), A" [0x22] (storeStepping addressUp) storeUpCases,
   family "LDD (HL), A" [0x32] (storeStepping addressDown) storeDownCases,
   family "LDI A, (HL)" [0x2A] (loadStepping addressUp) loadUpCases,
   family "LDD A, (HL)" [0x3A] (loadStepping addressDown) loadDownCases,
   family "LD rr, nn" [0x01, 0x11, 0x21] loadWord loadWordCases,
   family "LD SP, nn" [0x31] loadWord loadWordCases,
   family "LD SP, HL" [0xF9] loadStackPointer loadStackPointerCases,
   family "LD (nn), SP" [0x08] storeWord storeWordCases,
   (((family "LD HL, SP+e8" [0xF8] (addSigned (.word .HL)) addressSumCases).adjusted
     .dropFirst).carry .H .bit4).carry .C .bit8,
   (family "PUSH rr" [0xC5, 0xD5, 0xE5] push pushCases).writesMemory,
   (family "POP rr" [0xC1, 0xD1, 0xE1] pop popCases).readsMemory,
   ((family "PUSH AF" [0xF5] pushAccumulator pushAccumulatorCases).writesMemory).readsFlags
     Flag.all,
   ((family "POP AF" [0xF1] popAccumulator popAccumulatorCases).readsMemory).manages Flag.all]

end Sm83Codegen.Catalog
