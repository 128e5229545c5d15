import Sm83Codegen.Catalog.Bits

/-!
# Jumps, calls and returns

The families that change the program counter. It already points past the instruction when their
fragments run.

* the fragments;
* the fixtures, which preset the tested flag of a conditional instruction both ways;
* `controlFamilies` -- the families in order.
-/

namespace Sm83Codegen.Catalog

/-! ## 1. Fragments -/

/-- Assigns the program counter. -/
def setPc (e : Expr) : Statement := .assign (.deref .pc) e

def jump : Fragment := single (setPc (.get .immediate))

def jumpRegister : Fragment := single (setPc (.pair dst))

def jumpRelative : Fragment :=
  single (setPc (.wrappingAdd (.through .pc) (signedWord (.get .immediate))))

/-- Pushes the program counter and goes on elsewhere. -/
def callTo (target : Expr) : Fragment :=
  framed <| growStack <| .blank <|
    .step (.bindBytes (some .low) (some .high) (.through .pc)) <|
    storeTop .low .high <| .blank <|
    .step (setPc target) .done

def call : Fragment := callTo (.get .immediate)

def restart : Fragment := callTo (wide (.get .literal))

def ret : Fragment :=
  framed <| bindTop <|
    .step (.bind .low topLow) <|
    .step (.bind .high topHigh) <|
    .blank <|
    .step shrinkStack <|
    .step (setPc (.ofBytes (.get .low) (.get .high))) .done

/-! ## 2. Fixtures -/

/-- Baseline cases: in each of `taken` the tested flag takes the branch, in each of `untaken` it
    does not. -/
def conditionalCases (os : List Operand) (taken untaken : List Scenario) : Fixtures :=
  match conditionAt os 0 with
  | none => Fixtures.invalid ("'" ++ nth os 0 ++ "' is not a branch condition")
  | some (f, v) =>
    (taken.map (fun s => s.setFlag f v) ++ untaken.map (fun s => s.setFlag f (!v))).foldl
      Fixtures.baseline Fixtures.empty

def jumpCases (_ : List Operand) : Fixtures :=
  Fixtures.empty.baseline ((Scenario.blank.bytes [0xEF, 0xBE]).expectPc 0xBEEF)

def jumpIfCases (os : List Operand) : Fixtures :=
  conditionalCases os
    [((Scenario.blank.labelled "taken").bytes [0xEF, 0xBE]).expectPc 0xBEEF]
    [((Scenario.blank.labelled "not taken").bytes [0xEF, 0xBE]).expectPc 0x0024]

def jumpRegisterCases (os : List Operand) : Fixtures :=
  Fixtures.empty.baseline ((Scenario.blank.setReg16 (nth os 0) 0xCAFE).expectPc 0xCAFE)

/-- A jump by a signed byte, counted from the address after the instruction. -/
def relativeCase (label : String) (byte : UInt8) (pc : UInt16) : Scenario :=
  ((Scenario.blank.labelled label).bytes [byte]).expectPc pc

def jumpRelativeCases (_ : List Operand) : Fixtures :=
  (Fixtures.empty.baseline (relativeCase "forward" 0x10 0x0033)).baseline
    (relativeCase "backward" 0xF0 0x0013)

def jumpRelativeIfCases (os : List Operand) : Fixtures :=
  conditionalCases os
    [relativeCase "taken forward" 0x10 0x0033, relativeCase "taken backward" 0xF0 0x0013]
    [relativeCase "not taken" 0x10 0x0023]

/-- A call that pushes the address after the instruction. -/
def calling (s : Scenario) : Scenario :=
  ((((s.bytes [0x21, 0x30]).setReg16 "SP" 0xCAFE).expectReg16 "SP" 0xCAFC).expectPc
    0x3021).expectMem 0xCAFC [0x24, 0x00]

def callCases (_ : List Operand) : Fixtures := Fixtures.empty.baseline (calling Scenario.blank)

def callIfCases (os : List Operand) : Fixtures :=
  conditionalCases os
    [calling (Scenario.blank.labelled "taken")]
    [((((Scenario.blank.labelled "not taken").bytes [0x21, 0x30]).setReg16 "SP" 0xCAFE).expectReg16
      "SP" 0xCAFE).expectPc 0x0024]

/-- A stack with a word on top. -/
def stacked (s : Scenario) (low high : UInt8) : Scenario :=
  ((s.setMem 0xCAFC low).setMem 0xCAFD high).setReg16 "SP" 0xCAFC

def retCases (_ : List Operand) : Fixtures :=
  Fixtures.empty.baseline
    (((stacked Scenario.blank 0x24 0x00).expectReg16 "SP" 0xCAFE).expectPc 0x0024)

def retIfCases (os : List Operand) : Fixtures :=
  conditionalCases os
    [((stacked (Scenario.blank.labelled "taken") 0x30 0x21).expectReg16 "SP"
      0xCAFE).expectPc 0x2130]
    [((stacked (Scenario.blank.labelled "not taken") 0x30 0x21).expectReg16 "SP" 0xCAFC).expectPc
      0x0022]

def restartCases (os : List Operand) : Fixtures :=
  match literalAt os 0 with
  | none => Fixtures.invalid ("restart vector '" ++ nth os 0 ++ "' is not a literal")
  | some vector =>
    Fixtures.empty.baseline
      ((((Scenario.blank.setReg16 "SP" 0xCAFE).expectReg16 "SP" 0xCAFC).expectPc
        vector.toUInt16).expectMem 0xCAFC [0x22, 0x00])

/-! ## 3. Families -/

/-- The families of jumps, calls and returns. -/
def controlFamilies : List Family :=
  [family "JP nn" [0xC3] jump jumpCases,
   (family "JP cc, nn" [0xC2, 0xCA, 0xD2, 0xDA] jump jumpIfCases).whenTaken,
   family "JP HL" [0xE9] jumpRegister jumpRegisterCases,
   family "JR e8" [0x18] jumpRelative jumpRelativeCases,
   (family "JR cc, e8" [0x20, 0x28, 0x30, 0x38] jumpRelative jumpRelativeIfCases).whenTaken,
   ((family "CALL nn" [0xCD] call callCases).usesRegisters).writesMemory,
   (((family "CALL cc, nn" [0xC4, 0xCC, 0xD4, 0xDC] call
     callIfCases).whenTaken).usesRegisters).writesMemory,
   ((family "RET" [0xC9] ret retCases).usesRegisters).readsMemory,
   (((family "RET cc" [0xC0, 0xC8, 0xD0, 0xD8] ret
     retIfCases).whenTaken).usesRegisters).readsMemory,
   ((family "RST n" [0xC7, 0xCF, 0xD7, 0xDF, 0xE7, 0xEF, 0xF7, 0xFF] restart
     restartCases).usesRegisters).writesMemory]

end Sm83Codegen.Catalog
