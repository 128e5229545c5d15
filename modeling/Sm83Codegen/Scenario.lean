import Sm83Codegen.Operand

/-!
# Test scenarios

A scenario is one test of an instruction: the state before it and what is expected after it. The
fixtures of an opcode are its scenarios, each for the baseline or for one flag.

* `Preset`, `Expectation`, `Scenario` -- a scenario and the steps that build one;
* `ScenarioKind` -- what a scenario is for;
* `Fixtures` -- scenarios in the order they were added, and their view by kind.
-/

namespace Sm83Codegen

/-! ## 1. States before and after -/

/-- A part of the state before the instruction. -/
inductive Preset where
  | reg8 (register : String) (value : UInt8)
  | reg16 (register : String) (value : UInt16)
  | flag (f : Flag) (value : Bool)
  | memory (address : UInt16) (value : UInt8)
  deriving DecidableEq, Repr

/-- A part of the state after the instruction. -/
inductive Expectation where
  | reg8 (register : String) (value : UInt8)
  | reg16 (register : String) (value : UInt16)
  | pc (value : UInt16)
  | flag (f : Flag) (value : Bool)
  | memory (address : UInt16) (values : List UInt8)
  deriving DecidableEq, Repr

/-! ## 2. Scenarios -/

/-- A test: a label, the bytes after the opcode, the state before and after, and whether the test
    is left out. -/
structure Scenario where
  label : Option String := none
  extraBytes : List UInt8 := []
  presets : List Preset := []
  expectations : List Expectation := []
  skip : Bool := false
  deriving DecidableEq, Repr

/-- The address that operands such as `(HL)` point at in scenarios. -/
def operandAddress : UInt16 := 0x0CAF

namespace Scenario

/-- The scenario without anything in it. -/
def blank : Scenario := {}

/-- The scenario under a label. -/
def labelled (s : Scenario) (label : String) : Scenario := { s with label := some label }

/-- The scenario with these bytes after the opcode. -/
def bytes (s : Scenario) (bytes : List UInt8) : Scenario := { s with extraBytes := bytes }

/-- The scenario with one more preset. -/
def set (s : Scenario) (p : Preset) : Scenario := { s with presets := s.presets ++ [p] }

/-- The scenario with one more expectation. -/
def expect (s : Scenario) (e : Expectation) : Scenario :=
  { s with expectations := s.expectations ++ [e] }

def setReg8 (s : Scenario) (r : String) (v : UInt8) : Scenario := s.set (.reg8 r v)

def setReg16 (s : Scenario) (r : String) (v : UInt16) : Scenario := s.set (.reg16 r v)

def setFlag (s : Scenario) (f : Flag) (v : Bool) : Scenario := s.set (.flag f v)

def setMem (s : Scenario) (a : UInt16) (v : UInt8) : Scenario := s.set (.memory a v)

def expectReg8 (s : Scenario) (r : String) (v : UInt8) : Scenario := s.expect (.reg8 r v)

def expectReg16 (s : Scenario) (r : String) (v : UInt16) : Scenario := s.expect (.reg16 r v)

def expectPc (s : Scenario) (v : UInt16) : Scenario := s.expect (.pc v)

def expectFlag (s : Scenario) (f : Flag) (v : Bool) : Scenario := s.expect (.flag f v)

def expectMem (s : Scenario) (a : UInt16) (vs : List UInt8) : Scenario := s.expect (.memory a vs)

/-- Presets an 8-bit operand: a register, or the byte a 16-bit register points at. -/
def setOperand8 (s : Scenario) (operand : String) (v : UInt8) : Scenario :=
  if isReg16Name operand then (s.setMem operandAddress v).setReg16 operand operandAddress
  else s.setReg8 operand v

/-- Expects an 8-bit operand: a register, or the byte a 16-bit register points at. -/
def expectOperand8 (s : Scenario) (operand : String) (v : UInt8) : Scenario :=
  if isReg16Name operand then s.expectMem operandAddress [v] else s.expectReg8 operand v

/-- Leaves the scenario out if asked to; once left out it stays so. -/
def skipIf (s : Scenario) (skip : Bool) : Scenario := { s with skip := s.skip || skip }

/-- Whether the scenario says where the program counter ends. -/
def assertsPc (s : Scenario) : Bool :=
  s.expectations.any (fun e => match e with
    | .pc _ => true
    | _ => false)

end Scenario

/-! ## 3. Kinds -/

/-- What a scenario is for: the instruction as such, or one flag. -/
inductive ScenarioKind where
  | baseline
  | flagCase (f : Flag)
  deriving DecidableEq, Repr

namespace ScenarioKind

/-- The kinds in order. -/
def all : List ScenarioKind := baseline :: Flag.all.map flagCase

/-- The identifier fragment of a kind. -/
def slug : ScenarioKind → String
  | baseline => "base"
  | flagCase f => "flag_" ++ String.singleton f.smallLetter

/-- The name of a kind in reports. -/
def display : ScenarioKind → String
  | baseline => "baseline"
  | flagCase f => f.name ++ " flag"

theorem mem_all (k : ScenarioKind) : k ∈ all := by
  cases k with
  | baseline => simp [all]
  | flagCase f => simp [all, Flag.mem_all]

end ScenarioKind

/-! ## 4. Fixtures -/

/-- The scenarios of one opcode, as added; or why there are none. -/
structure Fixtures where
  cases : List (ScenarioKind × Scenario) := []
  error : Option String := none
  deriving DecidableEq, Repr

namespace Fixtures

/-- No scenarios yet. -/
def empty : Fixtures := {}

/-- The operands make no scenarios, for the stated reason. -/
def invalid (reason : String) : Fixtures := { error := some reason }

/-- One more scenario of a kind. -/
def add (fx : Fixtures) (k : ScenarioKind) (s : Scenario) : Fixtures :=
  { fx with cases := fx.cases ++ [(k, s)] }

/-- One more baseline scenario. -/
def baseline (fx : Fixtures) (s : Scenario) : Fixtures := fx.add .baseline s

/-- One more scenario for a flag. -/
def flag (fx : Fixtures) (f : Flag) (s : Scenario) : Fixtures := fx.add (.flagCase f) s

/-- The scenarios of a kind, in the order they were added. -/
def get (fx : Fixtures) (k : ScenarioKind) : List Scenario :=
  (fx.cases.filter (fun c => c.1 == k)).map (·.2)

/-- Whether there is a scenario of a kind. -/
def contains (fx : Fixtures) (k : ScenarioKind) : Bool := !(fx.get k).isEmpty

/-- All scenarios, the baseline first and then the flags in order. -/
def ordered (fx : Fixtures) : List (ScenarioKind × Scenario) :=
  ScenarioKind.all.flatMap (fun k => (fx.get k).map (fun s => (k, s)))

end Fixtures

/-! ## 5. Halves of a pair -/

/-- The byte that a register holds once `value` is loaded into `pair`, if it is one of its
    halves. The name of a pair is two bytes long. -/
def pairByte? (pair register : String) (value : UInt16) : Option UInt8 :=
  match pair.toList, register.toList with
  | [h, l], [r] =>
    if pair.utf8ByteSize != 2 then none
    else if r == h then some (UInt8.ofNat (value.toNat / 256))
    else if r == l then some (UInt8.ofNat (value.toNat % 256))
    else none
  | _, _ => none

end Sm83Codegen
