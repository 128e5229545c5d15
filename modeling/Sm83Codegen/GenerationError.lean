import Sm83Codegen.Flag
import Sm83Codegen.OpcodeKey
import Sm83Codegen.Text.Position

/-!
# Why a generation fails

Every fault that ends a generation, with the broad class it belongs to and the text it is
reported with.

* `GenerationError` -- the faults;
* `GenerationError.faultClass` -- data, authoring, flag specification or test fixture;
* `GenerationError.message` -- the report;
* `GenerationError.summary` -- the report without a position.
-/

namespace Sm83Codegen

/-! ## 1. Faults -/

/-- What is wrong with the text of an opcode table: it is no JSON value, or the value has the
    wrong shape, for the stated reason, and reading stopped at the stated position. -/
inductive TableFault where
  | illFormed
  | misshapen (reason : String) (position : Text.Position)
  deriving DecidableEq, Repr

/-- A fault that ends a generation. -/
inductive GenerationError where
  | tableParse (fault : TableFault)
  | invalidOpcodeKey (text : String)
  | invalidFlagState (key : OpcodeKey) (flag : Flag) (state : String)
  | invalidCycles (key : OpcodeKey) (count : Nat)
  | invalidLength (key : OpcodeKey) (length : UInt8)
  | duplicateOpcode (key : OpcodeKey) (first second : String)
  | missingOpcode (family : String) (key : OpcodeKey)
  | duplicateFamily (family : String)
  | emptyFamily (family : String)
  | unsupportedOperand (key : OpcodeKey) (operand : String)
  | unsupportedLayout (family : String) (key : OpcodeKey) (reason : String)
  | divergentFamily (family : String) (opcodes : String)
  | authoringGap (mnemonic : String) (opcodes : String)
  | flagSpecViolation (family : String) (flag : Flag) (reason : String)
  | testFixtureMissing (family : String) (key : OpcodeKey) (reason : String)
  | invalidFixture (family : String) (key : OpcodeKey) (reason : String)
  deriving DecidableEq, Repr

/-! ## 2. Classes -/

/-- The broad class of a fault. -/
inductive FaultClass where
  | dataInconsistency
  | authoringGap
  | flagSpecViolation
  | testFixtureMissing
  deriving DecidableEq, Repr

/-- The name of a class in reports. -/
def FaultClass.name : FaultClass → String
  | dataInconsistency => "data inconsistency"
  | authoringGap => "authoring gap"
  | flagSpecViolation => "flag specification violation"
  | testFixtureMissing => "missing test fixture"

namespace GenerationError

/-- The class of a fault. A fixture that is wrong counts as missing. -/
def faultClass : GenerationError → FaultClass
  | authoringGap .. => .authoringGap
  | flagSpecViolation .. => .flagSpecViolation
  | testFixtureMissing .. => .testFixtureMissing
  | invalidFixture .. => .testFixtureMissing
  | _ => .dataInconsistency

/-! ## 3. Reports -/

/-- The subject of most reports on a family's member. -/
def memberOf (family : String) (key : OpcodeKey) : String :=
  "Family '" ++ family ++ "', opcode " ++ key.display ++ ": "

/-- The report on a table of the wrong shape. -/
def malformed (reason : String) : String := "Malformed opcode table: " ++ reason

/-- The report of a fault. Of a table that is no JSON value only the first words are fixed. -/
def message : GenerationError → String
  | tableParse .illFormed => "Malformed opcode table"
  | tableParse (.misshapen reason position) => malformed (reason ++ " at " ++ position.text)
  | invalidOpcodeKey text => "Invalid opcode key '" ++ text ++ "'"
  | invalidFlagState key flag state =>
    "Opcode " ++ key.display ++ ": invalid " ++ flag.name ++ " flag state '" ++ state ++ "'"
  | invalidCycles key count =>
    "Opcode " ++ key.display ++ ": expected one or two cycle counts, found " ++ toString count
  | invalidLength key length =>
    "Opcode " ++ key.display ++ ": byte length " ++ toString length.toNat ++
      " does not fit its operands"
  | duplicateOpcode key first second =>
    "Opcode " ++ key.display ++ " is claimed by both '" ++ first ++ "' and '" ++ second ++ "'"
  | missingOpcode family key =>
    "Family '" ++ family ++ "' claims opcode " ++ key.display ++
      ", which is not in the opcode table"
  | duplicateFamily family => "Family name '" ++ family ++ "' is used more than once"
  | emptyFamily family => "Family '" ++ family ++ "' claims no opcodes"
  | unsupportedOperand key operand =>
    "Opcode " ++ key.display ++ ": unsupported operand '" ++ operand ++ "'"
  | unsupportedLayout family key reason => memberOf family key ++ reason
  | divergentFamily family opcodes =>
    "Instruction data not unique for family '" ++ family ++ "': " ++ opcodes
  | authoringGap mnemonic opcodes =>
    "No authored semantics for " ++ mnemonic ++ " (" ++ opcodes ++ ")"
  | flagSpecViolation family flag reason =>
    "Family '" ++ family ++ "', " ++ flag.name ++ " flag: " ++ reason
  | testFixtureMissing family key reason => memberOf family key ++ reason
  | invalidFixture family key reason => memberOf family key ++ "invalid fixture: " ++ reason

/-- The report of a fault, without the position in the table's text. -/
def summary : GenerationError → String
  | tableParse (.misshapen reason _) => malformed reason
  | e => e.message

end GenerationError

end Sm83Codegen
