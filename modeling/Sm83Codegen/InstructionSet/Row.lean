import Sm83Codegen.Record

/-!
# The instruction set: rows

How a row of the instruction set is written down.
-/

namespace Sm83Codegen.InstructionSet

/-- A direct operand. -/
def direct (name : String) : OperandEntry := ⟨name, true, false, false⟩

/-- An operand used as an address. -/
def address (name : String) : OperandEntry := ⟨name, false, false, false⟩

/-- An address that steps upwards after the access. -/
def addressUp (name : String) : OperandEntry := ⟨name, false, true, false⟩

/-- An address that steps downwards after the access. -/
def addressDown (name : String) : OperandEntry := ⟨name, false, false, true⟩

/-- The entry of an opcode under its key. -/
def row (opcode : UInt8) (mnemonic : String) (bytes : UInt8) (cycles : List UInt8)
    (operands : List OperandEntry) (flags : FlagStates) : String × Entry :=
  (Text.hex8 opcode, ⟨mnemonic, bytes, cycles, operands, flags⟩)

end Sm83Codegen.InstructionSet
