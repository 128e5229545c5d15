import Sm83Codegen.InstructionSet.FirstPage
import Sm83Codegen.InstructionSet.SecondPage
import Sm83Codegen.Table.Print

/-!
# The instruction set of the SM83

The opcode table of the processor, as a document and as text.
-/

namespace Sm83Codegen

/-- The opcode table of the SM83. -/
def instructionSet : TableDocument := ⟨InstructionSet.firstPage, InstructionSet.secondPageRows⟩

/-- The opcode table of the SM83 as text. -/
def instructionSetText : String := instructionSet.text

end Sm83Codegen
