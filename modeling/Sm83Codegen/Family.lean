import Sm83Codegen.Fragment.Print
import Sm83Codegen.Record
import Sm83Codegen.Scenario
import Sm83Codegen.Text.Word

/-!
# Instruction families

A family is a group of opcodes that share one routine: the authored description of what they do.

* `MemoryAccess`, `ImplicitAccess` -- state that a fragment uses without naming it as an operand;
* `OperandAdjustment` -- an adjustment of the table's operands before they are classified;
* `Family` -- the description, and the steps that build one.
-/

namespace Sm83Codegen

/-! ## 1. Access beside the operands -/

/-- How much of memory a routine sees. -/
inductive MemoryAccess where
  | none
  | read
  | write
  deriving DecidableEq, Repr

namespace MemoryAccess

/-- Access as a number, more access being larger. -/
def rank : MemoryAccess → Nat
  | none => 0
  | read => 1
  | write => 2

/-- The larger of two accesses. -/
def join (a b : MemoryAccess) : MemoryAccess := if a.rank < b.rank then b else a

end MemoryAccess

/-- State a fragment uses without it being an operand. -/
structure ImplicitAccess where
  registers : Bool := false
  memory : MemoryAccess := .none
  readsFlags : List Flag := []
  deriving DecidableEq, Repr

/-! ## 2. Adjustments -/

/-- An adjustment of the table's operands. -/
inductive OperandAdjustment where
  | keep
  /-- The first operand is left out: `LD HL, SP+e8` names its fixed destination. -/
  | dropFirst
  /-- A register the table leaves implicit is put first, unless it is there. -/
  | prepend (register : String)
  deriving DecidableEq, Repr

/-- The operands after an adjustment. -/
def OperandAdjustment.apply (operands : List OperandEntry) : OperandAdjustment → List OperandEntry
  | keep => operands
  | dropFirst => operands.drop 1
  | prepend register =>
    match operands with
    | [] => [⟨register, true, false, false⟩]
    | o :: os => if o.name == register then o :: os else ⟨register, true, false, false⟩ :: o :: os

/-! ## 3. Families -/

/-- The authored description of a family. In a conditional family the first operand is a branch
    condition, and the members carry a second cycle count. -/
structure Family where
  name : String
  page : Option UInt8 := none
  opcodes : List UInt8
  fragment : Fragment
  carryWidths : List (Flag × CarryWidth) := []
  selfManaged : List Flag := []
  implicit : ImplicitAccess := {}
  adjustment : OperandAdjustment := .keep
  conditional : Bool := false
  fixtures : List Operand → Fixtures

namespace Family

/-- Members live on the second page. -/
def onSecondPage (f : Family) : Family := { f with page := some secondPage }

/-- A computed flag gets a carry test at a width. -/
def carry (f : Family) (flag : Flag) (width : CarryWidth) : Family :=
  { f with carryWidths := f.carryWidths ++ [(flag, width)] }

/-- The fragment assigns these flags itself. -/
def manages (f : Family) (flags : List Flag) : Family :=
  { f with selfManaged := f.selfManaged ++ flags }

/-- The fragment uses the register file. -/
def usesRegisters (f : Family) : Family :=
  { f with implicit := { f.implicit with registers := true } }

/-- The fragment reads memory. -/
def readsMemory (f : Family) : Family :=
  { f with implicit := { f.implicit with memory := f.implicit.memory.join .read } }

/-- The fragment writes memory. -/
def writesMemory (f : Family) : Family :=
  { f with implicit := { f.implicit with memory := .write } }

/-- The fragment reads these flags. -/
def readsFlags (f : Family) (flags : List Flag) : Family :=
  { f with implicit := { f.implicit with readsFlags := f.implicit.readsFlags ++ flags } }

/-- The table's operands are adjusted. -/
def adjusted (f : Family) (adjustment : OperandAdjustment) : Family :=
  { f with adjustment := adjustment }

/-- The first operand is a branch condition. -/
def whenTaken (f : Family) : Family := { f with conditional := true }

/-- The opcodes the family claims. -/
def keys (f : Family) : List OpcodeKey := f.opcodes.map (fun opcode => ⟨f.page, opcode⟩)

/-- The width of a flag's carry test, the first one declared. -/
def widthFor (f : Family) (flag : Flag) : Option CarryWidth :=
  (f.carryWidths.find? (fun w => w.1 == flag)).map (·.2)

/-- Whether the fragment assigns a flag itself. -/
def isSelfManaged (f : Family) (flag : Flag) : Bool := f.selfManaged.contains flag

/-- The identifier fragment of the family's name. -/
def encodedName (f : Family) : String := Text.encodedName f.name

end Family

end Sm83Codegen
