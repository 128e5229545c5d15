import Sm83Codegen.Descriptor

/-!
# The calling convention

What a decode branch passes to a routine and what the routine takes, as data.

* `Parameter` -- a parameter of a routine: its binding and its type;
* `Argument` -- an argument of a call;
* `PatternItem` -- a byte of an instruction: a fixed one, or one that is bound for the arguments;
* `Descriptor.parameters`, `Descriptor.arguments`, `Member.pattern` -- the three lists of a family
  and a member, in the same order: the program counter, the register file, memory, the operands,
  the flags.
-/

namespace Sm83Codegen

/-! ## 1. Parameters -/

/-- The type of a parameter. -/
inductive ParameterType where
  | pcBorrow
  | registersBorrow
  | memoryView (mutable : Bool)
  | reg8
  | reg16
  | byte
  | word
  | truth
  | flagBorrow
  deriving DecidableEq, Repr

/-- A parameter of a routine. -/
structure Parameter where
  binding : Binding
  type : ParameterType
  deriving DecidableEq, Repr

/-- The written form of a type. -/
def ParameterType.text : ParameterType → String
  | pcBorrow => "&mut u16"
  | registersBorrow => "&mut Registers"
  | memoryView true => "&mut [u8]"
  | memoryView false => "&[u8]"
  | reg8 => "Reg8"
  | reg16 => "Reg16"
  | byte => "u8"
  | word => "u16"
  | truth => "bool"
  | flagBorrow => "&mut bool"

/-- The written form of a parameter. -/
def Parameter.text (p : Parameter) : String := p.binding.text ++ ": " ++ p.type.text

/-- The binding of a register operand, by its position. -/
def registerBinding (position : Nat) : Binding :=
  if position = 0 then .dstRegister else .srcRegister

/-- The parameters of an operand. A condition has two: the flag's value, and the value for which
    the branch is taken. -/
def operandParameters (position : Nat) : OperandKind → List Parameter
  | .reg8 => [⟨registerBinding position, .reg8⟩]
  | .reg16 | .regSP => [⟨registerBinding position, .reg16⟩]
  | .imm8 => [⟨.immediate, .byte⟩]
  | .imm16 => [⟨.immediate, .word⟩]
  | .literal => [⟨.literal, .byte⟩]
  | .condition => [⟨.conditionFlag, .truth⟩, ⟨.flagCondition, .truth⟩]

/-- The parameters of operands from a position on. -/
def operandParametersFrom : Nat → List OperandShape → List Parameter
  | _, [] => []
  | position, s :: rest =>
    operandParameters position s.kind ++ operandParametersFrom (position + 1) rest

/-- The parameter of memory, if there is one. -/
def memoryParameters : MemoryAccess → List Parameter
  | .none => []
  | .read => [⟨.memory, .memoryView false⟩]
  | .write => [⟨.memory, .memoryView true⟩]

/-- The parameter of a flag. -/
def flagParameter : Descriptor.FlagUse → Parameter
  | .borrowed f => ⟨.flag f, .flagBorrow⟩
  | .byValue f => ⟨.flag f, .truth⟩

namespace Descriptor

/-- The parameters of the operands. -/
def operandParameters (d : Descriptor) : List Parameter := operandParametersFrom 0 d.shapes

/-- The parameters of the routine. -/
def parameters (d : Descriptor) : List Parameter :=
  ⟨.pc, .pcBorrow⟩ ::
    ((if d.usesRegisters then [⟨.registers, .registersBorrow⟩] else []) ++
      memoryParameters d.memoryAccess ++ d.operandParameters ++ d.flagUses.map flagParameter)

end Descriptor

/-! ## 2. Arguments -/

/-- An argument of a call. -/
inductive Argument where
  | pcBorrow
  | registersBorrow
  | memoryView (mutable : Bool)
  | reg8 (name : String)
  | reg16 (name : String)
  | immediateByte
  | immediateWord
  /-- A byte, written in decimal or in hexadecimal. -/
  | literal (value : UInt8) (inDecimal : Bool)
  | flagValue (f : Flag)
  | truth (b : Bool)
  | flagBorrow (f : Flag)
  deriving DecidableEq, Repr

/-- The written form of an argument. -/
def Argument.text : Argument → String
  | pcBorrow => "&mut self.pc"
  | registersBorrow => "&mut self.registers"
  | memoryView true => "&mut self.internal_ram"
  | memoryView false => "&self.internal_ram"
  | reg8 name => "Reg8::" ++ name
  | reg16 name => "Reg16::" ++ name
  | immediateByte => "*immediate"
  | immediateWord => "u16::from_le_bytes([*immediate_low, *immediate_high])"
  | literal value true => toString value.toNat
  | literal value false => Text.hex8 value
  | flagValue f => "self." ++ f.field
  | truth b => Text.truthText b
  | flagBorrow f => "&mut self." ++ f.field

/-- The arguments of an operand. A literal of decimal digits is written in decimal. -/
def operandArguments (o : Operand) : List Argument :=
  match o.kind with
  | .reg8 => [.reg8 o.name]
  | .reg16 | .regSP => [.reg16 o.name]
  | .imm8 => [.immediateByte]
  | .imm16 => [.immediateWord]
  | .literal => [.literal (o.literal?.getD 0) (o.name.toList.all Text.isDecimalDigit)]
  | .condition =>
    match o.condition? with
    | some (f, v) => [.flagValue f, .truth v]
    | none => []

/-- The argument of memory, if there is one. -/
def memoryArguments : MemoryAccess → List Argument
  | .none => []
  | .read => [.memoryView false]
  | .write => [.memoryView true]

/-- The argument of a flag. -/
def flagArgument : Descriptor.FlagUse → Argument
  | .borrowed f => .flagBorrow f
  | .byValue f => .flagValue f

/-- The arguments of the call for a member. -/
def Descriptor.arguments (d : Descriptor) (m : Member) : List Argument :=
  .pcBorrow ::
    ((if d.usesRegisters then [.registersBorrow] else []) ++ memoryArguments d.memoryAccess ++
      m.operands.flatMap operandArguments ++ d.flagUses.map flagArgument)

/-! ## 3. Patterns -/

/-- A byte of an instruction. -/
inductive PatternItem where
  | byte (b : UInt8)
  | immediate
  | immediateLow
  | immediateHigh
  deriving DecidableEq, Repr

/-- The written form of a pattern's byte. -/
def PatternItem.text : PatternItem → String
  | byte b => Text.hex8 b
  | immediate => "immediate @ _"
  | immediateLow => "immediate_low @ _"
  | immediateHigh => "immediate_high @ _"

/-- The bytes of an operand. -/
def operandPattern (o : Operand) : List PatternItem :=
  match o.kind with
  | .imm8 => [.immediate]
  | .imm16 => [.immediateLow, .immediateHigh]
  | _ => []

/-- The pattern that selects a member and binds the bytes after its opcode. -/
def Member.pattern (m : Member) : List PatternItem :=
  m.key.bytes.map .byte ++ m.operands.flatMap operandPattern

/-- The written form of a pattern. -/
def patternText (ps : List PatternItem) : String :=
  "[" ++ Text.commaSeparated (ps.map PatternItem.text) ++ "]"

end Sm83Codegen
