import Sm83Codegen.Proofs.Dispatch

/-!
# Instructions

The instructions of the SM83 as the bits of their opcodes name them. An opcode is read as two bits,
three bits and three bits; each part chooses an operation, a register, a pair or a condition by its
number.

* `Instruction` -- an instruction with its operands, its immediate apart;
* `Instruction.ofKey` -- the instruction that the bits of an opcode name; the opcodes that switch
  interrupts or halt, and unused ones, name none;
* `Instruction.operation` -- what the instruction is bound to and which fragment it runs, written
  down from the instruction alone.
-/

namespace Sm83Codegen

/-! ## 1. Parts of an instruction -/

/-- Where a byte operand is held: in a register, or where HL points. -/
inductive Cell where
  | register (r : Reg8)
  | pointed
  deriving DecidableEq, Repr

/-- The cell of a number below eight. -/
def Cell.ofIndex : Nat → Cell
  | 0 => .register .B
  | 1 => .register .C
  | 2 => .register .D
  | 3 => .register .E
  | 4 => .register .H
  | 5 => .register .L
  | 6 => .pointed
  | _ => .register .A

/-- Where the second operand of an accumulator operation is held. -/
inductive AluSource where
  | cell (t : Cell)
  | immediate
  deriving DecidableEq, Repr

/-- An operation on the accumulator and a second operand. -/
inductive AluOp where
  | add
  | adc
  | sub
  | sbc
  | and
  | xor
  | or
  | cp
  deriving DecidableEq, Repr

/-- The operation of a number below eight. -/
def AluOp.ofIndex : Nat → AluOp
  | 0 => .add
  | 1 => .adc
  | 2 => .sub
  | 3 => .sbc
  | 4 => .and
  | 5 => .xor
  | 6 => .or
  | _ => .cp

/-- A rotation, by itself or through the carry flag. -/
inductive Rotation where
  | left
  | right
  | leftCarry
  | rightCarry
  deriving DecidableEq, Repr

/-- The rotation of a number below four. -/
def Rotation.ofIndex : Nat → Rotation
  | 0 => .left
  | 1 => .right
  | 2 => .leftCarry
  | _ => .rightCarry

/-- A rotation or a shift. -/
inductive ShiftOp where
  | rotate (r : Rotation)
  | arithmeticLeft
  | arithmeticRight
  | swap
  | logicalRight
  deriving DecidableEq, Repr

/-- The rotation or shift of a number below eight. -/
def ShiftOp.ofIndex : Nat → ShiftOp
  | 4 => .arithmeticLeft
  | 5 => .arithmeticRight
  | 6 => .swap
  | 7 => .logicalRight
  | y => .rotate (.ofIndex y)

/-- What is done to a single bit. -/
inductive BitOp where
  | test
  | clear
  | set
  deriving DecidableEq, Repr

/-- A flag and the value that a branch asks of it. -/
abbrev Condition := Flag × Bool

/-- The condition of a number below four. -/
def Condition.ofIndex : Nat → Condition
  | 0 => (.Z, false)
  | 1 => (.Z, true)
  | 2 => (.C, false)
  | _ => (.C, true)

/-- The 16-bit register of a number below four. -/
def Reg16.ofIndex : Nat → Reg16
  | 0 => .BC
  | 1 => .DE
  | 2 => .HL
  | _ => .SP

/-! ## 2. Instructions -/

/-- An instruction, without its immediate. -/
inductive Instruction where
  | nop
  | loadImmediate (t : Cell)
  | load (dst src : Reg8)
  | loadFrom (dst : Reg8) (p : Reg16)
  | storeTo (p : Reg16) (src : Reg8)
  | loadAbsolute
  | storeAbsolute
  | loadHighImmediate
  | storeHighImmediate
  | loadHighRegister
  | storeHighRegister
  /-- Stores A where HL points, and steps HL. -/
  | storeStepping (up : Bool)
  /-- Loads A from where HL points, and steps HL. -/
  | loadStepping (up : Bool)
  | loadWord (p : Reg16)
  | loadStackPointer
  | storeStackPointer
  /-- Loads HL with the stack pointer and a signed byte. -/
  | loadSum
  | push (p : Reg16)
  | pop (p : Reg16)
  | pushAccumulator
  | popAccumulator
  | alu (op : AluOp) (s : AluSource)
  | stepByte (up : Bool) (t : Cell)
  | stepPair (up : Bool) (p : Reg16)
  | addPairs (p : Reg16)
  /-- Adds a signed byte to the stack pointer. -/
  | addSigned
  | rotateAccumulator (r : Rotation)
  | decimalAdjust
  | complement
  | setCarry
  | complementCarry
  | shift (op : ShiftOp) (t : Cell)
  | bit (op : BitOp) (n : Fin 8) (t : Cell)
  | jump (c : Option Condition)
  | jumpRegister
  | jumpRelative (c : Option Condition)
  | call (c : Option Condition)
  | ret (c : Option Condition)
  | restart (n : Fin 8)
  deriving DecidableEq, Repr

namespace Instruction

/-! ## 3. Reading opcodes -/

/-- The loads between cells. There is none from memory to memory. -/
def ofCells : Cell → Cell → Option Instruction
  | .register d, .register s => some (.load d s)
  | .register d, .pointed => some (.loadFrom d .HL)
  | .pointed, .register s => some (.storeTo .HL s)
  | .pointed, .pointed => none

/-- The first quarter of the first page. -/
def ofFirstQuarter (y z : Nat) : Option Instruction :=
  match z, y with
  | 0, 0 => some .nop
  | 0, 1 => some .storeStackPointer
  | 0, 2 => none
  | 0, 3 => some (.jumpRelative none)
  | 0, y => some (.jumpRelative (some (.ofIndex (y - 4))))
  | 1, y => some (if y % 2 = 0 then .loadWord (.ofIndex (y / 2)) else .addPairs (.ofIndex (y / 2)))
  | 2, 0 => some (.storeTo .BC .A)
  | 2, 1 => some (.loadFrom .A .BC)
  | 2, 2 => some (.storeTo .DE .A)
  | 2, 3 => some (.loadFrom .A .DE)
  | 2, y => some (if y % 2 = 0 then .storeStepping (y = 4) else .loadStepping (y = 5))
  | 3, y => some (.stepPair (y % 2 = 0) (.ofIndex (y / 2)))
  | 4, y => some (.stepByte true (.ofIndex y))
  | 5, y => some (.stepByte false (.ofIndex y))
  | 6, y => some (.loadImmediate (.ofIndex y))
  | _, 4 => some .decimalAdjust
  | _, 5 => some .complement
  | _, 6 => some .setCarry
  | _, 7 => some .complementCarry
  | _, y => some (.rotateAccumulator (.ofIndex y))

/-- The last quarter of the first page. -/
def ofLastQuarter (y z : Nat) : Option Instruction :=
  match z, y with
  | 0, 4 => some .storeHighImmediate
  | 0, 5 => some .addSigned
  | 0, 6 => some .loadHighImmediate
  | 0, 7 => some .loadSum
  | 0, y => some (.ret (some (.ofIndex y)))
  | 1, 1 => some (.ret none)
  | 1, 3 => none
  | 1, 5 => some .jumpRegister
  | 1, 6 => some .popAccumulator
  | 1, 7 => some .loadStackPointer
  | 1, y => some (.pop (.ofIndex (y / 2)))
  | 2, 4 => some .storeHighRegister
  | 2, 5 => some .storeAbsolute
  | 2, 6 => some .loadHighRegister
  | 2, 7 => some .loadAbsolute
  | 2, y => some (.jump (some (.ofIndex y)))
  | 3, 0 => some (.jump none)
  | 3, _ => none
  | 4, y => if y < 4 then some (.call (some (.ofIndex y))) else none
  | 5, 1 => some (.call none)
  | 5, 6 => some .pushAccumulator
  | 5, y => if y % 2 = 0 then some (.push (.ofIndex (y / 2))) else none
  | 6, y => some (.alu (.ofIndex y) .immediate)
  | _, y => some (.restart (.ofNat 8 y))

/-- The instruction of an opcode on the first page. -/
def ofFirstPage (b : UInt8) : Option Instruction :=
  let y := b.toNat / 8 % 8
  let z := b.toNat % 8
  match b.toNat / 64 with
  | 0 => ofFirstQuarter y z
  | 1 => ofCells (.ofIndex y) (.ofIndex z)
  | 2 => some (.alu (.ofIndex y) (.cell (.ofIndex z)))
  | _ => ofLastQuarter y z

/-- The instruction of an opcode on the second page. -/
def ofSecondPage (b : UInt8) : Instruction :=
  let y := b.toNat / 8 % 8
  let t := Cell.ofIndex (b.toNat % 8)
  match b.toNat / 64 with
  | 0 => .shift (.ofIndex y) t
  | 1 => .bit .test (.ofNat 8 y) t
  | 2 => .bit .clear (.ofNat 8 y) t
  | _ => .bit .set (.ofNat 8 y) t

/-- The instruction that an opcode names. -/
def ofKey (k : OpcodeKey) : Option Instruction :=
  match k.page with
  | none => ofFirstPage k.opcode
  | some _ => some (ofSecondPage k.opcode)

/-! ## 4. Bindings -/

/-- A binding of a call and what is passed for it. -/
abbrev Passed := Binding × Argument

def registers : Passed := (.registers, .registersBorrow)

def memory (mutable : Bool) : Passed := (.memory, .memoryView mutable)

def dst (r : Reg8) : Passed := (.dstRegister, .reg8 r.name)

def src (r : Reg8) : Passed := (.srcRegister, .reg8 r.name)

def dstPair (p : Reg16) : Passed := (.dstRegister, .reg16 p.name)

def srcPair (p : Reg16) : Passed := (.srcRegister, .reg16 p.name)

def byte : Passed := (.immediate, .immediateByte)

def word : Passed := (.immediate, .immediateWord)

def literal (v : UInt8) (inDecimal : Bool) : Passed := (.literal, .literal v inDecimal)

/-- A flag that is lent. -/
def lent (f : Flag) : Passed := (.flag f, .flagBorrow f)

/-- A flag that is passed by value. -/
def given (f : Flag) : Passed := (.flag f, .flagValue f)

/-- All flags lent. -/
def lentFlags : List Passed := Flag.all.map lent

/-- A condition: the value of its flag, and the value it asks for. -/
def condition : Option Condition → List Passed
  | some (f, v) => [(.conditionFlag, .flagValue f), (.flagCondition, .truth v)]
  | none => []

/-! ## 5. Operations -/

/-- An operation without a condition. -/
def plain (length base : UInt8) (passed : List Passed) (fragment : Fragment)
    (updates : List FlagUpdate) : Operation :=
  ⟨(.pc, .pcBorrow) :: passed, false, length, fragment, updates, base, none⟩

/-- An operation that may have a condition, with its cycles if it branches always, if it branches,
    and if it does not. -/
def branching (c : Option Condition) (length always taken untaken : UInt8)
    (before after : List Passed) (fragment : Fragment) : Operation :=
  ⟨(.pc, .pcBorrow) :: (before ++ condition c ++ after), c.isSome, length, fragment, [],
    if c.isSome then taken else always, if c.isSome then some untaken else none⟩

/-- The updates of an addition or a subtraction of bytes. -/
def sumUpdates (subtraction : Bool) : List FlagUpdate :=
  [.zero .Z, .fixed .N subtraction, .carry .H .bit4, .carry .C .bit8]

/-- The updates of a signed byte added to the stack pointer. -/
def signedUpdates : List FlagUpdate :=
  [.fixed .Z false, .fixed .N false, .carry .H .bit4, .carry .C .bit8]

/-- The updates of a rotation or a shift, which sets carry itself. -/
def shiftUpdates : List FlagUpdate := [.zero .Z, .fixed .N false, .fixed .H false]

/-- The fragment of an accumulator operation. -/
def aluFragment (source : Expr) : AluOp → Fragment
  | .add => Catalog.arithmetic source Catalog.sum
  | .adc => Catalog.arithmetic source Catalog.sumWithCarry
  | .sub => Catalog.arithmetic source Catalog.difference
  | .sbc => Catalog.arithmetic source Catalog.differenceWithCarry
  | .and => Catalog.logic .and source
  | .xor => Catalog.logic .xor source
  | .or => Catalog.logic .or source
  | .cp => Catalog.compare source

/-- The updates of an accumulator operation. -/
def aluUpdates : AluOp → List FlagUpdate
  | .add | .adc => sumUpdates false
  | .sub | .sbc | .cp => sumUpdates true
  | .and => [.zero .Z, .fixed .N false, .fixed .H true, .fixed .C false]
  | .xor | .or => [.zero .Z, .fixed .N false, .fixed .H false, .fixed .C false]

/-- The accumulator with a second operand. -/
def aluOperation (op : AluOp) : AluSource → Operation
  | .cell (.register r) =>
    plain 1 4 (registers :: dst .A :: src r :: lentFlags)
      (aluFragment Catalog.registerSource op) (aluUpdates op)
  | .cell .pointed =>
    plain 1 8 (registers :: memory false :: dst .A :: srcPair .HL :: lentFlags)
      (aluFragment Catalog.pointedSource op) (aluUpdates op)
  | .immediate =>
    plain 2 8 (registers :: dst .A :: byte :: lentFlags)
      (aluFragment Catalog.immediateSource op) (aluUpdates op)

/-- The accumulator with itself, where that has a fragment of its own. -/
def aluItself : AluOp → Option Operation
  | .sub => some (plain 1 4 (registers :: dst .A :: src .A :: lentFlags) Catalog.subtractItself
      [.fixed .Z true, .fixed .N true, .fixed .H false, .fixed .C false])
  | .sbc => some (plain 1 4 [registers, dst .A, src .A, lent .Z, lent .N, lent .H, given .C]
      Catalog.borrowItself [.zero .Z, .fixed .N true, .carry .H .bit4])
  | .xor => some (plain 1 4 (registers :: dst .A :: src .A :: lentFlags) Catalog.clearItself
      [.fixed .Z true, .fixed .N false, .fixed .H false, .fixed .C false])
  | .cp => some (plain 1 4 (registers :: dst .A :: src .A :: lentFlags) Catalog.compareItself
      [.fixed .Z true, .fixed .N true, .fixed .H false, .fixed .C false])
  | _ => none

/-- The fragment of an accumulator rotation. -/
def rotateFragment : Rotation → Fragment
  | .left => Catalog.rotateAccumulator 0x80 Catalog.rotatedLeft
  | .right => Catalog.rotateAccumulator 0x01 Catalog.rotatedRight
  | .leftCarry => Catalog.rotateAccumulatorCarry Catalog.carryLow 0x80 Catalog.shiftedUp
  | .rightCarry => Catalog.rotateAccumulatorCarry Catalog.carryHigh 0x01 Catalog.shiftedDown

/-- What a rotation or a shift makes of the value, and the bit that falls out. A swap loses none. -/
def shiftParts : ShiftOp → Option (Expr × Nat)
  | .rotate .left => some (Catalog.rotatedLeft, 0x80)
  | .rotate .right => some (Catalog.rotatedRight, 0x01)
  | .rotate .leftCarry => some (Catalog.rotatedLeftCarry, 0x80)
  | .rotate .rightCarry => some (Catalog.rotatedRightCarry, 0x01)
  | .arithmeticLeft => some (Catalog.shiftedLeft, 0x80)
  | .arithmeticRight => some (Catalog.shiftedRightSigned, 0x01)
  | .swap => none
  | .logicalRight => some (Catalog.shiftedRight, 0x01)

/-- The updates of a rotation, a shift or a swap. -/
def shiftOpUpdates (op : ShiftOp) : List FlagUpdate :=
  if op = .swap then shiftUpdates ++ [.fixed .C false] else shiftUpdates

/-- A rotation, a shift or a swap of a cell. -/
def shiftOperation (op : ShiftOp) : Cell → Operation
  | .register r =>
    plain 2 8 (registers :: dst r :: lentFlags)
      (match shiftParts op with
        | some (e, mask) => Catalog.shiftRegister e mask
        | none => Catalog.swapRegister) (shiftOpUpdates op)
  | .pointed =>
    plain 2 16 (registers :: memory true :: dstPair .HL :: lentFlags)
      (match shiftParts op with
        | some (e, mask) => Catalog.shiftPointed e mask
        | none => Catalog.swapPointed) (shiftOpUpdates op)

/-- A single bit of a cell. -/
def bitOperation (n : Fin 8) : BitOp → Cell → Operation
  | .test, .register r =>
    plain 2 8 [registers, literal (.ofNat n) true, src r, lent .Z, lent .N, lent .H]
      Catalog.testRegister [.zero .Z, .fixed .N false, .fixed .H true]
  | .test, .pointed =>
    plain 2 12
      [registers, memory false, literal (.ofNat n) true, srcPair .HL, lent .Z, lent .N, lent .H]
      Catalog.testPointed [.zero .Z, .fixed .N false, .fixed .H true]
  | .clear, .register r =>
    plain 2 8 [registers, literal (.ofNat n) true, src r] Catalog.clearRegister []
  | .clear, .pointed =>
    plain 2 16 [registers, memory true, literal (.ofNat n) true, srcPair .HL]
      (Catalog.updatePointed .and Catalog.otherBits) []
  | .set, .register r =>
    plain 2 8 [registers, literal (.ofNat n) true, src r] Catalog.setRegister []
  | .set, .pointed =>
    plain 2 16 [registers, memory true, literal (.ofNat n) true, srcPair .HL]
      (Catalog.updatePointed .or Catalog.bitMask) []

/-- **What an instruction does**, as data. -/
def operation : Instruction → Operation
  | nop => plain 1 4 [] Catalog.nothing []
  | loadImmediate (.register r) => plain 2 8 [registers, dst r, byte] Catalog.loadImmediate []
  | loadImmediate .pointed =>
    plain 2 12 [registers, memory true, dstPair .HL, byte] Catalog.storeImmediate []
  | load d s => plain 1 4 [registers, dst d, src s] Catalog.loadRegister []
  | loadFrom d p => plain 1 8 [registers, memory false, dst d, srcPair p] Catalog.loadPointed []
  | storeTo p s => plain 1 8 [registers, memory true, dstPair p, src s] Catalog.storePointed []
  | loadAbsolute => plain 3 16 [registers, memory false, dst .A, word] Catalog.loadAbsolute []
  | storeAbsolute => plain 3 16 [registers, memory true, word, src .A] Catalog.storeAbsolute []
  | loadHighImmediate =>
    plain 2 12 [registers, memory false, dst .A, byte] Catalog.loadHighImmediate []
  | storeHighImmediate =>
    plain 2 12 [registers, memory true, byte, src .A] Catalog.storeHighImmediate []
  | loadHighRegister =>
    plain 1 8 [registers, memory false, dst .A, src .C] Catalog.loadHighRegister []
  | storeHighRegister =>
    plain 1 8 [registers, memory true, dst .C, src .A] Catalog.storeHighRegister []
  | storeStepping up =>
    plain 1 8 [registers, memory true, dstPair .HL, src .A]
      (Catalog.storeStepping (if up then Catalog.addressUp else Catalog.addressDown)) []
  | loadStepping up =>
    plain 1 8 [registers, memory false, dst .A, srcPair .HL]
      (Catalog.loadStepping (if up then Catalog.addressUp else Catalog.addressDown)) []
  | loadWord p => plain 3 12 [registers, dstPair p, word] Catalog.loadWord []
  | loadStackPointer =>
    plain 1 8 [registers, dstPair .SP, srcPair .HL] Catalog.loadStackPointer []
  | storeStackPointer =>
    plain 3 20 [registers, memory true, word, srcPair .SP] Catalog.storeWord []
  | loadSum =>
    plain 2 12 (registers :: dstPair .SP :: byte :: lentFlags) (Catalog.addSigned (.word .HL))
      signedUpdates
  | push p => plain 1 16 [registers, memory true, dstPair p] Catalog.push []
  | pop p => plain 1 12 [registers, memory false, dstPair p] Catalog.pop []
  | pushAccumulator =>
    plain 1 16 (registers :: memory true :: dstPair .AF :: Flag.all.map given)
      Catalog.pushAccumulator []
  | popAccumulator =>
    plain 1 12 (registers :: memory false :: dstPair .AF :: lentFlags) Catalog.popAccumulator []
  | alu op (.cell (.register .A)) =>
    (aluItself op).getD (aluOperation op (.cell (.register .A)))
  | alu op s => aluOperation op s
  | stepByte up (.register r) =>
    plain 1 4 [registers, dst r, lent .Z, lent .N, lent .H]
      (Catalog.stepRegister (if up then Catalog.sum else Catalog.difference))
      [.zero .Z, .fixed .N (!up), .carry .H .bit4]
  | stepByte up .pointed =>
    plain 1 12 [registers, memory true, dstPair .HL, lent .Z, lent .N, lent .H]
      (Catalog.stepPointed (if up then Catalog.sum else Catalog.difference))
      [.zero .Z, .fixed .N (!up), .carry .H .bit4]
  | stepPair up p =>
    plain 1 8 [registers, dstPair p]
      (Catalog.stepPair (if up then Catalog.pairUp else Catalog.pairDown)) []
  | addPairs p =>
    plain 1 8 [registers, dstPair .HL, srcPair p, lent .N, lent .H, lent .C] Catalog.addPairs
      [.fixed .N false, .carry .H .bit12, .carry .C .bit16]
  | addSigned =>
    plain 2 16 (registers :: dstPair .SP :: byte :: lentFlags) (Catalog.addSigned Catalog.dst)
      signedUpdates
  | rotateAccumulator r =>
    plain 1 4 (registers :: lentFlags) (rotateFragment r)
      [.fixed .Z false, .fixed .N false, .fixed .H false]
  | decimalAdjust =>
    plain 1 4 [registers, lent .Z, given .N, lent .H, lent .C] Catalog.decimalAdjust
      [.zero .Z, .fixed .H false]
  | complement =>
    plain 1 4 [registers, lent .N, lent .H] Catalog.complementAccumulator
      [.fixed .N true, .fixed .H true]
  | setCarry =>
    plain 1 4 [lent .N, lent .H, lent .C] Catalog.nothing
      [.fixed .N false, .fixed .H false, .fixed .C true]
  | complementCarry =>
    plain 1 4 [lent .N, lent .H, lent .C] Catalog.complementCarry
      [.fixed .N false, .fixed .H false]
  | shift op t => shiftOperation op t
  | bit op n t => bitOperation n op t
  | jump c => branching c 3 16 16 12 [] [word] Catalog.jump
  | jumpRegister => plain 1 4 [registers, dstPair .HL] Catalog.jumpRegister []
  | jumpRelative c => branching c 2 12 12 8 [] [byte] Catalog.jumpRelative
  | call c => branching c 3 24 24 12 [registers, memory true] [word] Catalog.call
  | ret c => branching c 1 16 20 8 [registers, memory false] [] Catalog.ret
  | restart n =>
    plain 1 16 [registers, memory true, literal (.ofNat (8 * n)) false] Catalog.restart []

/-- Whether an instruction sets the program counter. -/
def jumps : Instruction → Bool
  | jump _ | jumpRegister | jumpRelative _ | call _ | ret _ | restart _ => true
  | _ => false

end Instruction

end Sm83Codegen
