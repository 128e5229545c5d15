import Sm83Codegen.Proofs.Instruction

/-!
# What instructions do

The meaning of every instruction on a state of the machine, written down without fragments,
bindings or routines. Sums, differences and shifts are those of natural numbers; the flags say what
happened to the numbers.

* `Cpu` helpers -- registers, memory and flags written one at a time;
* `AluOp.result`, `Rotation.apply`, `ShiftOp.apply`, `adjusted` -- what is computed;
* `Instruction.step` -- the state after an instruction; `Instruction.cycles` -- the time it took.
-/

namespace Sm83Codegen

/-! ## 1. Writing parts of the machine -/

/-- Memory with a byte written. -/
def Memory.put (m : Memory) (address : UInt16) (v : UInt8) : Memory :=
  ⟨m.bytes.set address.toNat v address.toNat_lt⟩

namespace Cpu

/-- The content of an 8-bit register. -/
def get8 (s : Cpu) (r : Reg8) : UInt8 := s.registers.get8 r

/-- The content of a 16-bit register. -/
def get16 (s : Cpu) (p : Reg16) : UInt16 := s.registers.get16 p

/-- The byte at an address. -/
def at16 (s : Cpu) (address : UInt16) : UInt8 := s.memory.at16 address

/-- The state with an 8-bit register written. -/
def set8 (s : Cpu) (r : Reg8) (v : UInt8) : Cpu := { s with registers := s.registers.set8 r v }

/-- The state with a 16-bit register written. -/
def set16 (s : Cpu) (p : Reg16) (v : UInt16) : Cpu :=
  { s with registers := s.registers.set16 p v }

/-- The state with a byte of memory written. -/
def put (s : Cpu) (address : UInt16) (v : UInt8) : Cpu :=
  { s with memory := s.memory.put address v }

/-- The state with the program counter moved. -/
def advance (s : Cpu) (length : UInt8) : Cpu := { s with pc := s.pc + length.toUInt16 }

/-- The state that goes on elsewhere. -/
def goto (s : Cpu) (address : UInt16) : Cpu := { s with pc := address }

/-- The state with all flags set. -/
def setFlags (s : Cpu) (z n h c : Bool) : Cpu := { s with zf := z, nf := n, hf := h, cf := c }

/-- The byte in a cell. -/
def cell (s : Cpu) : Cell → UInt8
  | .register r => s.get8 r
  | .pointed => s.at16 (s.get16 .HL)

/-- The state with a cell written. -/
def setCell (s : Cpu) (t : Cell) (v : UInt8) : Cpu :=
  match t with
  | .register r => s.set8 r v
  | .pointed => s.put (s.get16 .HL) v

/-- The state with a word pushed, the low byte at the lower address. -/
def push (s : Cpu) (low high : UInt8) : Cpu :=
  (s.put (s.get16 .SP) low).put (s.get16 .SP + 1) high

/-- The state with room for a word on the stack. -/
def grow (s : Cpu) : Cpu := s.set16 .SP (s.get16 .SP - 2)

/-- The state with a word taken off the stack. -/
def shrink (s : Cpu) : Cpu := s.set16 .SP (s.get16 .SP + 2)

/-- The low byte of the word on top of the stack. -/
def topLow (s : Cpu) : UInt8 := s.at16 (s.get16 .SP)

/-- The high byte of the word on top of the stack. -/
def topHigh (s : Cpu) : UInt8 := s.at16 (s.get16 .SP + 1)

/-- The flags as the high bits of a byte. -/
def packed (s : Cpu) : UInt8 :=
  .ofNat (128 * s.zf.toNat + 64 * s.nf.toNat + 32 * s.hf.toNat + 16 * s.cf.toNat)

/-- The state with the flags that a byte packs. -/
def unpack (s : Cpu) (b : UInt8) : Cpu :=
  s.setFlags (b.toNat.testBit 7) (b.toNat.testBit 6) (b.toNat.testBit 5) (b.toNat.testBit 4)

end Cpu

/-! ## 2. Immediates -/

/-- The byte after an opcode. -/
def byteIn (tail : List UInt8) : UInt8 := tail.headD 0

/-- The word after an opcode, its low byte first. -/
def wordIn : List UInt8 → UInt16
  | [low, high] => wordOf high low
  | _ => 0

/-- A byte as a signed number, modulo the words. -/
def signedWord (b : UInt8) : UInt16 :=
  .ofNat (if b.toNat < 128 then b.toNat else b.toNat + 0xFF00)

/-! ## 3. Computations -/

/-- A byte and the flags Z, N, H and C. -/
structure AluResult where
  value : UInt8
  z : Bool
  n : Bool
  h : Bool
  c : Bool
  deriving DecidableEq, Repr

namespace AluResult

/-- A result with Z set if it is zero. -/
def of (value : UInt8) (n h c : Bool) : AluResult := ⟨value, value == 0, n, h, c⟩

/-- The sum of two bytes and a carry. -/
def sum (a b : UInt8) (carry : Nat) : AluResult :=
  of (.ofNat (a.toNat + b.toNat + carry)) false
    (16 ≤ a.toNat % 16 + b.toNat % 16 + carry) (256 ≤ a.toNat + b.toNat + carry)

/-- The difference of two bytes and a borrow. -/
def difference (a b : UInt8) (borrow : Nat) : AluResult :=
  of (.ofNat (a.toNat + 512 - (b.toNat + borrow))) true
    (a.toNat % 16 < b.toNat % 16 + borrow) (a.toNat < b.toNat + borrow)

end AluResult

/-- The result of an accumulator operation. A comparison is a difference that is not kept. -/
def AluOp.result (a b : UInt8) (carry : Bool) : AluOp → AluResult
  | add => .sum a b 0
  | adc => .sum a b carry.toNat
  | sub => .difference a b 0
  | sbc => .difference a b carry.toNat
  | and => .of (a &&& b) false true false
  | xor => .of (a ^^^ b) false false false
  | or => .of (a ||| b) false false false
  | cp => { AluResult.difference a b 0 with value := a }

/-- A byte rotated, and the bit that falls out. -/
def Rotation.apply (v : UInt8) (carry : Bool) : Rotation → UInt8 × Bool
  | left => (.ofNat (2 * v.toNat + v.toNat / 128), 128 ≤ v.toNat)
  | right => (.ofNat (v.toNat / 2 + 128 * (v.toNat % 2)), v.toNat % 2 = 1)
  | leftCarry => (.ofNat (2 * v.toNat + carry.toNat), 128 ≤ v.toNat)
  | rightCarry => (.ofNat (v.toNat / 2 + 128 * carry.toNat), v.toNat % 2 = 1)

/-- A byte rotated or shifted, and the bit that falls out. -/
def ShiftOp.apply (v : UInt8) (carry : Bool) : ShiftOp → UInt8 × Bool
  | rotate r => r.apply v carry
  | arithmeticLeft => (.ofNat (2 * v.toNat), 128 ≤ v.toNat)
  | arithmeticRight => (.ofNat (v.toNat / 2 + 128 * (v.toNat / 128)), v.toNat % 2 = 1)
  | swap => (.ofNat (v.toNat / 16 + 16 * (v.toNat % 16)), false)
  | logicalRight => (.ofNat (v.toNat / 2), v.toNat % 2 = 1)

/-- A byte with a bit cleared. -/
def clearBit (v : UInt8) (n : Fin 8) : UInt8 := v &&& ~~~(1 <<< UInt8.ofNat n)

/-- A byte with a bit set. -/
def setBit (v : UInt8) (n : Fin 8) : UInt8 := v ||| 1 <<< UInt8.ofNat n

/-- What packed decimal correction adds to the accumulator, or takes from it after a subtraction. -/
def correction (a : UInt8) (n h c : Bool) : Nat :=
  (if h || (!n && 9 < a.toNat % 16) then 0x06 else 0) +
    if c || (!n && 0x99 < a.toNat) then 0x60 else 0

/-- The accumulator after packed decimal correction. -/
def adjusted (a : UInt8) (n h c : Bool) : UInt8 :=
  .ofNat (if n then a.toNat + 256 - correction a n h c else a.toNat + correction a n h c)

/-! ## 4. Instructions -/

namespace Instruction

/-- The number of bytes after the opcode. -/
def trailing : Instruction → Nat
  | loadImmediate _ | loadHighImmediate | storeHighImmediate | loadSum | addSigned
  | alu _ .immediate | jumpRelative _ => 1
  | loadAbsolute | storeAbsolute | loadWord _ | storeStackPointer | jump _ | call _ => 2
  | _ => 0

/-- The condition of an instruction. -/
def condition? : Instruction → Option Condition
  | jump c | jumpRelative c | call c | ret c => c
  | _ => none

/-- Whether an instruction does more than pass. -/
def taken (i : Instruction) (s : Cpu) : Bool :=
  match i.condition? with
  | some (f, v) => s.flag f == v
  | none => true

theorem taken_plain {i : Instruction} (h : i.condition? = none) (s : Cpu) : i.taken s = true := by
  rw [taken, h]

theorem taken_conditional {i : Instruction} {f : Flag} {v : Bool} (h : i.condition? = some (f, v))
    (s : Cpu) : i.taken s = (s.flag f == v) := by
  rw [taken, h]

/-- The operand of an accumulator operation. -/
def sourceByte (tail : List UInt8) (s : Cpu) : AluSource → UInt8
  | .cell t => s.cell t
  | .immediate => byteIn tail

/-- A word and a signed byte added: their sum goes to a register, and H and C say what was carried
    out of the low four and the low eight bits. -/
def withSignedSum (s : Cpu) (p : Reg16) (b : UInt8) : Cpu :=
  let w := s.get16 .SP
  (s.set16 p (w + signedWord b)).setFlags false false
    (16 ≤ w.toNat % 16 + b.toNat % 16) (256 ≤ w.toNat % 256 + b.toNat)

/-- What an instruction does once the program counter has moved past it. -/
def effect (tail : List UInt8) (s : Cpu) : Instruction → Cpu
  | nop => s
  | loadImmediate t => s.setCell t (byteIn tail)
  | load d r => s.set8 d (s.get8 r)
  | loadFrom d p => s.set8 d (s.at16 (s.get16 p))
  | storeTo p r => s.put (s.get16 p) (s.get8 r)
  | loadAbsolute => s.set8 .A (s.at16 (wordIn tail))
  | storeAbsolute => s.put (wordIn tail) (s.get8 .A)
  | loadHighImmediate => s.set8 .A (s.at16 (0xFF00 + (byteIn tail).toUInt16))
  | storeHighImmediate => s.put (0xFF00 + (byteIn tail).toUInt16) (s.get8 .A)
  | loadHighRegister => s.set8 .A (s.at16 (0xFF00 + (s.get8 .C).toUInt16))
  | storeHighRegister => s.put (0xFF00 + (s.get8 .C).toUInt16) (s.get8 .A)
  | storeStepping up =>
    let p := s.get16 .HL
    (s.put p (s.get8 .A)).set16 .HL (if up then p + 1 else p - 1)
  | loadStepping up =>
    let p := s.get16 .HL
    (s.set8 .A (s.at16 p)).set16 .HL (if up then p + 1 else p - 1)
  | loadWord p => s.set16 p (wordIn tail)
  | loadStackPointer => s.set16 .SP (s.get16 .HL)
  | storeStackPointer =>
    let w := s.get16 .SP
    (s.put (wordIn tail) (lowByte w)).put (wordIn tail + 1) (highByte w)
  | loadSum => withSignedSum s .HL (byteIn tail)
  | push p => s.grow.push (lowByte (s.grow.get16 p)) (highByte (s.grow.get16 p))
  | pop p =>
    (s.set16 p (wordOf s.topHigh s.topLow)).set16 .SP (s.get16 .SP + 2)
  | pushAccumulator => s.grow.push s.packed (s.get8 .A)
  | popAccumulator =>
    ((s.set16 .AF (wordOf s.topHigh (s.topLow &&& 0xF0))).shrink).unpack s.topLow
  | alu op t =>
    let r := op.result (s.get8 .A) (sourceByte tail s t) s.cf
    (s.set8 .A r.value).setFlags r.z r.n r.h r.c
  | stepByte up t =>
    let r := if up then AluResult.sum (s.cell t) 1 0 else AluResult.difference (s.cell t) 1 0
    (s.setCell t r.value).setFlags r.z r.n r.h s.cf
  | stepPair up p => s.set16 p (if up then s.get16 p + 1 else s.get16 p - 1)
  | addPairs p =>
    let v := s.get16 .HL
    let w := s.get16 p
    (s.set16 .HL (v + w)).setFlags s.zf false
      (4096 ≤ v.toNat % 4096 + w.toNat % 4096) (65536 ≤ v.toNat + w.toNat)
  | addSigned => withSignedSum s .SP (byteIn tail)
  | rotateAccumulator r =>
    let (v, c) := r.apply (s.get8 .A) s.cf
    (s.set8 .A v).setFlags false false false c
  | decimalAdjust =>
    let a := s.get8 .A
    let v := adjusted a s.nf s.hf s.cf
    (s.set8 .A v).setFlags (v == 0) s.nf false (s.cf || (!s.nf && 0x99 < a.toNat))
  | complement => (s.set8 .A (~~~s.get8 .A)).setFlags s.zf true true s.cf
  | setCarry => s.setFlags s.zf false false true
  | complementCarry => s.setFlags s.zf false false !s.cf
  | shift op t =>
    let (v, c) := op.apply (s.cell t) s.cf
    (s.setCell t v).setFlags (v == 0) false false c
  | bit .test n t => s.setFlags (!(s.cell t).toNat.testBit n) false true s.cf
  | bit .clear n t => s.setCell t (clearBit (s.cell t) n)
  | bit .set n t => s.setCell t (setBit (s.cell t) n)
  | jump _ => s.goto (wordIn tail)
  | jumpRegister => s.goto (s.get16 .HL)
  | jumpRelative _ => s.goto (s.pc + signedWord (byteIn tail))
  | call _ => (s.grow.push (lowByte s.pc) (highByte s.pc)).goto (wordIn tail)
  | ret _ => s.shrink.goto (wordOf s.topHigh s.topLow)
  | restart n => (s.grow.push (lowByte s.pc) (highByte s.pc)).goto (.ofNat (8 * n))

/-- **The state after an instruction.** -/
def step (i : Instruction) (tail : List UInt8) (s : Cpu) : Cpu :=
  let t := s.advance i.operation.length
  if i.taken s then i.effect tail t else t

/-- The cycles of an instruction. -/
def cycles (i : Instruction) (s : Cpu) : UInt8 := i.operation.cycles (i.taken s)

/-- An instruction without a condition takes effect after the program counter has moved. -/
theorem step_eq_effect {i : Instruction} {n : UInt8} (hc : i.condition? = none)
    (hn : i.operation.length = n) (tail : List UInt8) (s : Cpu) :
    i.step tail s = i.effect tail (s.advance n) := by
  unfold step
  rw [taken_plain hc, hn]
  rfl

end Instruction

end Sm83Codegen
