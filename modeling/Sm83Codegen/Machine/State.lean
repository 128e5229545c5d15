import Sm83Codegen.Flag
import Sm83Codegen.Register

/-!
# The state of the machine

The registers, the memory, the program counter and the flags of an SM83. Register F and the flags
are separate: only pushing and popping AF carries one over to the other.

* `Registers`, `Memory`, `Cpu` -- the parts and the whole;
* `Cpu.observed` -- what a name stands for in a state.
-/

namespace Sm83Codegen

/-! ## 1. The register file -/

/-- The register file. -/
structure Registers where
  a : UInt8 := 0
  f : UInt8 := 0
  b : UInt8 := 0
  c : UInt8 := 0
  d : UInt8 := 0
  e : UInt8 := 0
  h : UInt8 := 0
  l : UInt8 := 0
  sp : UInt16 := 0
  deriving DecidableEq, Repr

/-- The word of a high and a low byte. -/
def wordOf (high low : UInt8) : UInt16 := UInt16.ofNat (256 * high.toNat + low.toNat)

/-- The high byte of a word. -/
def highByte (w : UInt16) : UInt8 := UInt8.ofNat (w.toNat / 256)

/-- The low byte of a word. -/
def lowByte (w : UInt16) : UInt8 := UInt8.ofNat (w.toNat % 256)

namespace Registers

/-- The content of an 8-bit register. -/
def get8 (rs : Registers) : Reg8 → UInt8
  | .A => rs.a
  | .F => rs.f
  | .B => rs.b
  | .C => rs.c
  | .D => rs.d
  | .E => rs.e
  | .H => rs.h
  | .L => rs.l

/-- The file with an 8-bit register written. -/
def set8 (rs : Registers) (r : Reg8) (v : UInt8) : Registers :=
  match r with
  | .A => { rs with a := v }
  | .F => { rs with f := v }
  | .B => { rs with b := v }
  | .C => { rs with c := v }
  | .D => { rs with d := v }
  | .E => { rs with e := v }
  | .H => { rs with h := v }
  | .L => { rs with l := v }

/-- The content of a 16-bit register: of a pair, both halves. -/
def get16 (rs : Registers) (r : Reg16) : UInt16 :=
  match r.halves with
  | some (high, low) => wordOf (rs.get8 high) (rs.get8 low)
  | none => rs.sp

/-- The file with a 16-bit register written: of a pair, both halves. -/
def set16 (rs : Registers) (r : Reg16) (v : UInt16) : Registers :=
  match r.halves with
  | some (high, low) => (rs.set8 high (highByte v)).set8 low (lowByte v)
  | none => { rs with sp := v }

end Registers

/-! ## 2. Memory -/

/-- The number of bytes of memory. -/
def memorySize : Nat := 0x10000

/-- Memory: a byte for each address. -/
structure Memory where
  bytes : Vector UInt8 memorySize
  deriving DecidableEq

namespace Memory

/-- Memory full of zeros. -/
def zero : Memory := ⟨Vector.replicate memorySize 0⟩

/-- The byte at an address, if there is one. -/
def get? (m : Memory) (address : Nat) : Option UInt8 := m.bytes[address]?

/-- Memory with a byte written, if there is one at the address. -/
def set? (m : Memory) (address : Nat) (v : UInt8) : Option Memory :=
  if h : address < memorySize then some ⟨m.bytes.set address v h⟩ else none

/-- The byte at an address. -/
def at16 (m : Memory) (address : UInt16) : UInt8 :=
  m.bytes.get ⟨address.toNat, address.toNat_lt⟩

end Memory

/-! ## 3. The machine -/

/-- The state of the machine. -/
structure Cpu where
  pc : UInt16
  registers : Registers
  memory : Memory
  zf : Bool
  nf : Bool
  hf : Bool
  cf : Bool
  deriving DecidableEq

namespace Cpu

/-- The machine before anything ran: all zero. -/
def initial : Cpu := ⟨0, {}, .zero, false, false, false, false⟩

/-- The value of a flag. -/
def flag (s : Cpu) : Flag → Bool
  | .Z => s.zf
  | .N => s.nf
  | .H => s.hf
  | .C => s.cf

/-- The state with a flag set. -/
def setFlag (s : Cpu) (f : Flag) (v : Bool) : Cpu :=
  match f with
  | .Z => { s with zf := v }
  | .N => { s with nf := v }
  | .H => { s with hf := v }
  | .C => { s with cf := v }

@[simp] theorem flag_setFlag_self (s : Cpu) (f : Flag) (v : Bool) : (s.setFlag f v).flag f = v := by
  cases f <;> rfl

theorem flag_setFlag_of_ne (s : Cpu) {f g : Flag} (v : Bool) (h : g ≠ f) :
    (s.setFlag f v).flag g = s.flag g := by
  cases f <;> cases g <;> first | rfl | exact absurd rfl h

/-- What a name stands for: the program counter, a flag, or a register. -/
def observed (s : Cpu) (name : String) : Option UInt16 :=
  if name == "PC" then some s.pc
  else
    match Flag.all.find? (fun f => f.field == name) with
    | some f => some (if s.flag f then 1 else 0)
    | none =>
      match Reg8.ofName? name with
      | some r => some (s.registers.get8 r).toUInt16
      | none => (Reg16.ofName? name).map s.registers.get16

end Cpu

end Sm83Codegen
