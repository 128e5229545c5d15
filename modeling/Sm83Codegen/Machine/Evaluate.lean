import Sm83Codegen.Fragment.Syntax
import Sm83Codegen.Machine.State

/-!
# Running fragments

What expressions and statements of the fragment language do to the machine.

* `Value` -- a number with its type, a truth value, or a register;
* `Access` -- what a routine's binding stands for: a value, or a part of the machine it borrows;
* `MachineFault` -- why a routine stops: an address beyond memory, a sum or a shift beyond its type,
  or a fragment that does not fit its bindings;
* `Expr.eval`, `Statement.run`, `Program.run` -- the meaning of the language.
-/

namespace Sm83Codegen

/-! ## 1. Values -/

/-- A value. A number is below the size of its type; a signed one is its two's complement. -/
inductive Value where
  | number (t : IntType) (n : Nat)
  | truth (b : Bool)
  | reg8 (r : Reg8)
  | reg16 (r : Reg16)
  deriving DecidableEq, Repr

/-- Why a routine stops. -/
inductive MachineFault where
  | indexOutOfRange (index : Nat)
  | additionOverflow
  | shiftOverflow
  | unbound (b : Binding)
  | mistyped
  /-- A fragment that is a mere text has no meaning. -/
  | unreadable
  /-- A routine that there is none of. -/
  | missingRoutine (name : String)
  /-- A call whose arguments do not fit. -/
  | miscalled (name : String)
  deriving DecidableEq, Repr

/-- A computation of the machine. -/
abbrev Run (α : Type) := Except MachineFault α

/-- What a binding stands for: a value, or a part of the machine. -/
inductive Access where
  | value (v : Value)
  | pc
  | registers
  | memory (mutable : Bool)
  | flag (f : Flag)
  deriving DecidableEq, Repr

/-- The machine inside a routine, with the bindings of the routine; a later binding hides an
    earlier one. -/
structure Frame where
  cpu : Cpu
  bindings : List (Binding × Access)

namespace Frame

/-! ## 2. Bindings -/

/-- What a binding stands for. -/
def access (s : Frame) (b : Binding) : Run Access :=
  match s.bindings.find? (fun p => p.1 == b) with
  | some p => .ok p.2
  | none => .error (.unbound b)

/-- The value of a binding. -/
def value (s : Frame) (b : Binding) : Run Value := do
  match ← s.access b with
  | .value v => .ok v
  | _ => .error .mistyped

/-- The value behind a borrow. -/
def behind (s : Frame) (b : Binding) : Run Value := do
  match ← s.access b with
  | .pc => .ok (.number .u16 s.cpu.pc.toNat)
  | .flag f => .ok (.truth (s.cpu.flag f))
  | _ => .error .mistyped

/-- The state with a value bound. -/
def bind (s : Frame) (b : Binding) (v : Value) : Frame :=
  { s with bindings := (b, .value v) :: s.bindings }

/-- Succeeds if the register file can be used. -/
def needsRegisters (s : Frame) : Run Unit := do
  match ← s.access .registers with
  | .registers => .ok ()
  | _ => .error .mistyped

/-- The 8-bit register that a term names. -/
def reg8 (s : Frame) : RegisterTerm → Run Reg8
  | .byte r => .ok r
  | .word _ => .error .mistyped
  | .given b => do
    match ← s.value b with
    | .reg8 r => .ok r
    | _ => .error .mistyped

/-- The 16-bit register that a term names. -/
def reg16 (s : Frame) : RegisterTerm → Run Reg16
  | .word r => .ok r
  | .byte _ => .error .mistyped
  | .given b => do
    match ← s.value b with
    | .reg16 r => .ok r
    | _ => .error .mistyped

/-- Whether memory can be written. -/
def memoryView (s : Frame) : Run Bool := do
  match ← s.access .memory with
  | .memory mutable => .ok mutable
  | _ => .error .mistyped

/-- The byte of memory at an address. -/
def load (s : Frame) (address : Nat) : Run Value := do
  let _ ← s.memoryView
  match s.cpu.memory.get? address with
  | some v => .ok (.number .u8 v.toNat)
  | none => .error (.indexOutOfRange address)

/-- The state with a byte of memory written. -/
def store (s : Frame) (address : Nat) (v : UInt8) : Run Frame := do
  if ← s.memoryView then
    match s.cpu.memory.set? address v with
    | some m => .ok { s with cpu := { s.cpu with memory := m } }
    | none => .error (.indexOutOfRange address)
  else .error .mistyped

end Frame

namespace Value

/-! ## 3. Parts of a value -/

/-- The number of a type. -/
def numberOf (t : IntType) : Value → Run Nat
  | number u n => if u = t then .ok n else .error .mistyped
  | _ => .error .mistyped

/-- A truth value. -/
def truthOf : Value → Run Bool
  | truth b => .ok b
  | _ => .error .mistyped

/-- A byte. -/
def byteOf (v : Value) : Run UInt8 := (v.numberOf .u8).map UInt8.ofNat

/-- A word. -/
def wordOf (v : Value) : Run UInt16 := (v.numberOf .u16).map UInt16.ofNat

/-! ## 4. Operators -/

/-- A value in another type: cut to its width, or widened by its sign. -/
def cast (t : IntType) : Value → Run Value
  | number s n =>
    let negative := s.signed && s.size ≤ 2 * n
    .ok (.number t ((if negative then n + s.size * (t.size - 1) else n) % t.size))
  | truth b => .ok (.number t b.toNat)
  | _ => .error .mistyped

/-- Every bit of a number, or a truth value, turned round. -/
def complement : Value → Run Value
  | number t n => .ok (.number t (t.size - 1 - n))
  | truth b => .ok (.truth (!b))
  | _ => .error .mistyped

/-- An operator on two numbers of one type. -/
def arithmetic (op : BinaryOp) (t : IntType) (m n : Nat) : Run Value :=
  match op with
  | .add => if m + n < t.size then .ok (.number t (m + n)) else .error .additionOverflow
  | .and => .ok (.number t (m &&& n))
  | .or => .ok (.number t (m ||| n))
  | .xor => .ok (.number t (m ^^^ n))
  | .equal => .ok (.truth (m == n))
  | .different => .ok (.truth (m != n))
  | .greater => .ok (.truth (m > n))
  | _ => .error .mistyped

/-- A number moved by some bits, which have to be fewer than its width. -/
def shift (up : Bool) (t : IntType) (m n : Nat) : Run Value :=
  if n < t.width then .ok (.number t (if up then (m <<< n) % t.size else m >>> n))
  else .error .shiftOverflow

/-- An operator on two values. The amount of a shift may be of any type. -/
def combine (op : BinaryOp) (v w : Value) : Run Value :=
  match v, w with
  | .number t m, .number u n =>
    match op with
    | .shiftLeft => shift true t m n
    | .shiftRight => shift false t m n
    | _ => if t = u then arithmetic op t m n else .error .mistyped
  | .truth a, .truth b =>
    match op with
    | .equal => .ok (.truth (a == b))
    | .different => .ok (.truth (a != b))
    | .either => .ok (.truth (a || b))
    | _ => .error .mistyped
  | _, _ => .error .mistyped

/-- A sum, or a difference, of two numbers of one type modulo its width. -/
def wrapping (up : Bool) (v w : Value) : Run Value :=
  match v, w with
  | .number t m, .number u n =>
    if t = u then .ok (.number t ((if up then m + n else m + (t.size - n)) % t.size))
    else .error .mistyped
  | _, _ => .error .mistyped

/-- The bits of a number moved round. -/
def rotate (up : Bool) (n : Nat) : Value → Run Value
  | .number t m =>
    let k := if up then n % t.width else t.width - n % t.width
    .ok (.number t ((m <<< k) % t.size + m >>> (t.width - k)))
  | _ => .error .mistyped

/-- The word of a low and a high byte. -/
def ofBytes (low high : Value) : Run Value := do
  let l ← low.numberOf .u8
  let h ← high.numberOf .u8
  .ok (.number .u16 (256 * h + l))

end Value

/-! ## 5. Expressions -/

/-- The value of an expression. The second side of `||` is not looked at if the first holds. -/
def Expr.eval (s : Frame) : Expr → Run Value
  | get b => s.value b
  | through b => s.behind b
  | deref b => s.behind b
  | number t n _ => .ok (.number t n)
  | truth b => .ok (.truth b)
  | register r => do
    s.needsRegisters
    let r ← s.reg8 r
    .ok (.number .u8 (s.cpu.registers.get8 r).toNat)
  | pair r => do
    s.needsRegisters
    let r ← s.reg16 r
    .ok (.number .u16 (s.cpu.registers.get16 r).toNat)
  | byteAt a => do
    let address ← (← a.eval s).numberOf .usize
    s.load address
  | cast e t => do (← e.eval s).cast t
  | group e => e.eval s
  | complement e => do (← e.eval s).complement
  | binary .either l r => do
    if ← (← l.eval s).truthOf then .ok (.truth true)
    else
      let b ← (← r.eval s).truthOf
      .ok (.truth b)
  | binary op l r => do
    let v ← l.eval s
    let w ← r.eval s
    v.combine op w
  | wrappingAdd l r => do
    let v ← l.eval s
    let w ← r.eval s
    v.wrapping true w
  | wrappingSub l r => do
    let v ← l.eval s
    let w ← r.eval s
    v.wrapping false w
  | rotateLeft e n => do (← e.eval s).rotate true n
  | rotateRight e n => do (← e.eval s).rotate false n
  | ofBytes l h => do
    let v ← l.eval s
    let w ← h.eval s
    Value.ofBytes v w

/-! ## 6. Statements -/

/-- What a place holds. -/
def Place.eval (s : Frame) : Place → Run Value
  | named b => s.value b
  | deref b => s.behind b
  | register r => (Expr.register r).eval s
  | byteAt a => (Expr.byteAt a).eval s

/-- The state with a value written to a place. -/
def Place.write (s : Frame) (v : Value) : Place → Run Frame
  | named b => do
    let _ ← s.value b
    .ok (s.bind b v)
  | deref b => do
    match ← s.access b with
    | .pc =>
      let w ← v.wordOf
      .ok { s with cpu := { s.cpu with pc := w } }
    | .flag f =>
      let t ← v.truthOf
      .ok { s with cpu := s.cpu.setFlag f t }
    | _ => .error .mistyped
  | register r => do
    s.needsRegisters
    let r ← s.reg8 r
    let b ← v.byteOf
    .ok { s with cpu := { s.cpu with registers := s.cpu.registers.set8 r b } }
  | byteAt a => do
    let address ← (← a.eval s).numberOf .usize
    let b ← v.byteOf
    s.store address b

/-- The state with a byte bound, if it has a name. -/
def Frame.bindByte (s : Frame) (b : Option Binding) (n : Nat) : Frame :=
  match b with
  | some b => s.bind b (.number .u8 n)
  | none => s

/-- The state after a statement. -/
def Statement.run (s : Frame) : Statement → Run Frame
  | bind b e => do
    let v ← e.eval s
    .ok (s.bind b v)
  | bindMutable b e => do
    let v ← e.eval s
    .ok (s.bind b v)
  | drop e => do
    let _ ← e.eval s
    .ok s
  | bindBytes l h e => do
    let w ← (← e.eval s).numberOf .u16
    .ok ((s.bindByte l (w % 256)).bindByte h (w / 256))
  | assign p e => do
    let v ← e.eval s
    p.write s v
  | update op p e => do
    let v ← e.eval s
    let old ← p.eval s
    let new ← old.combine op v
    p.write s new
  | setPair r e => do
    let v ← e.eval s
    s.needsRegisters
    let r ← s.reg16 r
    let w ← v.wordOf
    .ok { s with cpu := { s.cpu with registers := s.cpu.registers.set16 r w } }

/-- The state after a program. -/
def Program.run (s : Frame) : Program → Run Frame
  | done => .ok s
  | blank rest => rest.run s
  | step t rest => do
    let s ← t.run s
    rest.run s
  | choose c yes no rest => do
    let b ← (← c.eval s).truthOf
    let s ← if b then yes.run s else no.run s
    rest.run s

/-- The state after a fragment. -/
def Fragment.run (s : Frame) : Fragment → Run Frame
  | program _ p => p.run s
  | verbatim _ => .error .unreadable

end Sm83Codegen
