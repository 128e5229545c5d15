import Sm83Codegen.Family

/-!
# Common terms of the catalog

Expressions that many fragments share, and the parts of an operand list that fixtures look at.
-/

namespace Sm83Codegen.Catalog

/-! ## 1. Terms -/

/-- The register in first position. -/
def dst : RegisterTerm := .given .dstRegister

/-- The register in second position. -/
def src : RegisterTerm := .given .srcRegister

/-- The accumulator by name. -/
def accumulatorTerm : RegisterTerm := .byte .A

/-- The stack pointer by name. -/
def stackPointer : RegisterTerm := .word .SP

/-- An expression as a 16-bit number. -/
def wide (e : Expr) : Expr := .cast e .u16

/-- An expression as a 32-bit number. -/
def wider (e : Expr) : Expr := .cast e .u32

/-- An expression as an address of memory. -/
def asAddress (e : Expr) : Expr := .cast e .usize

/-- The byte that a 16-bit register points at. -/
def pointedBy (r : RegisterTerm) : Expr := .byteAt (asAddress (.pair r))

/-- The place that a 16-bit register points at. -/
def atPair (r : RegisterTerm) : Place := .byteAt (asAddress (.pair r))

/-- The flag that a routine borrows. -/
def borrowed (f : Flag) : Expr := .deref (.flag f)

/-- A number in decimal. -/
def decimal (t : IntType) (n : Nat) : Expr := .number t n .decimal

/-- A byte in hexadecimal. -/
def hexByte (n : Nat) : Expr := .number .u8 n (.hex 2)

/-- A 16-bit number in two hexadecimal digits. -/
def hexWord (n : Nat) : Expr := .number .u16 n (.hex 2)

/-- A byte as a signed number, widened to 16 bits. -/
def signedWord (e : Expr) : Expr := .cast (.cast (.cast e .i8) .i16) .u16

/-- The result of a computation that was carried out in a wider type, as a byte. -/
def resultByte : Expr := .cast (.get .result) .u8

/-! ## 2. Operands of a member -/

/-- The name of an operand, empty if there is none. An empty name is no register's. -/
def nth (os : List Operand) (i : Nat) : String :=
  match os[i]? with
  | some o => o.name
  | none => ""

/-- The byte a literal operand writes. -/
def literalAt (os : List Operand) (i : Nat) : Option UInt8 := os[i]?.bind Operand.literal?

/-- The condition that an operand's name states, whatever the operand was classified as. -/
def conditionAt (os : List Operand) (i : Nat) : Option (Flag × Bool) := conditionOf (nth os i)

end Sm83Codegen.Catalog
