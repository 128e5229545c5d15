import Sm83Codegen.Flag
import Sm83Codegen.Register

/-!
# Fragments

A fragment is the part of an instruction's routine that an author writes: a few statements over the
bindings the routine has.

* `Binding` -- the parameters of a routine and the names fragments bind themselves;
* `Expr`, `Statement`, `Program` -- the language of fragments;
* `Fragment` -- statements with their layout, or a text that is only carried along.
-/

namespace Sm83Codegen

/-! ## 1. Bindings -/

/-- A name that a routine knows: a parameter, or a variable of its fragment. -/
inductive Binding where
  | pc
  | registers
  | memory
  | dstRegister
  | srcRegister
  | immediate
  | literal
  | conditionFlag
  | flagCondition
  | flag (f : Flag)
  | operand1
  | operand2
  | result
  | value
  | address
  | carryIn
  | low
  | high
  | sp
  | newSp
  | flags
  | accumulator
  deriving DecidableEq, Repr

/-- The written form of a binding. -/
def Binding.text : Binding → String
  | pc => "pc"
  | registers => "registers"
  | memory => "memory"
  | dstRegister => "dst_register"
  | srcRegister => "src_register"
  | immediate => "immediate"
  | literal => "literal"
  | conditionFlag => "condition_flag"
  | flagCondition => "flag_condition"
  | flag f => f.field
  | operand1 => "operand1"
  | operand2 => "operand2"
  | result => "result"
  | value => "value"
  | address => "address"
  | carryIn => "carry_in"
  | low => "low"
  | high => "high"
  | sp => "sp"
  | newSp => "new_sp"
  | flags => "flags"
  | accumulator => "accumulator"

/-! ## 2. Expressions -/

/-- An integer type. -/
inductive IntType where
  | u8
  | u16
  | u32
  | usize
  | i8
  | i16
  deriving DecidableEq, Repr

namespace IntType

/-- The number of bits. -/
def width : IntType → Nat
  | u8 => 8
  | u16 => 16
  | u32 => 32
  | usize => 64
  | i8 => 8
  | i16 => 16

/-- The number of values. -/
def size (t : IntType) : Nat := 1 <<< t.width

/-- Whether the highest bit counts as negative. -/
def signed : IntType → Bool
  | i8 | i16 => true
  | _ => false

/-- The written form of a type. -/
def text : IntType → String
  | u8 => "u8"
  | u16 => "u16"
  | u32 => "u32"
  | usize => "usize"
  | i8 => "i8"
  | i16 => "i16"

end IntType

/-- How a number is written: in decimal, in decimal with its type, or in so many hexadecimal
    digits. -/
inductive Spelling where
  | decimal
  | typed
  | hex (digits : Nat)
  deriving DecidableEq, Repr

/-- A register that a routine was given, or one by name. -/
inductive RegisterTerm where
  | given (b : Binding)
  | byte (r : Reg8)
  | word (r : Reg16)
  deriving DecidableEq, Repr

/-- An operator between two expressions. -/
inductive BinaryOp where
  | add
  | and
  | or
  | xor
  | shiftLeft
  | shiftRight
  | equal
  | different
  | greater
  | either
  deriving DecidableEq, Repr

/-- The written form of an operator. -/
def BinaryOp.text : BinaryOp → String
  | add => "+"
  | and => "&"
  | or => "|"
  | xor => "^"
  | shiftLeft => "<<"
  | shiftRight => ">>"
  | equal => "=="
  | different => "!="
  | greater => ">"
  | either => "||"

/-- An expression. Grouping is explicit, as it is written; a number knows its type. -/
inductive Expr where
  /-- The value of a binding. -/
  | get (b : Binding)
  /-- The value behind a borrow, where the language looks through it by itself. -/
  | through (b : Binding)
  /-- The value behind a borrow. -/
  | deref (b : Binding)
  | number (t : IntType) (n : Nat) (s : Spelling)
  | truth (b : Bool)
  /-- The content of an 8-bit register. -/
  | register (r : RegisterTerm)
  /-- The content of a 16-bit register. -/
  | pair (r : RegisterTerm)
  /-- The byte at an address. -/
  | byteAt (address : Expr)
  | cast (e : Expr) (t : IntType)
  | group (e : Expr)
  | complement (e : Expr)
  | binary (op : BinaryOp) (l r : Expr)
  /-- A sum modulo the width. -/
  | wrappingAdd (l r : Expr)
  /-- A difference modulo the width. -/
  | wrappingSub (l r : Expr)
  | rotateLeft (e : Expr) (n : Nat)
  | rotateRight (e : Expr) (n : Nat)
  /-- The word of a low and a high byte. -/
  | ofBytes (low high : Expr)
  deriving DecidableEq, Repr

/-! ## 3. Statements -/

/-- What can be assigned to. -/
inductive Place where
  | named (b : Binding)
  | deref (b : Binding)
  | register (r : RegisterTerm)
  | byteAt (address : Expr)
  deriving DecidableEq, Repr

/-- A statement. -/
inductive Statement where
  /-- Binds a value to a name. -/
  | bind (b : Binding) (e : Expr)
  /-- Binds a value to a name that is assigned to later. -/
  | bindMutable (b : Binding) (e : Expr)
  /-- Works a value out and drops it. -/
  | drop (e : Expr)
  /-- Binds the low and the high byte of a word. A byte without a name is dropped. -/
  | bindBytes (low high : Option Binding) (e : Expr)
  | assign (p : Place) (e : Expr)
  /-- Assigns what a place holds combined with a value. -/
  | update (op : BinaryOp) (p : Place) (e : Expr)
  /-- Writes a 16-bit register. -/
  | setPair (r : RegisterTerm) (e : Expr)
  deriving DecidableEq, Repr

/-- Statements in order. -/
inductive Program where
  | done
  /-- An empty line. -/
  | blank (rest : Program)
  | step (s : Statement) (rest : Program)
  /-- One of two programs, depending on a condition; then the rest. -/
  | choose (condition : Expr) (yes no : Program) (rest : Program)
  deriving DecidableEq, Repr

/-- How the lines of a program stand in a fragment: lines joined by line feeds, lines ended by line
    feeds, or the latter after an empty line. -/
inductive Layout where
  | joined
  | ended
  | framed
  deriving DecidableEq, Repr

/-- The authored part of a routine: a program, or a text that is not looked into. -/
inductive Fragment where
  | program (layout : Layout) (p : Program)
  | verbatim (text : String)
  deriving DecidableEq, Repr

end Sm83Codegen
