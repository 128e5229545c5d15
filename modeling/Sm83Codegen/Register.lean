/-!
# Registers

The names of the register file: eight 8-bit registers, four pairs of them, and the stack pointer,
which has no halves.
-/

namespace Sm83Codegen

/-- An 8-bit register. -/
inductive Reg8 where
  | A
  | F
  | B
  | C
  | D
  | E
  | H
  | L
  deriving DecidableEq, Repr

/-- A 16-bit register. -/
inductive Reg16 where
  | AF
  | BC
  | DE
  | HL
  | SP
  deriving DecidableEq, Repr

namespace Reg8

/-- All 8-bit registers, in the order of the register file. -/
def all : List Reg8 := [A, F, B, C, D, E, H, L]

/-- The name of a register. -/
def name : Reg8 → String
  | A => "A"
  | F => "F"
  | B => "B"
  | C => "C"
  | D => "D"
  | E => "E"
  | H => "H"
  | L => "L"

/-- The register of a name. -/
def ofName? (s : String) : Option Reg8 := all.find? (fun r => r.name == s)

end Reg8

namespace Reg16

/-- All 16-bit registers. -/
def all : List Reg16 := [AF, BC, DE, HL, SP]

/-- The name of a register. -/
def name : Reg16 → String
  | AF => "AF"
  | BC => "BC"
  | DE => "DE"
  | HL => "HL"
  | SP => "SP"

/-- The register of a name. -/
def ofName? (s : String) : Option Reg16 := all.find? (fun r => r.name == s)

/-- The high and the low half of a pair. -/
def halves : Reg16 → Option (Reg8 × Reg8)
  | AF => some (.A, .F)
  | BC => some (.B, .C)
  | DE => some (.D, .E)
  | HL => some (.H, .L)
  | SP => none

end Reg16

end Sm83Codegen
