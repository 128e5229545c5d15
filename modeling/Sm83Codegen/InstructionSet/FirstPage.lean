import Sm83Codegen.InstructionSet.Row

/-!
# The instruction set: first page

The opcodes of one byte, with the bytes after them. The byte that selects the second page, the two
that switch interrupts and eleven unused ones have no row.
-/

namespace Sm83Codegen.InstructionSet

/-- The opcodes from `0x00`. -/
def first0 : Partition :=
  [row 0x00 "NOP" 1 [4] [] ⟨"-", "-", "-", "-"⟩,
   row 0x01 "LD" 3 [12] [direct "BC", direct "n16"] ⟨"-", "-", "-", "-"⟩,
   row 0x02 "LD" 1 [8] [address "BC", direct "A"] ⟨"-", "-", "-", "-"⟩,
   row 0x03 "INC" 1 [8] [direct "BC"] ⟨"-", "-", "-", "-"⟩,
   row 0x04 "INC" 1 [4] [direct "B"] ⟨"Z", "0", "H", "-"⟩,
   row 0x05 "DEC" 1 [4] [direct "B"] ⟨"Z", "1", "H", "-"⟩,
   row 0x06 "LD" 2 [8] [direct "B", direct "n8"] ⟨"-", "-", "-", "-"⟩,
   row 0x07 "RLCA" 1 [4] [] ⟨"0", "0", "0", "C"⟩,
   row 0x08 "LD" 3 [20] [address "a16", direct "SP"] ⟨"-", "-", "-", "-"⟩,
   row 0x09 "ADD" 1 [8] [direct "HL", direct "BC"] ⟨"-", "0", "H", "C"⟩,
   row 0x0A "LD" 1 [8] [direct "A", address "BC"] ⟨"-", "-", "-", "-"⟩,
   row 0x0B "DEC" 1 [8] [direct "BC"] ⟨"-", "-", "-", "-"⟩,
   row 0x0C "INC" 1 [4] [direct "C"] ⟨"Z", "0", "H", "-"⟩,
   row 0x0D "DEC" 1 [4] [direct "C"] ⟨"Z", "1", "H", "-"⟩,
   row 0x0E "LD" 2 [8] [direct "C", direct "n8"] ⟨"-", "-", "-", "-"⟩,
   row 0x0F "RRCA" 1 [4] [] ⟨"0", "0", "0", "C"⟩]

/-- The opcodes from `0x10`. -/
def first1 : Partition :=
  [row 0x10 "STOP" 2 [4] [direct "n8"] ⟨"-", "-", "-", "-"⟩,
   row 0x11 "LD" 3 [12] [direct "DE", direct "n16"] ⟨"-", "-", "-", "-"⟩,
   row 0x12 "LD" 1 [8] [address "DE", direct "A"] ⟨"-", "-", "-", "-"⟩,
   row 0x13 "INC" 1 [8] [direct "DE"] ⟨"-", "-", "-", "-"⟩,
   row 0x14 "INC" 1 [4] [direct "D"] ⟨"Z", "0", "H", "-"⟩,
   row 0x15 "DEC" 1 [4] [direct "D"] ⟨"Z", "1", "H", "-"⟩,
   row 0x16 "LD" 2 [8] [direct "D", direct "n8"] ⟨"-", "-", "-", "-"⟩,
   row 0x17 "RLA" 1 [4] [] ⟨"0", "0", "0", "C"⟩,
   row 0x18 "JR" 2 [12] [direct "e8"] ⟨"-", "-", "-", "-"⟩,
   row 0x19 "ADD" 1 [8] [direct "HL", direct "DE"] ⟨"-", "0", "H", "C"⟩,
   row 0x1A "LD" 1 [8] [direct "A", address "DE"] ⟨"-", "-", "-", "-"⟩,
   row 0x1B "DEC" 1 [8] [direct "DE"] ⟨"-", "-", "-", "-"⟩,
   row 0x1C "INC" 1 [4] [direct "E"] ⟨"Z", "0", "H", "-"⟩,
   row 0x1D "DEC" 1 [4] [direct "E"] ⟨"Z", "1", "H", "-"⟩,
   row 0x1E "LD" 2 [8] [direct "E", direct "n8"] ⟨"-", "-", "-", "-"⟩,
   row 0x1F "RRA" 1 [4] [] ⟨"0", "0", "0", "C"⟩]

/-- The opcodes from `0x20`. -/
def first2 : Partition :=
  [row 0x20 "JR" 2 [12, 8] [direct "NZ", direct "e8"] ⟨"-", "-", "-", "-"⟩,
   row 0x21 "LD" 3 [12] [direct "HL", direct "n16"] ⟨"-", "-", "-", "-"⟩,
   row 0x22 "LD" 1 [8] [addressUp "HL", direct "A"] ⟨"-", "-", "-", "-"⟩,
   row 0x23 "INC" 1 [8] [direct "HL"] ⟨"-", "-", "-", "-"⟩,
   row 0x24 "INC" 1 [4] [direct "H"] ⟨"Z", "0", "H", "-"⟩,
   row 0x25 "DEC" 1 [4] [direct "H"] ⟨"Z", "1", "H", "-"⟩,
   row 0x26 "LD" 2 [8] [direct "H", direct "n8"] ⟨"-", "-", "-", "-"⟩,
   row 0x27 "DAA" 1 [4] [] ⟨"Z", "-", "0", "C"⟩,
   row 0x28 "JR" 2 [12, 8] [direct "Z", direct "e8"] ⟨"-", "-", "-", "-"⟩,
   row 0x29 "ADD" 1 [8] [direct "HL", direct "HL"] ⟨"-", "0", "H", "C"⟩,
   row 0x2A "LD" 1 [8] [direct "A", addressUp "HL"] ⟨"-", "-", "-", "-"⟩,
   row 0x2B "DEC" 1 [8] [direct "HL"] ⟨"-", "-", "-", "-"⟩,
   row 0x2C "INC" 1 [4] [direct "L"] ⟨"Z", "0", "H", "-"⟩,
   row 0x2D "DEC" 1 [4] [direct "L"] ⟨"Z", "1", "H", "-"⟩,
   row 0x2E "LD" 2 [8] [direct "L", direct "n8"] ⟨"-", "-", "-", "-"⟩,
   row 0x2F "CPL" 1 [4] [] ⟨"-", "1", "1", "-"⟩]

/-- The opcodes from `0x30`. -/
def first3 : Partition :=
  [row 0x30 "JR" 2 [12, 8] [direct "NC", direct "e8"] ⟨"-", "-", "-", "-"⟩,
   row 0x31 "LD" 3 [12] [direct "SP", direct "n16"] ⟨"-", "-", "-", "-"⟩,
   row 0x32 "LD" 1 [8] [addressDown "HL", direct "A"] ⟨"-", "-", "-", "-"⟩,
   row 0x33 "INC" 1 [8] [direct "SP"] ⟨"-", "-", "-", "-"⟩,
   row 0x34 "INC" 1 [12] [address "HL"] ⟨"Z", "0", "H", "-"⟩,
   row 0x35 "DEC" 1 [12] [address "HL"] ⟨"Z", "1", "H", "-"⟩,
   row 0x36 "LD" 2 [12] [address "HL", direct "n8"] ⟨"-", "-", "-", "-"⟩,
   row 0x37 "SCF" 1 [4] [] ⟨"-", "0", "0", "1"⟩,
   row 0x38 "JR" 2 [12, 8] [direct "C", direct "e8"] ⟨"-", "-", "-", "-"⟩,
   row 0x39 "ADD" 1 [8] [direct "HL", direct "SP"] ⟨"-", "0", "H", "C"⟩,
   row 0x3A "LD" 1 [8] [direct "A", addressDown "HL"] ⟨"-", "-", "-", "-"⟩,
   row 0x3B "DEC" 1 [8] [direct "SP"] ⟨"-", "-", "-", "-"⟩,
   row 0x3C "INC" 1 [4] [direct "A"] ⟨"Z", "0", "H", "-"⟩,
   row 0x3D "DEC" 1 [4] [direct "A"] ⟨"Z", "1", "H", "-"⟩,
   row 0x3E "LD" 2 [8] [direct "A", direct "n8"] ⟨"-", "-", "-", "-"⟩,
   row 0x3F "CCF" 1 [4] [] ⟨"-", "0", "0", "C"⟩]

/-- The opcodes from `0x40`. -/
def first4 : Partition :=
  [row 0x40 "LD" 1 [4] [direct "B", direct "B"] ⟨"-", "-", "-", "-"⟩,
   row 0x41 "LD" 1 [4] [direct "B", direct "C"] ⟨"-", "-", "-", "-"⟩,
   row 0x42 "LD" 1 [4] [direct "B", direct "D"] ⟨"-", "-", "-", "-"⟩,
   row 0x43 "LD" 1 [4] [direct "B", direct "E"] ⟨"-", "-", "-", "-"⟩,
   row 0x44 "LD" 1 [4] [direct "B", direct "H"] ⟨"-", "-", "-", "-"⟩,
   row 0x45 "LD" 1 [4] [direct "B", direct "L"] ⟨"-", "-", "-", "-"⟩,
   row 0x46 "LD" 1 [8] [direct "B", address "HL"] ⟨"-", "-", "-", "-"⟩,
   row 0x47 "LD" 1 [4] [direct "B", direct "A"] ⟨"-", "-", "-", "-"⟩,
   row 0x48 "LD" 1 [4] [direct "C", direct "B"] ⟨"-", "-", "-", "-"⟩,
   row 0x49 "LD" 1 [4] [direct "C", direct "C"] ⟨"-", "-", "-", "-"⟩,
   row 0x4A "LD" 1 [4] [direct "C", direct "D"] ⟨"-", "-", "-", "-"⟩,
   row 0x4B "LD" 1 [4] [direct "C", direct "E"] ⟨"-", "-", "-", "-"⟩,
   row 0x4C "LD" 1 [4] [direct "C", direct "H"] ⟨"-", "-", "-", "-"⟩,
   row 0x4D "LD" 1 [4] [direct "C", direct "L"] ⟨"-", "-", "-", "-"⟩,
   row 0x4E "LD" 1 [8] [direct "C", address "HL"] ⟨"-", "-", "-", "-"⟩,
   row 0x4F "LD" 1 [4] [direct "C", direct "A"] ⟨"-", "-", "-", "-"⟩]

/-- The opcodes from `0x50`. -/
def first5 : Partition :=
  [row 0x50 "LD" 1 [4] [direct "D", direct "B"] ⟨"-", "-", "-", "-"⟩,
   row 0x51 "LD" 1 [4] [direct "D", direct "C"] ⟨"-", "-", "-", "-"⟩,
   row 0x52 "LD" 1 [4] [direct "D", direct "D"] ⟨"-", "-", "-", "-"⟩,
   row 0x53 "LD" 1 [4] [direct "D", direct "E"] ⟨"-", "-", "-", "-"⟩,
   row 0x54 "LD" 1 [4] [direct "D", direct "H"] ⟨"-", "-", "-", "-"⟩,
   row 0x55 "LD" 1 [4] [direct "D", direct "L"] ⟨"-", "-", "-", "-"⟩,
   row 0x56 "LD" 1 [8] [direct "D", address "HL"] ⟨"-", "-", "-", "-"⟩,
   row 0x57 "LD" 1 [4] [direct "D", direct "A"] ⟨"-", "-", "-", "-"⟩,
   row 0x58 "LD" 1 [4] [direct "E", direct "B"] ⟨"-", "-", "-", "-"⟩,
   row 0x59 "LD" 1 [4] [direct "E", direct "C"] ⟨"-", "-", "-", "-"⟩,
   row 0x5A "LD" 1 [4] [direct "E", direct "D"] ⟨"-", "-", "-", "-"⟩,
   row 0x5B "LD" 1 [4] [direct "E", direct "E"] ⟨"-", "-", "-", "-"⟩,
   row 0x5C "LD" 1 [4] [direct "E", direct "H"] ⟨"-", "-", "-", "-"⟩,
   row 0x5D "LD" 1 [4] [direct "E", direct "L"] ⟨"-", "-", "-", "-"⟩,
   row 0x5E "LD" 1 [8] [direct "E", address "HL"] ⟨"-", "-", "-", "-"⟩,
   row 0x5F "LD" 1 [4] [direct "E", direct "A"] ⟨"-", "-", "-", "-"⟩]

/-- The opcodes from `0x60`. -/
def first6 : Partition :=
  [row 0x60 "LD" 1 [4] [direct "H", direct "B"] ⟨"-", "-", "-", "-"⟩,
   row 0x61 "LD" 1 [4] [direct "H", direct "C"] ⟨"-", "-", "-", "-"⟩,
   row 0x62 "LD" 1 [4] [direct "H", direct "D"] ⟨"-", "-", "-", "-"⟩,
   row 0x63 "LD" 1 [4] [direct "H", direct "E"] ⟨"-", "-", "-", "-"⟩,
   row 0x64 "LD" 1 [4] [direct "H", direct "H"] ⟨"-", "-", "-", "-"⟩,
   row 0x65 "LD" 1 [4] [direct "H", direct "L"] ⟨"-", "-", "-", "-"⟩,
   row 0x66 "LD" 1 [8] [direct "H", address "HL"] ⟨"-", "-", "-", "-"⟩,
   row 0x67 "LD" 1 [4] [direct "H", direct "A"] ⟨"-", "-", "-", "-"⟩,
   row 0x68 "LD" 1 [4] [direct "L", direct "B"] ⟨"-", "-", "-", "-"⟩,
   row 0x69 "LD" 1 [4] [direct "L", direct "C"] ⟨"-", "-", "-", "-"⟩,
   row 0x6A "LD" 1 [4] [direct "L", direct "D"] ⟨"-", "-", "-", "-"⟩,
   row 0x6B "LD" 1 [4] [direct "L", direct "E"] ⟨"-", "-", "-", "-"⟩,
   row 0x6C "LD" 1 [4] [direct "L", direct "H"] ⟨"-", "-", "-", "-"⟩,
   row 0x6D "LD" 1 [4] [direct "L", direct "L"] ⟨"-", "-", "-", "-"⟩,
   row 0x6E "LD" 1 [8] [direct "L", address "HL"] ⟨"-", "-", "-", "-"⟩,
   row 0x6F "LD" 1 [4] [direct "L", direct "A"] ⟨"-", "-", "-", "-"⟩]

/-- The opcodes from `0x70`. -/
def first7 : Partition :=
  [row 0x70 "LD" 1 [8] [address "HL", direct "B"] ⟨"-", "-", "-", "-"⟩,
   row 0x71 "LD" 1 [8] [address "HL", direct "C"] ⟨"-", "-", "-", "-"⟩,
   row 0x72 "LD" 1 [8] [address "HL", direct "D"] ⟨"-", "-", "-", "-"⟩,
   row 0x73 "LD" 1 [8] [address "HL", direct "E"] ⟨"-", "-", "-", "-"⟩,
   row 0x74 "LD" 1 [8] [address "HL", direct "H"] ⟨"-", "-", "-", "-"⟩,
   row 0x75 "LD" 1 [8] [address "HL", direct "L"] ⟨"-", "-", "-", "-"⟩,
   row 0x76 "HALT" 1 [4] [] ⟨"-", "-", "-", "-"⟩,
   row 0x77 "LD" 1 [8] [address "HL", direct "A"] ⟨"-", "-", "-", "-"⟩,
   row 0x78 "LD" 1 [4] [direct "A", direct "B"] ⟨"-", "-", "-", "-"⟩,
   row 0x79 "LD" 1 [4] [direct "A", direct "C"] ⟨"-", "-", "-", "-"⟩,
   row 0x7A "LD" 1 [4] [direct "A", direct "D"] ⟨"-", "-", "-", "-"⟩,
   row 0x7B "LD" 1 [4] [direct "A", direct "E"] ⟨"-", "-", "-", "-"⟩,
   row 0x7C "LD" 1 [4] [direct "A", direct "H"] ⟨"-", "-", "-", "-"⟩,
   row 0x7D "LD" 1 [4] [direct "A", direct "L"] ⟨"-", "-", "-", "-"⟩,
   row 0x7E "LD" 1 [8] [direct "A", address "HL"] ⟨"-", "-", "-", "-"⟩,
   row 0x7F "LD" 1 [4] [direct "A", direct "A"] ⟨"-", "-", "-", "-"⟩]

/-- The opcodes from `0x80`. -/
def first8 : Partition :=
  [row 0x80 "ADD" 1 [4] [direct "A", direct "B"] ⟨"Z", "0", "H", "C"⟩,
   row 0x81 "ADD" 1 [4] [direct "A", direct "C"] ⟨"Z", "0", "H", "C"⟩,
   row 0x82 "ADD" 1 [4] [direct "A", direct "D"] ⟨"Z", "0", "H", "C"⟩,
   row 0x83 "ADD" 1 [4] [direct "A", direct "E"] ⟨"Z", "0", "H", "C"⟩,
   row 0x84 "ADD" 1 [4] [direct "A", direct "H"] ⟨"Z", "0", "H", "C"⟩,
   row 0x85 "ADD" 1 [4] [direct "A", direct "L"] ⟨"Z", "0", "H", "C"⟩,
   row 0x86 "ADD" 1 [8] [direct "A", address "HL"] ⟨"Z", "0", "H", "C"⟩,
   row 0x87 "ADD" 1 [4] [direct "A", direct "A"] ⟨"Z", "0", "H", "C"⟩,
   row 0x88 "ADC" 1 [4] [direct "A", direct "B"] ⟨"Z", "0", "H", "C"⟩,
   row 0x89 "ADC" 1 [4] [direct "A", direct "C"] ⟨"Z", "0", "H", "C"⟩,
   row 0x8A "ADC" 1 [4] [direct "A", direct "D"] ⟨"Z", "0", "H", "C"⟩,
   row 0x8B "ADC" 1 [4] [direct "A", direct "E"] ⟨"Z", "0", "H", "C"⟩,
   row 0x8C "ADC" 1 [4] [direct "A", direct "H"] ⟨"Z", "0", "H", "C"⟩,
   row 0x8D "ADC" 1 [4] [direct "A", direct "L"] ⟨"Z", "0", "H", "C"⟩,
   row 0x8E "ADC" 1 [8] [direct "A", address "HL"] ⟨"Z", "0", "H", "C"⟩,
   row 0x8F "ADC" 1 [4] [direct "A", direct "A"] ⟨"Z", "0", "H", "C"⟩]

/-- The opcodes from `0x90`. -/
def first9 : Partition :=
  [row 0x90 "SUB" 1 [4] [direct "A", direct "B"] ⟨"Z", "1", "H", "C"⟩,
   row 0x91 "SUB" 1 [4] [direct "A", direct "C"] ⟨"Z", "1", "H", "C"⟩,
   row 0x92 "SUB" 1 [4] [direct "A", direct "D"] ⟨"Z", "1", "H", "C"⟩,
   row 0x93 "SUB" 1 [4] [direct "A", direct "E"] ⟨"Z", "1", "H", "C"⟩,
   row 0x94 "SUB" 1 [4] [direct "A", direct "H"] ⟨"Z", "1", "H", "C"⟩,
   row 0x95 "SUB" 1 [4] [direct "A", direct "L"] ⟨"Z", "1", "H", "C"⟩,
   row 0x96 "SUB" 1 [8] [direct "A", address "HL"] ⟨"Z", "1", "H", "C"⟩,
   row 0x97 "SUB" 1 [4] [direct "A", direct "A"] ⟨"1", "1", "0", "0"⟩,
   row 0x98 "SBC" 1 [4] [direct "A", direct "B"] ⟨"Z", "1", "H", "C"⟩,
   row 0x99 "SBC" 1 [4] [direct "A", direct "C"] ⟨"Z", "1", "H", "C"⟩,
   row 0x9A "SBC" 1 [4] [direct "A", direct "D"] ⟨"Z", "1", "H", "C"⟩,
   row 0x9B "SBC" 1 [4] [direct "A", direct "E"] ⟨"Z", "1", "H", "C"⟩,
   row 0x9C "SBC" 1 [4] [direct "A", direct "H"] ⟨"Z", "1", "H", "C"⟩,
   row 0x9D "SBC" 1 [4] [direct "A", direct "L"] ⟨"Z", "1", "H", "C"⟩,
   row 0x9E "SBC" 1 [8] [direct "A", address "HL"] ⟨"Z", "1", "H", "C"⟩,
   row 0x9F "SBC" 1 [4] [direct "A", direct "A"] ⟨"Z", "1", "H", "-"⟩]

/-- The opcodes from `0xA0`. -/
def firstA : Partition :=
  [row 0xA0 "AND" 1 [4] [direct "A", direct "B"] ⟨"Z", "0", "1", "0"⟩,
   row 0xA1 "AND" 1 [4] [direct "A", direct "C"] ⟨"Z", "0", "1", "0"⟩,
   row 0xA2 "AND" 1 [4] [direct "A", direct "D"] ⟨"Z", "0", "1", "0"⟩,
   row 0xA3 "AND" 1 [4] [direct "A", direct "E"] ⟨"Z", "0", "1", "0"⟩,
   row 0xA4 "AND" 1 [4] [direct "A", direct "H"] ⟨"Z", "0", "1", "0"⟩,
   row 0xA5 "AND" 1 [4] [direct "A", direct "L"] ⟨"Z", "0", "1", "0"⟩,
   row 0xA6 "AND" 1 [8] [direct "A", address "HL"] ⟨"Z", "0", "1", "0"⟩,
   row 0xA7 "AND" 1 [4] [direct "A", direct "A"] ⟨"Z", "0", "1", "0"⟩,
   row 0xA8 "XOR" 1 [4] [direct "A", direct "B"] ⟨"Z", "0", "0", "0"⟩,
   row 0xA9 "XOR" 1 [4] [direct "A", direct "C"] ⟨"Z", "0", "0", "0"⟩,
   row 0xAA "XOR" 1 [4] [direct "A", direct "D"] ⟨"Z", "0", "0", "0"⟩,
   row 0xAB "XOR" 1 [4] [direct "A", direct "E"] ⟨"Z", "0", "0", "0"⟩,
   row 0xAC "XOR" 1 [4] [direct "A", direct "H"] ⟨"Z", "0", "0", "0"⟩,
   row 0xAD "XOR" 1 [4] [direct "A", direct "L"] ⟨"Z", "0", "0", "0"⟩,
   row 0xAE "XOR" 1 [8] [direct "A", address "HL"] ⟨"Z", "0", "0", "0"⟩,
   row 0xAF "XOR" 1 [4] [direct "A", direct "A"] ⟨"1", "0", "0", "0"⟩]

/-- The opcodes from `0xB0`. -/
def firstB : Partition :=
  [row 0xB0 "OR" 1 [4] [direct "A", direct "B"] ⟨"Z", "0", "0", "0"⟩,
   row 0xB1 "OR" 1 [4] [direct "A", direct "C"] ⟨"Z", "0", "0", "0"⟩,
   row 0xB2 "OR" 1 [4] [direct "A", direct "D"] ⟨"Z", "0", "0", "0"⟩,
   row 0xB3 "OR" 1 [4] [direct "A", direct "E"] ⟨"Z", "0", "0", "0"⟩,
   row 0xB4 "OR" 1 [4] [direct "A", direct "H"] ⟨"Z", "0", "0", "0"⟩,
   row 0xB5 "OR" 1 [4] [direct "A", direct "L"] ⟨"Z", "0", "0", "0"⟩,
   row 0xB6 "OR" 1 [8] [direct "A", address "HL"] ⟨"Z", "0", "0", "0"⟩,
   row 0xB7 "OR" 1 [4] [direct "A", direct "A"] ⟨"Z", "0", "0", "0"⟩,
   row 0xB8 "CP" 1 [4] [direct "A", direct "B"] ⟨"Z", "1", "H", "C"⟩,
   row 0xB9 "CP" 1 [4] [direct "A", direct "C"] ⟨"Z", "1", "H", "C"⟩,
   row 0xBA "CP" 1 [4] [direct "A", direct "D"] ⟨"Z", "1", "H", "C"⟩,
   row 0xBB "CP" 1 [4] [direct "A", direct "E"] ⟨"Z", "1", "H", "C"⟩,
   row 0xBC "CP" 1 [4] [direct "A", direct "H"] ⟨"Z", "1", "H", "C"⟩,
   row 0xBD "CP" 1 [4] [direct "A", direct "L"] ⟨"Z", "1", "H", "C"⟩,
   row 0xBE "CP" 1 [8] [direct "A", address "HL"] ⟨"Z", "1", "H", "C"⟩,
   row 0xBF "CP" 1 [4] [direct "A", direct "A"] ⟨"1", "1", "0", "0"⟩]

/-- The opcodes from `0xC0`. -/
def firstC : Partition :=
  [row 0xC0 "RET" 1 [20, 8] [direct "NZ"] ⟨"-", "-", "-", "-"⟩,
   row 0xC1 "POP" 1 [12] [direct "BC"] ⟨"-", "-", "-", "-"⟩,
   row 0xC2 "JP" 3 [16, 12] [direct "NZ", direct "a16"] ⟨"-", "-", "-", "-"⟩,
   row 0xC3 "JP" 3 [16] [direct "a16"] ⟨"-", "-", "-", "-"⟩,
   row 0xC4 "CALL" 3 [24, 12] [direct "NZ", direct "a16"] ⟨"-", "-", "-", "-"⟩,
   row 0xC5 "PUSH" 1 [16] [direct "BC"] ⟨"-", "-", "-", "-"⟩,
   row 0xC6 "ADD" 2 [8] [direct "A", direct "n8"] ⟨"Z", "0", "H", "C"⟩,
   row 0xC7 "RST" 1 [16] [direct "$00"] ⟨"-", "-", "-", "-"⟩,
   row 0xC8 "RET" 1 [20, 8] [direct "Z"] ⟨"-", "-", "-", "-"⟩,
   row 0xC9 "RET" 1 [16] [] ⟨"-", "-", "-", "-"⟩,
   row 0xCA "JP" 3 [16, 12] [direct "Z", direct "a16"] ⟨"-", "-", "-", "-"⟩,
   row 0xCC "CALL" 3 [24, 12] [direct "Z", direct "a16"] ⟨"-", "-", "-", "-"⟩,
   row 0xCD "CALL" 3 [24] [direct "a16"] ⟨"-", "-", "-", "-"⟩,
   row 0xCE "ADC" 2 [8] [direct "A", direct "n8"] ⟨"Z", "0", "H", "C"⟩,
   row 0xCF "RST" 1 [16] [direct "$08"] ⟨"-", "-", "-", "-"⟩]

/-- The opcodes from `0xD0`. -/
def firstD : Partition :=
  [row 0xD0 "RET" 1 [20, 8] [direct "NC"] ⟨"-", "-", "-", "-"⟩,
   row 0xD1 "POP" 1 [12] [direct "DE"] ⟨"-", "-", "-", "-"⟩,
   row 0xD2 "JP" 3 [16, 12] [direct "NC", direct "a16"] ⟨"-", "-", "-", "-"⟩,
   row 0xD4 "CALL" 3 [24, 12] [direct "NC", direct "a16"] ⟨"-", "-", "-", "-"⟩,
   row 0xD5 "PUSH" 1 [16] [direct "DE"] ⟨"-", "-", "-", "-"⟩,
   row 0xD6 "SUB" 2 [8] [direct "A", direct "n8"] ⟨"Z", "1", "H", "C"⟩,
   row 0xD7 "RST" 1 [16] [direct "$10"] ⟨"-", "-", "-", "-"⟩,
   row 0xD8 "RET" 1 [20, 8] [direct "C"] ⟨"-", "-", "-", "-"⟩,
   row 0xD9 "RETI" 1 [16] [] ⟨"-", "-", "-", "-"⟩,
   row 0xDA "JP" 3 [16, 12] [direct "C", direct "a16"] ⟨"-", "-", "-", "-"⟩,
   row 0xDC "CALL" 3 [24, 12] [direct "C", direct "a16"] ⟨"-", "-", "-", "-"⟩,
   row 0xDE "SBC" 2 [8] [direct "A", direct "n8"] ⟨"Z", "1", "H", "C"⟩,
   row 0xDF "RST" 1 [16] [direct "$18"] ⟨"-", "-", "-", "-"⟩]

/-- The opcodes from `0xE0`. -/
def firstE : Partition :=
  [row 0xE0 "LDH" 2 [12] [address "a8", direct "A"] ⟨"-", "-", "-", "-"⟩,
   row 0xE1 "POP" 1 [12] [direct "HL"] ⟨"-", "-", "-", "-"⟩,
   row 0xE2 "LD" 1 [8] [address "C", direct "A"] ⟨"-", "-", "-", "-"⟩,
   row 0xE5 "PUSH" 1 [16] [direct "HL"] ⟨"-", "-", "-", "-"⟩,
   row 0xE6 "AND" 2 [8] [direct "A", direct "n8"] ⟨"Z", "0", "1", "0"⟩,
   row 0xE7 "RST" 1 [16] [direct "$20"] ⟨"-", "-", "-", "-"⟩,
   row 0xE8 "ADD" 2 [16] [direct "SP", direct "e8"] ⟨"0", "0", "H", "C"⟩,
   row 0xE9 "JP" 1 [4] [direct "HL"] ⟨"-", "-", "-", "-"⟩,
   row 0xEA "LD" 3 [16] [address "a16", direct "A"] ⟨"-", "-", "-", "-"⟩,
   row 0xEE "XOR" 2 [8] [direct "A", direct "n8"] ⟨"Z", "0", "0", "0"⟩,
   row 0xEF "RST" 1 [16] [direct "$28"] ⟨"-", "-", "-", "-"⟩]

/-- The opcodes from `0xF0`. -/
def firstF : Partition :=
  [row 0xF0 "LDH" 2 [12] [direct "A", address "a8"] ⟨"-", "-", "-", "-"⟩,
   row 0xF1 "POP" 1 [12] [direct "AF"] ⟨"Z", "N", "H", "C"⟩,
   row 0xF2 "LD" 1 [8] [direct "A", address "C"] ⟨"-", "-", "-", "-"⟩,
   row 0xF5 "PUSH" 1 [16] [direct "AF"] ⟨"-", "-", "-", "-"⟩,
   row 0xF6 "OR" 2 [8] [direct "A", direct "n8"] ⟨"Z", "0", "0", "0"⟩,
   row 0xF7 "RST" 1 [16] [direct "$30"] ⟨"-", "-", "-", "-"⟩,
   row 0xF8 "LD" 2 [12] [direct "HL", direct "SP", direct "e8"] ⟨"0", "0", "H", "C"⟩,
   row 0xF9 "LD" 1 [8] [direct "SP", direct "HL"] ⟨"-", "-", "-", "-"⟩,
   row 0xFA "LD" 3 [16] [direct "A", address "a16"] ⟨"-", "-", "-", "-"⟩,
   row 0xFE "CP" 2 [8] [direct "A", direct "n8"] ⟨"Z", "1", "H", "C"⟩,
   row 0xFF "RST" 1 [16] [direct "$38"] ⟨"-", "-", "-", "-"⟩]

/-- The first page, in order. -/
def firstPage : Partition :=
  first0 ++ first1 ++ first2 ++ first3 ++ first4 ++ first5 ++ first6 ++ first7 ++ first8 ++
    first9 ++ firstA ++ firstB ++ firstC ++ firstD ++ firstE ++ firstF

end Sm83Codegen.InstructionSet
