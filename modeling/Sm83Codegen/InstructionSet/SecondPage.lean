import Sm83Codegen.InstructionSet.Row

/-!
# The instruction set: second page

The opcodes after the byte `0xCB`: rotates and shifts, and the tests and changes of single bits.
-/

namespace Sm83Codegen.InstructionSet

/-- The opcodes from `0x00`. -/
def second0 : Partition :=
  [row 0x00 "RLC" 2 [8] [direct "B"] ⟨"Z", "0", "0", "C"⟩,
   row 0x01 "RLC" 2 [8] [direct "C"] ⟨"Z", "0", "0", "C"⟩,
   row 0x02 "RLC" 2 [8] [direct "D"] ⟨"Z", "0", "0", "C"⟩,
   row 0x03 "RLC" 2 [8] [direct "E"] ⟨"Z", "0", "0", "C"⟩,
   row 0x04 "RLC" 2 [8] [direct "H"] ⟨"Z", "0", "0", "C"⟩,
   row 0x05 "RLC" 2 [8] [direct "L"] ⟨"Z", "0", "0", "C"⟩,
   row 0x06 "RLC" 2 [16] [address "HL"] ⟨"Z", "0", "0", "C"⟩,
   row 0x07 "RLC" 2 [8] [direct "A"] ⟨"Z", "0", "0", "C"⟩,
   row 0x08 "RRC" 2 [8] [direct "B"] ⟨"Z", "0", "0", "C"⟩,
   row 0x09 "RRC" 2 [8] [direct "C"] ⟨"Z", "0", "0", "C"⟩,
   row 0x0A "RRC" 2 [8] [direct "D"] ⟨"Z", "0", "0", "C"⟩,
   row 0x0B "RRC" 2 [8] [direct "E"] ⟨"Z", "0", "0", "C"⟩,
   row 0x0C "RRC" 2 [8] [direct "H"] ⟨"Z", "0", "0", "C"⟩,
   row 0x0D "RRC" 2 [8] [direct "L"] ⟨"Z", "0", "0", "C"⟩,
   row 0x0E "RRC" 2 [16] [address "HL"] ⟨"Z", "0", "0", "C"⟩,
   row 0x0F "RRC" 2 [8] [direct "A"] ⟨"Z", "0", "0", "C"⟩]

/-- The opcodes from `0x10`. -/
def second1 : Partition :=
  [row 0x10 "RL" 2 [8] [direct "B"] ⟨"Z", "0", "0", "C"⟩,
   row 0x11 "RL" 2 [8] [direct "C"] ⟨"Z", "0", "0", "C"⟩,
   row 0x12 "RL" 2 [8] [direct "D"] ⟨"Z", "0", "0", "C"⟩,
   row 0x13 "RL" 2 [8] [direct "E"] ⟨"Z", "0", "0", "C"⟩,
   row 0x14 "RL" 2 [8] [direct "H"] ⟨"Z", "0", "0", "C"⟩,
   row 0x15 "RL" 2 [8] [direct "L"] ⟨"Z", "0", "0", "C"⟩,
   row 0x16 "RL" 2 [16] [address "HL"] ⟨"Z", "0", "0", "C"⟩,
   row 0x17 "RL" 2 [8] [direct "A"] ⟨"Z", "0", "0", "C"⟩,
   row 0x18 "RR" 2 [8] [direct "B"] ⟨"Z", "0", "0", "C"⟩,
   row 0x19 "RR" 2 [8] [direct "C"] ⟨"Z", "0", "0", "C"⟩,
   row 0x1A "RR" 2 [8] [direct "D"] ⟨"Z", "0", "0", "C"⟩,
   row 0x1B "RR" 2 [8] [direct "E"] ⟨"Z", "0", "0", "C"⟩,
   row 0x1C "RR" 2 [8] [direct "H"] ⟨"Z", "0", "0", "C"⟩,
   row 0x1D "RR" 2 [8] [direct "L"] ⟨"Z", "0", "0", "C"⟩,
   row 0x1E "RR" 2 [16] [address "HL"] ⟨"Z", "0", "0", "C"⟩,
   row 0x1F "RR" 2 [8] [direct "A"] ⟨"Z", "0", "0", "C"⟩]

/-- The opcodes from `0x20`. -/
def second2 : Partition :=
  [row 0x20 "SLA" 2 [8] [direct "B"] ⟨"Z", "0", "0", "C"⟩,
   row 0x21 "SLA" 2 [8] [direct "C"] ⟨"Z", "0", "0", "C"⟩,
   row 0x22 "SLA" 2 [8] [direct "D"] ⟨"Z", "0", "0", "C"⟩,
   row 0x23 "SLA" 2 [8] [direct "E"] ⟨"Z", "0", "0", "C"⟩,
   row 0x24 "SLA" 2 [8] [direct "H"] ⟨"Z", "0", "0", "C"⟩,
   row 0x25 "SLA" 2 [8] [direct "L"] ⟨"Z", "0", "0", "C"⟩,
   row 0x26 "SLA" 2 [16] [address "HL"] ⟨"Z", "0", "0", "C"⟩,
   row 0x27 "SLA" 2 [8] [direct "A"] ⟨"Z", "0", "0", "C"⟩,
   row 0x28 "SRA" 2 [8] [direct "B"] ⟨"Z", "0", "0", "C"⟩,
   row 0x29 "SRA" 2 [8] [direct "C"] ⟨"Z", "0", "0", "C"⟩,
   row 0x2A "SRA" 2 [8] [direct "D"] ⟨"Z", "0", "0", "C"⟩,
   row 0x2B "SRA" 2 [8] [direct "E"] ⟨"Z", "0", "0", "C"⟩,
   row 0x2C "SRA" 2 [8] [direct "H"] ⟨"Z", "0", "0", "C"⟩,
   row 0x2D "SRA" 2 [8] [direct "L"] ⟨"Z", "0", "0", "C"⟩,
   row 0x2E "SRA" 2 [16] [address "HL"] ⟨"Z", "0", "0", "C"⟩,
   row 0x2F "SRA" 2 [8] [direct "A"] ⟨"Z", "0", "0", "C"⟩]

/-- The opcodes from `0x30`. -/
def second3 : Partition :=
  [row 0x30 "SWAP" 2 [8] [direct "B"] ⟨"Z", "0", "0", "0"⟩,
   row 0x31 "SWAP" 2 [8] [direct "C"] ⟨"Z", "0", "0", "0"⟩,
   row 0x32 "SWAP" 2 [8] [direct "D"] ⟨"Z", "0", "0", "0"⟩,
   row 0x33 "SWAP" 2 [8] [direct "E"] ⟨"Z", "0", "0", "0"⟩,
   row 0x34 "SWAP" 2 [8] [direct "H"] ⟨"Z", "0", "0", "0"⟩,
   row 0x35 "SWAP" 2 [8] [direct "L"] ⟨"Z", "0", "0", "0"⟩,
   row 0x36 "SWAP" 2 [16] [address "HL"] ⟨"Z", "0", "0", "0"⟩,
   row 0x37 "SWAP" 2 [8] [direct "A"] ⟨"Z", "0", "0", "0"⟩,
   row 0x38 "SRL" 2 [8] [direct "B"] ⟨"Z", "0", "0", "C"⟩,
   row 0x39 "SRL" 2 [8] [direct "C"] ⟨"Z", "0", "0", "C"⟩,
   row 0x3A "SRL" 2 [8] [direct "D"] ⟨"Z", "0", "0", "C"⟩,
   row 0x3B "SRL" 2 [8] [direct "E"] ⟨"Z", "0", "0", "C"⟩,
   row 0x3C "SRL" 2 [8] [direct "H"] ⟨"Z", "0", "0", "C"⟩,
   row 0x3D "SRL" 2 [8] [direct "L"] ⟨"Z", "0", "0", "C"⟩,
   row 0x3E "SRL" 2 [16] [address "HL"] ⟨"Z", "0", "0", "C"⟩,
   row 0x3F "SRL" 2 [8] [direct "A"] ⟨"Z", "0", "0", "C"⟩]

/-- The opcodes from `0x40`. -/
def second4 : Partition :=
  [row 0x40 "BIT" 2 [8] [direct "0", direct "B"] ⟨"Z", "0", "1", "-"⟩,
   row 0x41 "BIT" 2 [8] [direct "0", direct "C"] ⟨"Z", "0", "1", "-"⟩,
   row 0x42 "BIT" 2 [8] [direct "0", direct "D"] ⟨"Z", "0", "1", "-"⟩,
   row 0x43 "BIT" 2 [8] [direct "0", direct "E"] ⟨"Z", "0", "1", "-"⟩,
   row 0x44 "BIT" 2 [8] [direct "0", direct "H"] ⟨"Z", "0", "1", "-"⟩,
   row 0x45 "BIT" 2 [8] [direct "0", direct "L"] ⟨"Z", "0", "1", "-"⟩,
   row 0x46 "BIT" 2 [12] [direct "0", address "HL"] ⟨"Z", "0", "1", "-"⟩,
   row 0x47 "BIT" 2 [8] [direct "0", direct "A"] ⟨"Z", "0", "1", "-"⟩,
   row 0x48 "BIT" 2 [8] [direct "1", direct "B"] ⟨"Z", "0", "1", "-"⟩,
   row 0x49 "BIT" 2 [8] [direct "1", direct "C"] ⟨"Z", "0", "1", "-"⟩,
   row 0x4A "BIT" 2 [8] [direct "1", direct "D"] ⟨"Z", "0", "1", "-"⟩,
   row 0x4B "BIT" 2 [8] [direct "1", direct "E"] ⟨"Z", "0", "1", "-"⟩,
   row 0x4C "BIT" 2 [8] [direct "1", direct "H"] ⟨"Z", "0", "1", "-"⟩,
   row 0x4D "BIT" 2 [8] [direct "1", direct "L"] ⟨"Z", "0", "1", "-"⟩,
   row 0x4E "BIT" 2 [12] [direct "1", address "HL"] ⟨"Z", "0", "1", "-"⟩,
   row 0x4F "BIT" 2 [8] [direct "1", direct "A"] ⟨"Z", "0", "1", "-"⟩]

/-- The opcodes from `0x50`. -/
def second5 : Partition :=
  [row 0x50 "BIT" 2 [8] [direct "2", direct "B"] ⟨"Z", "0", "1", "-"⟩,
   row 0x51 "BIT" 2 [8] [direct "2", direct "C"] ⟨"Z", "0", "1", "-"⟩,
   row 0x52 "BIT" 2 [8] [direct "2", direct "D"] ⟨"Z", "0", "1", "-"⟩,
   row 0x53 "BIT" 2 [8] [direct "2", direct "E"] ⟨"Z", "0", "1", "-"⟩,
   row 0x54 "BIT" 2 [8] [direct "2", direct "H"] ⟨"Z", "0", "1", "-"⟩,
   row 0x55 "BIT" 2 [8] [direct "2", direct "L"] ⟨"Z", "0", "1", "-"⟩,
   row 0x56 "BIT" 2 [12] [direct "2", address "HL"] ⟨"Z", "0", "1", "-"⟩,
   row 0x57 "BIT" 2 [8] [direct "2", direct "A"] ⟨"Z", "0", "1", "-"⟩,
   row 0x58 "BIT" 2 [8] [direct "3", direct "B"] ⟨"Z", "0", "1", "-"⟩,
   row 0x59 "BIT" 2 [8] [direct "3", direct "C"] ⟨"Z", "0", "1", "-"⟩,
   row 0x5A "BIT" 2 [8] [direct "3", direct "D"] ⟨"Z", "0", "1", "-"⟩,
   row 0x5B "BIT" 2 [8] [direct "3", direct "E"] ⟨"Z", "0", "1", "-"⟩,
   row 0x5C "BIT" 2 [8] [direct "3", direct "H"] ⟨"Z", "0", "1", "-"⟩,
   row 0x5D "BIT" 2 [8] [direct "3", direct "L"] ⟨"Z", "0", "1", "-"⟩,
   row 0x5E "BIT" 2 [12] [direct "3", address "HL"] ⟨"Z", "0", "1", "-"⟩,
   row 0x5F "BIT" 2 [8] [direct "3", direct "A"] ⟨"Z", "0", "1", "-"⟩]

/-- The opcodes from `0x60`. -/
def second6 : Partition :=
  [row 0x60 "BIT" 2 [8] [direct "4", direct "B"] ⟨"Z", "0", "1", "-"⟩,
   row 0x61 "BIT" 2 [8] [direct "4", direct "C"] ⟨"Z", "0", "1", "-"⟩,
   row 0x62 "BIT" 2 [8] [direct "4", direct "D"] ⟨"Z", "0", "1", "-"⟩,
   row 0x63 "BIT" 2 [8] [direct "4", direct "E"] ⟨"Z", "0", "1", "-"⟩,
   row 0x64 "BIT" 2 [8] [direct "4", direct "H"] ⟨"Z", "0", "1", "-"⟩,
   row 0x65 "BIT" 2 [8] [direct "4", direct "L"] ⟨"Z", "0", "1", "-"⟩,
   row 0x66 "BIT" 2 [12] [direct "4", address "HL"] ⟨"Z", "0", "1", "-"⟩,
   row 0x67 "BIT" 2 [8] [direct "4", direct "A"] ⟨"Z", "0", "1", "-"⟩,
   row 0x68 "BIT" 2 [8] [direct "5", direct "B"] ⟨"Z", "0", "1", "-"⟩,
   row 0x69 "BIT" 2 [8] [direct "5", direct "C"] ⟨"Z", "0", "1", "-"⟩,
   row 0x6A "BIT" 2 [8] [direct "5", direct "D"] ⟨"Z", "0", "1", "-"⟩,
   row 0x6B "BIT" 2 [8] [direct "5", direct "E"] ⟨"Z", "0", "1", "-"⟩,
   row 0x6C "BIT" 2 [8] [direct "5", direct "H"] ⟨"Z", "0", "1", "-"⟩,
   row 0x6D "BIT" 2 [8] [direct "5", direct "L"] ⟨"Z", "0", "1", "-"⟩,
   row 0x6E "BIT" 2 [12] [direct "5", address "HL"] ⟨"Z", "0", "1", "-"⟩,
   row 0x6F "BIT" 2 [8] [direct "5", direct "A"] ⟨"Z", "0", "1", "-"⟩]

/-- The opcodes from `0x70`. -/
def second7 : Partition :=
  [row 0x70 "BIT" 2 [8] [direct "6", direct "B"] ⟨"Z", "0", "1", "-"⟩,
   row 0x71 "BIT" 2 [8] [direct "6", direct "C"] ⟨"Z", "0", "1", "-"⟩,
   row 0x72 "BIT" 2 [8] [direct "6", direct "D"] ⟨"Z", "0", "1", "-"⟩,
   row 0x73 "BIT" 2 [8] [direct "6", direct "E"] ⟨"Z", "0", "1", "-"⟩,
   row 0x74 "BIT" 2 [8] [direct "6", direct "H"] ⟨"Z", "0", "1", "-"⟩,
   row 0x75 "BIT" 2 [8] [direct "6", direct "L"] ⟨"Z", "0", "1", "-"⟩,
   row 0x76 "BIT" 2 [12] [direct "6", address "HL"] ⟨"Z", "0", "1", "-"⟩,
   row 0x77 "BIT" 2 [8] [direct "6", direct "A"] ⟨"Z", "0", "1", "-"⟩,
   row 0x78 "BIT" 2 [8] [direct "7", direct "B"] ⟨"Z", "0", "1", "-"⟩,
   row 0x79 "BIT" 2 [8] [direct "7", direct "C"] ⟨"Z", "0", "1", "-"⟩,
   row 0x7A "BIT" 2 [8] [direct "7", direct "D"] ⟨"Z", "0", "1", "-"⟩,
   row 0x7B "BIT" 2 [8] [direct "7", direct "E"] ⟨"Z", "0", "1", "-"⟩,
   row 0x7C "BIT" 2 [8] [direct "7", direct "H"] ⟨"Z", "0", "1", "-"⟩,
   row 0x7D "BIT" 2 [8] [direct "7", direct "L"] ⟨"Z", "0", "1", "-"⟩,
   row 0x7E "BIT" 2 [12] [direct "7", address "HL"] ⟨"Z", "0", "1", "-"⟩,
   row 0x7F "BIT" 2 [8] [direct "7", direct "A"] ⟨"Z", "0", "1", "-"⟩]

/-- The opcodes from `0x80`. -/
def second8 : Partition :=
  [row 0x80 "RES" 2 [8] [direct "0", direct "B"] ⟨"-", "-", "-", "-"⟩,
   row 0x81 "RES" 2 [8] [direct "0", direct "C"] ⟨"-", "-", "-", "-"⟩,
   row 0x82 "RES" 2 [8] [direct "0", direct "D"] ⟨"-", "-", "-", "-"⟩,
   row 0x83 "RES" 2 [8] [direct "0", direct "E"] ⟨"-", "-", "-", "-"⟩,
   row 0x84 "RES" 2 [8] [direct "0", direct "H"] ⟨"-", "-", "-", "-"⟩,
   row 0x85 "RES" 2 [8] [direct "0", direct "L"] ⟨"-", "-", "-", "-"⟩,
   row 0x86 "RES" 2 [16] [direct "0", address "HL"] ⟨"-", "-", "-", "-"⟩,
   row 0x87 "RES" 2 [8] [direct "0", direct "A"] ⟨"-", "-", "-", "-"⟩,
   row 0x88 "RES" 2 [8] [direct "1", direct "B"] ⟨"-", "-", "-", "-"⟩,
   row 0x89 "RES" 2 [8] [direct "1", direct "C"] ⟨"-", "-", "-", "-"⟩,
   row 0x8A "RES" 2 [8] [direct "1", direct "D"] ⟨"-", "-", "-", "-"⟩,
   row 0x8B "RES" 2 [8] [direct "1", direct "E"] ⟨"-", "-", "-", "-"⟩,
   row 0x8C "RES" 2 [8] [direct "1", direct "H"] ⟨"-", "-", "-", "-"⟩,
   row 0x8D "RES" 2 [8] [direct "1", direct "L"] ⟨"-", "-", "-", "-"⟩,
   row 0x8E "RES" 2 [16] [direct "1", address "HL"] ⟨"-", "-", "-", "-"⟩,
   row 0x8F "RES" 2 [8] [direct "1", direct "A"] ⟨"-", "-", "-", "-"⟩]

/-- The opcodes from `0x90`. -/
def second9 : Partition :=
  [row 0x90 "RES" 2 [8] [direct "2", direct "B"] ⟨"-", "-", "-", "-"⟩,
   row 0x91 "RES" 2 [8] [direct "2", direct "C"] ⟨"-", "-", "-", "-"⟩,
   row 0x92 "RES" 2 [8] [direct "2", direct "D"] ⟨"-", "-", "-", "-"⟩,
   row 0x93 "RES" 2 [8] [direct "2", direct "E"] ⟨"-", "-", "-", "-"⟩,
   row 0x94 "RES" 2 [8] [direct "2", direct "H"] ⟨"-", "-", "-", "-"⟩,
   row 0x95 "RES" 2 [8] [direct "2", direct "L"] ⟨"-", "-", "-", "-"⟩,
   row 0x96 "RES" 2 [16] [direct "2", address "HL"] ⟨"-", "-", "-", "-"⟩,
   row 0x97 "RES" 2 [8] [direct "2", direct "A"] ⟨"-", "-", "-", "-"⟩,
   row 0x98 "RES" 2 [8] [direct "3", direct "B"] ⟨"-", "-", "-", "-"⟩,
   row 0x99 "RES" 2 [8] [direct "3", direct "C"] ⟨"-", "-", "-", "-"⟩,
   row 0x9A "RES" 2 [8] [direct "3", direct "D"] ⟨"-", "-", "-", "-"⟩,
   row 0x9B "RES" 2 [8] [direct "3", direct "E"] ⟨"-", "-", "-", "-"⟩,
   row 0x9C "RES" 2 [8] [direct "3", direct "H"] ⟨"-", "-", "-", "-"⟩,
   row 0x9D "RES" 2 [8] [direct "3", direct "L"] ⟨"-", "-", "-", "-"⟩,
   row 0x9E "RES" 2 [16] [direct "3", address "HL"] ⟨"-", "-", "-", "-"⟩,
   row 0x9F "RES" 2 [8] [direct "3", direct "A"] ⟨"-", "-", "-", "-"⟩]

/-- The opcodes from `0xA0`. -/
def secondA : Partition :=
  [row 0xA0 "RES" 2 [8] [direct "4", direct "B"] ⟨"-", "-", "-", "-"⟩,
   row 0xA1 "RES" 2 [8] [direct "4", direct "C"] ⟨"-", "-", "-", "-"⟩,
   row 0xA2 "RES" 2 [8] [direct "4", direct "D"] ⟨"-", "-", "-", "-"⟩,
   row 0xA3 "RES" 2 [8] [direct "4", direct "E"] ⟨"-", "-", "-", "-"⟩,
   row 0xA4 "RES" 2 [8] [direct "4", direct "H"] ⟨"-", "-", "-", "-"⟩,
   row 0xA5 "RES" 2 [8] [direct "4", direct "L"] ⟨"-", "-", "-", "-"⟩,
   row 0xA6 "RES" 2 [16] [direct "4", address "HL"] ⟨"-", "-", "-", "-"⟩,
   row 0xA7 "RES" 2 [8] [direct "4", direct "A"] ⟨"-", "-", "-", "-"⟩,
   row 0xA8 "RES" 2 [8] [direct "5", direct "B"] ⟨"-", "-", "-", "-"⟩,
   row 0xA9 "RES" 2 [8] [direct "5", direct "C"] ⟨"-", "-", "-", "-"⟩,
   row 0xAA "RES" 2 [8] [direct "5", direct "D"] ⟨"-", "-", "-", "-"⟩,
   row 0xAB "RES" 2 [8] [direct "5", direct "E"] ⟨"-", "-", "-", "-"⟩,
   row 0xAC "RES" 2 [8] [direct "5", direct "H"] ⟨"-", "-", "-", "-"⟩,
   row 0xAD "RES" 2 [8] [direct "5", direct "L"] ⟨"-", "-", "-", "-"⟩,
   row 0xAE "RES" 2 [16] [direct "5", address "HL"] ⟨"-", "-", "-", "-"⟩,
   row 0xAF "RES" 2 [8] [direct "5", direct "A"] ⟨"-", "-", "-", "-"⟩]

/-- The opcodes from `0xB0`. -/
def secondB : Partition :=
  [row 0xB0 "RES" 2 [8] [direct "6", direct "B"] ⟨"-", "-", "-", "-"⟩,
   row 0xB1 "RES" 2 [8] [direct "6", direct "C"] ⟨"-", "-", "-", "-"⟩,
   row 0xB2 "RES" 2 [8] [direct "6", direct "D"] ⟨"-", "-", "-", "-"⟩,
   row 0xB3 "RES" 2 [8] [direct "6", direct "E"] ⟨"-", "-", "-", "-"⟩,
   row 0xB4 "RES" 2 [8] [direct "6", direct "H"] ⟨"-", "-", "-", "-"⟩,
   row 0xB5 "RES" 2 [8] [direct "6", direct "L"] ⟨"-", "-", "-", "-"⟩,
   row 0xB6 "RES" 2 [16] [direct "6", address "HL"] ⟨"-", "-", "-", "-"⟩,
   row 0xB7 "RES" 2 [8] [direct "6", direct "A"] ⟨"-", "-", "-", "-"⟩,
   row 0xB8 "RES" 2 [8] [direct "7", direct "B"] ⟨"-", "-", "-", "-"⟩,
   row 0xB9 "RES" 2 [8] [direct "7", direct "C"] ⟨"-", "-", "-", "-"⟩,
   row 0xBA "RES" 2 [8] [direct "7", direct "D"] ⟨"-", "-", "-", "-"⟩,
   row 0xBB "RES" 2 [8] [direct "7", direct "E"] ⟨"-", "-", "-", "-"⟩,
   row 0xBC "RES" 2 [8] [direct "7", direct "H"] ⟨"-", "-", "-", "-"⟩,
   row 0xBD "RES" 2 [8] [direct "7", direct "L"] ⟨"-", "-", "-", "-"⟩,
   row 0xBE "RES" 2 [16] [direct "7", address "HL"] ⟨"-", "-", "-", "-"⟩,
   row 0xBF "RES" 2 [8] [direct "7", direct "A"] ⟨"-", "-", "-", "-"⟩]

/-- The opcodes from `0xC0`. -/
def secondC : Partition :=
  [row 0xC0 "SET" 2 [8] [direct "0", direct "B"] ⟨"-", "-", "-", "-"⟩,
   row 0xC1 "SET" 2 [8] [direct "0", direct "C"] ⟨"-", "-", "-", "-"⟩,
   row 0xC2 "SET" 2 [8] [direct "0", direct "D"] ⟨"-", "-", "-", "-"⟩,
   row 0xC3 "SET" 2 [8] [direct "0", direct "E"] ⟨"-", "-", "-", "-"⟩,
   row 0xC4 "SET" 2 [8] [direct "0", direct "H"] ⟨"-", "-", "-", "-"⟩,
   row 0xC5 "SET" 2 [8] [direct "0", direct "L"] ⟨"-", "-", "-", "-"⟩,
   row 0xC6 "SET" 2 [16] [direct "0", address "HL"] ⟨"-", "-", "-", "-"⟩,
   row 0xC7 "SET" 2 [8] [direct "0", direct "A"] ⟨"-", "-", "-", "-"⟩,
   row 0xC8 "SET" 2 [8] [direct "1", direct "B"] ⟨"-", "-", "-", "-"⟩,
   row 0xC9 "SET" 2 [8] [direct "1", direct "C"] ⟨"-", "-", "-", "-"⟩,
   row 0xCA "SET" 2 [8] [direct "1", direct "D"] ⟨"-", "-", "-", "-"⟩,
   row 0xCB "SET" 2 [8] [direct "1", direct "E"] ⟨"-", "-", "-", "-"⟩,
   row 0xCC "SET" 2 [8] [direct "1", direct "H"] ⟨"-", "-", "-", "-"⟩,
   row 0xCD "SET" 2 [8] [direct "1", direct "L"] ⟨"-", "-", "-", "-"⟩,
   row 0xCE "SET" 2 [16] [direct "1", address "HL"] ⟨"-", "-", "-", "-"⟩,
   row 0xCF "SET" 2 [8] [direct "1", direct "A"] ⟨"-", "-", "-", "-"⟩]

/-- The opcodes from `0xD0`. -/
def secondD : Partition :=
  [row 0xD0 "SET" 2 [8] [direct "2", direct "B"] ⟨"-", "-", "-", "-"⟩,
   row 0xD1 "SET" 2 [8] [direct "2", direct "C"] ⟨"-", "-", "-", "-"⟩,
   row 0xD2 "SET" 2 [8] [direct "2", direct "D"] ⟨"-", "-", "-", "-"⟩,
   row 0xD3 "SET" 2 [8] [direct "2", direct "E"] ⟨"-", "-", "-", "-"⟩,
   row 0xD4 "SET" 2 [8] [direct "2", direct "H"] ⟨"-", "-", "-", "-"⟩,
   row 0xD5 "SET" 2 [8] [direct "2", direct "L"] ⟨"-", "-", "-", "-"⟩,
   row 0xD6 "SET" 2 [16] [direct "2", address "HL"] ⟨"-", "-", "-", "-"⟩,
   row 0xD7 "SET" 2 [8] [direct "2", direct "A"] ⟨"-", "-", "-", "-"⟩,
   row 0xD8 "SET" 2 [8] [direct "3", direct "B"] ⟨"-", "-", "-", "-"⟩,
   row 0xD9 "SET" 2 [8] [direct "3", direct "C"] ⟨"-", "-", "-", "-"⟩,
   row 0xDA "SET" 2 [8] [direct "3", direct "D"] ⟨"-", "-", "-", "-"⟩,
   row 0xDB "SET" 2 [8] [direct "3", direct "E"] ⟨"-", "-", "-", "-"⟩,
   row 0xDC "SET" 2 [8] [direct "3", direct "H"] ⟨"-", "-", "-", "-"⟩,
   row 0xDD "SET" 2 [8] [direct "3", direct "L"] ⟨"-", "-", "-", "-"⟩,
   row 0xDE "SET" 2 [16] [direct "3", address "HL"] ⟨"-", "-", "-", "-"⟩,
   row 0xDF "SET" 2 [8] [direct "3", direct "A"] ⟨"-", "-", "-", "-"⟩]

/-- The opcodes from `0xE0`. -/
def secondE : Partition :=
  [row 0xE0 "SET" 2 [8] [direct "4", direct "B"] ⟨"-", "-", "-", "-"⟩,
   row 0xE1 "SET" 2 [8] [direct "4", direct "C"] ⟨"-", "-", "-", "-"⟩,
   row 0xE2 "SET" 2 [8] [direct "4", direct "D"] ⟨"-", "-", "-", "-"⟩,
   row 0xE3 "SET" 2 [8] [direct "4", direct "E"] ⟨"-", "-", "-", "-"⟩,
   row 0xE4 "SET" 2 [8] [direct "4", direct "H"] ⟨"-", "-", "-", "-"⟩,
   row 0xE5 "SET" 2 [8] [direct "4", direct "L"] ⟨"-", "-", "-", "-"⟩,
   row 0xE6 "SET" 2 [16] [direct "4", address "HL"] ⟨"-", "-", "-", "-"⟩,
   row 0xE7 "SET" 2 [8] [direct "4", direct "A"] ⟨"-", "-", "-", "-"⟩,
   row 0xE8 "SET" 2 [8] [direct "5", direct "B"] ⟨"-", "-", "-", "-"⟩,
   row 0xE9 "SET" 2 [8] [direct "5", direct "C"] ⟨"-", "-", "-", "-"⟩,
   row 0xEA "SET" 2 [8] [direct "5", direct "D"] ⟨"-", "-", "-", "-"⟩,
   row 0xEB "SET" 2 [8] [direct "5", direct "E"] ⟨"-", "-", "-", "-"⟩,
   row 0xEC "SET" 2 [8] [direct "5", direct "H"] ⟨"-", "-", "-", "-"⟩,
   row 0xED "SET" 2 [8] [direct "5", direct "L"] ⟨"-", "-", "-", "-"⟩,
   row 0xEE "SET" 2 [16] [direct "5", address "HL"] ⟨"-", "-", "-", "-"⟩,
   row 0xEF "SET" 2 [8] [direct "5", direct "A"] ⟨"-", "-", "-", "-"⟩]

/-- The opcodes from `0xF0`. -/
def secondF : Partition :=
  [row 0xF0 "SET" 2 [8] [direct "6", direct "B"] ⟨"-", "-", "-", "-"⟩,
   row 0xF1 "SET" 2 [8] [direct "6", direct "C"] ⟨"-", "-", "-", "-"⟩,
   row 0xF2 "SET" 2 [8] [direct "6", direct "D"] ⟨"-", "-", "-", "-"⟩,
   row 0xF3 "SET" 2 [8] [direct "6", direct "E"] ⟨"-", "-", "-", "-"⟩,
   row 0xF4 "SET" 2 [8] [direct "6", direct "H"] ⟨"-", "-", "-", "-"⟩,
   row 0xF5 "SET" 2 [8] [direct "6", direct "L"] ⟨"-", "-", "-", "-"⟩,
   row 0xF6 "SET" 2 [16] [direct "6", address "HL"] ⟨"-", "-", "-", "-"⟩,
   row 0xF7 "SET" 2 [8] [direct "6", direct "A"] ⟨"-", "-", "-", "-"⟩,
   row 0xF8 "SET" 2 [8] [direct "7", direct "B"] ⟨"-", "-", "-", "-"⟩,
   row 0xF9 "SET" 2 [8] [direct "7", direct "C"] ⟨"-", "-", "-", "-"⟩,
   row 0xFA "SET" 2 [8] [direct "7", direct "D"] ⟨"-", "-", "-", "-"⟩,
   row 0xFB "SET" 2 [8] [direct "7", direct "E"] ⟨"-", "-", "-", "-"⟩,
   row 0xFC "SET" 2 [8] [direct "7", direct "H"] ⟨"-", "-", "-", "-"⟩,
   row 0xFD "SET" 2 [8] [direct "7", direct "L"] ⟨"-", "-", "-", "-"⟩,
   row 0xFE "SET" 2 [16] [direct "7", address "HL"] ⟨"-", "-", "-", "-"⟩,
   row 0xFF "SET" 2 [8] [direct "7", direct "A"] ⟨"-", "-", "-", "-"⟩]

/-- The second page, in order. -/
def secondPageRows : Partition :=
  second0 ++ second1 ++ second2 ++ second3 ++ second4 ++ second5 ++ second6 ++ second7 ++
    second8 ++ second9 ++ secondA ++ secondB ++ secondC ++ secondD ++ secondE ++ secondF

end Sm83Codegen.InstructionSet
