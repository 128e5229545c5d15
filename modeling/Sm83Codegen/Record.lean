import Sm83Codegen.FlagNotation
import Sm83Codegen.Table.Document

/-!
# Opcode records

What one opcode does, as the generator uses it: an entry of the table that was checked.

* `Cycles` -- the cycle count, and the one for the branch not taken;
* `Record` -- a checked entry;
* `Record.ofEntry` -- the check: flag states in order, then the number of cycle counts, then the
  length.
-/

namespace Sm83Codegen

/-! ## 1. Records -/

/-- Cycle counts. A conditional instruction has a second one for the branch not taken. -/
structure Cycles where
  base : UInt8
  alternate : Option UInt8
  deriving DecidableEq, Repr

/-- The counts one or two numbers stand for. -/
def Cycles.ofList? : List UInt8 → Option Cycles
  | [base] => some ⟨base, none⟩
  | [base, alternate] => some ⟨base, some alternate⟩
  | _ => none

/-- An opcode of the table. -/
structure Record where
  key : OpcodeKey
  mnemonic : String
  operands : List OperandEntry
  flags : FlagEffects
  length : UInt8
  cycles : Cycles
  deriving DecidableEq, Repr

namespace Record

/-- The table's own assembly form, such as `LD B, n8` or `LD A, [HL]`. -/
def assembly (r : Record) : String :=
  if r.operands.isEmpty then r.mnemonic
  else r.mnemonic ++ " " ++ String.intercalate ", " (r.operands.map OperandEntry.assembly)

/-- The number of bytes after the opcode byte. -/
def trailing (r : Record) : Nat := r.length.toNat - 1 - r.key.pageLength

/-! ## 2. Checking an entry -/

/-- The effect an entry states for a flag. -/
def flagOf (key : OpcodeKey) (states : FlagStates) (f : Flag) :
    Except GenerationError FlagEffect :=
  match FlagEffect.parse? f (states.get f) with
  | some e => .ok e
  | none => .error (.invalidFlagState key f (states.get f))

/-- The effects an entry states, the first wrong one being the fault. -/
def flagsOf (key : OpcodeKey) (states : FlagStates) : Except GenerationError FlagEffects := do
  let z ← flagOf key states .Z
  let n ← flagOf key states .N
  let h ← flagOf key states .H
  let c ← flagOf key states .C
  .ok ⟨z, n, h, c⟩

/-- The record of an entry under a key. -/
def ofEntry (key : OpcodeKey) (e : Entry) : Except GenerationError Record := do
  let flags ← flagsOf key e.flags
  match Cycles.ofList? e.cycles with
  | none => .error (.invalidCycles key e.cycles.length)
  | some cycles =>
    if e.bytes.toNat ≤ key.pageLength then .error (.invalidLength key e.bytes)
    else .ok ⟨key, e.mnemonic, e.operands, flags, e.bytes, cycles⟩

end Record

end Sm83Codegen
