import Sm83Codegen.Proofs.BitFields
import Sm83Codegen.Proofs.DeclaredEffects

/-!
# Conditional instructions

Jumps, relative jumps, calls and returns have a form without a condition and a form for each of the
conditions NZ, Z, NC and C. If the flag that a condition tests has the value it asks for, the
instruction does what the form without a condition does; if not, it only moves past itself.

* `BranchKind` -- the four kinds, with the opcodes of their forms;
* `BranchKind.step_conditional` -- the two ways of a conditional form, as states;
* `Instruction.Listed`, `exists_listed` -- the entry that the table has for an opcode, against its
  instruction;
* `decodeExecute_conditional` -- the same of the core, with the cycles of the table.
-/

namespace Sm83Codegen

/-! ## 1. Kinds -/

/-- What an instruction with a condition does when its condition holds. -/
inductive BranchKind where
  | jump
  | jumpRelative
  | call
  | ret
  deriving DecidableEq, Repr

namespace BranchKind

/-- The instruction of a kind, with a condition or without one. -/
def instruction (k : BranchKind) (c : Option Condition) : Instruction :=
  match k with
  | jump => .jump c
  | jumpRelative => .jumpRelative c
  | call => .call c
  | ret => .ret c

/-- The opcode without a condition. -/
def always : BranchKind → UInt8
  | jump => 0xC3
  | jumpRelative => 0x18
  | call => 0xCD
  | ret => 0xC9

/-- The opcode with the condition NZ. -/
def first : BranchKind → Nat
  | jump => 0xC2
  | jumpRelative => 0x20
  | call => 0xC4
  | ret => 0xC0

/-- The opcode with a condition. Those of NZ, Z, NC and C are eight apart. -/
def opcode (k : BranchKind) (n : Fin 4) : UInt8 := .ofNat (k.first + 8 * n)

/-- The number of bytes after the opcode: an address, a distance, or nothing. -/
def trailing : BranchKind → Nat
  | jump | call => 2
  | jumpRelative => 1
  | ret => 0

variable (k : BranchKind)

theorem opcode_names (n : Fin 4) : k.opcode n ≠ secondPage ∧
    Instruction.ofFirstPage (k.opcode n) = some (k.instruction (some (.ofIndex n))) := by
  cases k <;> revert n <;> decide

theorem always_names :
    k.always ≠ secondPage ∧ Instruction.ofFirstPage k.always = some (k.instruction none) := by
  cases k <;> decide

@[simp] theorem instruction_trailing (c : Option Condition) :
    (k.instruction c).trailing = k.trailing := by
  cases k <;> rfl

@[simp] theorem instruction_condition (c : Option Condition) :
    (k.instruction c).condition? = c := by
  cases k <;> rfl

/-- An instruction is as long as its opcode and the bytes after it, whatever its condition. -/
theorem instruction_length (c : Option Condition) :
    (k.instruction c).operation.length = .ofNat (1 + k.trailing) := by
  cases k <;> rfl

/-- The condition of an instruction has no part in what it does once it is taken. -/
theorem instruction_effect (c : Option Condition) (tail : List UInt8) (s : Cpu) :
    (k.instruction c).effect tail s = (k.instruction none).effect tail s := by
  cases k <;> rfl

theorem instruction_untaken (c : Condition) :
    ∃ n, (k.instruction (some c)).operation.untaken = some n := by
  cases k <;> exact ⟨_, rfl⟩

/-- **A conditional form does what the form without a condition does, or moves past itself.** -/
theorem step_conditional (c : Condition) (tail : List UInt8) (s : Cpu) :
    (k.instruction (some c)).step tail s =
      if s.flag c.1 = c.2 then (k.instruction none).step tail s
      else s.advance (k.instruction (some c)).operation.length := by
  have hsome := Instruction.taken_conditional (k.instruction_condition (some c)) s
  have hnone := Instruction.taken_plain (k.instruction_condition none) s
  simp only [Instruction.step, hsome, hnone, instruction_effect, instruction_length, beq_iff_eq,
    if_true]

end BranchKind

/-! ## 2. Entries of the table -/

/-- The entry of an opcode in the table gives the length and the cycles of an instruction. -/
structure Instruction.Listed (i : Instruction) (k : OpcodeKey) (r : Record) : Prop where
  found : ∃ t, Table.ofDocument instructionSet = .ok t ∧ t.find? k = some r
  length : r.length = i.operation.length
  base : r.cycles.base = i.operation.base
  /-- An instruction with a condition has a second number of cycles. -/
  alternate : i.condition?.isSome = true → r.cycles.alternate = i.operation.untaken

/-- Every opcode that names an instruction has an entry in the table. -/
theorem exists_listed {k : OpcodeKey} {i : Instruction} (hp : k.Proper)
    (h : Instruction.ofKey k = some i) : ∃ r, i.Listed k r := by
  obtain ⟨t, ds, hb⟩ := exists_built
  obtain ⟨f, hf, hk⟩ := claimed_of_names hp h
  obtain ⟨d, hd, _, m, hm, rfl⟩ := hb.assembly.complete f hf k hk
  obtain ⟨rs, hmerged⟩ := hb.assembly.merged d hd
  obtain ⟨j, hj, hi⟩ := hb.denotes d hd m hm
  cases h.symm.trans hj
  refine ⟨m.record, ⟨t, hb.table, hb.assembly.recorded d hd m hm⟩, ?_, ?_, fun hc => ?_⟩
  · rw [hi.operation, ← hmerged.length m hm]
    rfl
  · rw [hi.operation]
    rfl
  · rw [← i.conditional_eq, hi.operation] at hc
    have hconditional : d.family.conditional = true := hc
    rw [hi.operation, Descriptor.operation, hconditional, if_pos rfl]

/-- The cycles of a conditional instruction are the two numbers of its entry. -/
theorem Instruction.Listed.cycles {i : Instruction} {k : OpcodeKey} {r : Record} {c : Condition}
    {n : UInt8} (h : i.Listed k r) (hc : i.condition? = some c)
    (hn : i.operation.untaken = some n) (s : Cpu) :
    r.cycles.alternate = some n ∧ i.cycles s = if s.flag c.1 = c.2 then r.cycles.base else n := by
  refine ⟨(h.alternate (by rw [hc]; rfl)).trans hn, ?_⟩
  simp only [Instruction.cycles, Operation.cycles, Branch.cycles, hn,
    Instruction.taken_conditional hc, h.base, beq_iff_eq]

/-! ## 3. The core -/

/-- **A conditional instruction is its form without a condition, or passes.** For the conditions NZ,
    Z, NC and C of every kind, whatever the state and the bytes after the opcode: if the flag has
    the value that is asked for, the core ends in the state that the opcode without a condition ends
    in with the same bytes, after the first number of cycles in the table; if not, it only moves the
    program counter past the instruction, after the second. -/
theorem decodeExecute_conditional (s : Cpu) (k : BranchKind) (n : Fin 4) (tail : List UInt8)
    (ht : tail.length = k.trailing) :
    ∃ t r f v, Table.ofDocument instructionSet = .ok t ∧ t.find? (.plain (k.opcode n)) = some r ∧
      r.length.toNat = 1 + tail.length ∧ Condition.ofIndex n = (f, v) ∧
      (s.flag f = v → ∃ u cycles, sm83.decodeExecute s (k.always :: tail) = .executed u cycles ∧
        sm83.decodeExecute s (k.opcode n :: tail) = .executed u r.cycles.base) ∧
      (s.flag f ≠ v → ∃ cycles, r.cycles.alternate = some cycles ∧
        sm83.decodeExecute s (k.opcode n :: tail) =
          .executed { s with pc := s.pc + r.length.toUInt16 } cycles) := by
  obtain ⟨hpage, hname⟩ := k.opcode_names n
  obtain ⟨halwaysPage, halways⟩ := k.always_names
  generalize Condition.ofIndex n = c at hname ⊢
  have hproper : (OpcodeKey.plain (k.opcode n)).Proper := .inl ⟨rfl, hpage⟩
  obtain ⟨r, hr⟩ := exists_listed hproper hname
  obtain ⟨t, htable, hfind⟩ := hr.found
  obtain ⟨m, hm⟩ := k.instruction_untaken c
  obtain ⟨halternate, hcycles⟩ := hr.cycles (k.instruction_condition (some c)) hm s
  have hexec := decodeExecute_of_names hproper hname s (ht.trans (k.instruction_trailing _).symm)
  rw [hcycles, k.step_conditional] at hexec
  refine ⟨t, r, c.1, c.2, htable, hfind, ?_, rfl, fun htaken => ?_, fun huntaken => ?_⟩
  · rw [hr.length, k.instruction_length, ht]
    cases k <;> rfl
  · obtain ⟨cycles, hplain⟩ := decodeExecute_firstPage halwaysPage halways tail
      (ht.trans (k.instruction_trailing none).symm) s
    rw [if_pos htaken, if_pos htaken] at hexec
    exact ⟨_, cycles, hplain, hexec⟩
  · rw [if_neg huntaken, if_neg huntaken, ← hr.length] at hexec
    exact ⟨m, halternate, hexec⟩

/-- Carry is set, the instruction lies across the end of memory, and so does the top of the
    stack. -/
def lateCall : Cpu :=
  { Cpu.initial with pc := 0xFFFE, registers := { a := 0x7F, sp := 0x0001 }, cf := true }

/-- There `CALL C` calls and `CALL NC` passes. -/
theorem decodeExecute_conditional_lateCall :
    ([0x34, 0x12] : List UInt8).length = BranchKind.call.trailing ∧
      (∃ t r u cycles, Table.ofDocument instructionSet = .ok t ∧ t.find? (.plain 0xDC) = some r ∧
        sm83.decodeExecute lateCall [0xCD, 0x34, 0x12] = .executed u cycles ∧
        sm83.decodeExecute lateCall [0xDC, 0x34, 0x12] = .executed u r.cycles.base) ∧
      ∃ cycles, sm83.decodeExecute lateCall [0xD4, 0x34, 0x12] =
        .executed { lateCall with pc := 0x0001 } cycles := by
  refine ⟨rfl, ?_, ?_⟩
  · obtain ⟨t, r, _, _, ht, hr, _, hc, htaken, _⟩ :=
      decodeExecute_conditional lateCall .call 3 [0x34, 0x12] rfl
    cases hc
    obtain ⟨u, cycles, hcall, hconditional⟩ := htaken rfl
    exact ⟨t, r, u, cycles, ht, hr, hcall, hconditional⟩
  · obtain ⟨_, r, _, _, _, _, hlength, hc, _, huntaken⟩ :=
      decodeExecute_conditional lateCall .call 2 [0x34, 0x12] rfl
    cases hc
    obtain ⟨cycles, _, hpass⟩ := huntaken (by decide)
    have hthree : r.length = 3 := UInt8.toNat_inj.mp hlength
    rw [hthree] at hpass
    exact ⟨cycles, hpass⟩

end Sm83Codegen
