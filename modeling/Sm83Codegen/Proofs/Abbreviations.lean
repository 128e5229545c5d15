import Sm83Codegen.Proofs.StackDiscipline

/-!
# Abbreviations

Some opcodes say in fewer bytes what others say at length: a load that steps its pointer, an access
to the last page of memory, a rotation of the accumulator, a restart. Each leaves what the longer
instructions leave, on every state; only the program counter is short by the bytes that are saved.

* `Shortens` -- an instruction against longer ones, executed by the core;
* `storeStepping_step` and the like -- the steps of both, instruction by instruction;
* `decodeExecute_abbreviations` -- every abbreviation with what it stands for.
-/

namespace Sm83Codegen

/-! ## 1. One instruction for others -/

/-- One instruction leaves what others leave that are a byte longer together: the same state but for
    the program counter, which they move one further. -/
def Shortens (s : Cpu) (short : List UInt8) (long : List (List UInt8)) : Prop :=
  ∃ t, sm83.runAll s [short] = some t ∧ sm83.runAll s long = some (t.advance 1)

/-- The program counter moves by the sum of two lengths. -/
theorem Cpu.advance_advance (s : Cpu) {m n : UInt8} (h : m.toNat + n.toNat < 256) :
    (s.advance m).advance n = s.advance (m + n) := by
  have hsum : (m + n).toUInt16 = m.toUInt16 + n.toUInt16 := by
    apply UInt16.toNat_inj.mp
    rw [UInt16.toNat_add, UInt8.toNat_toUInt16, UInt8.toNat_toUInt16, UInt8.toNat_toUInt16,
      UInt8.toNat_add]
    omega
  unfold advance
  rw [hsum, ← UInt16.add_assoc]

/-! ## 2. Steps -/

namespace Instruction

variable (s : Cpu)

/-- A load that steps its pointer loads first. The pointer is not changed by what it points at. -/
theorem storeStepping_step (up : Bool) :
    (stepPair up .HL).step [] ((storeTo .HL .A).step [] s) =
      ((storeStepping up).step [] s).advance 1 := by
  cases up <;> rfl

theorem loadStepping_step (up : Bool) :
    (stepPair up .HL).step [] ((loadFrom .A .HL).step [] s) =
      ((loadStepping up).step [] s).advance 1 := by
  cases up <;> rfl

/-- The last page by register C is the last page by a byte that is the same. -/
theorem loadHighRegister_step :
    loadHighImmediate.step [s.get8 .C] s = (loadHighRegister.step [] s).advance 1 := by
  rw [step_eq_effect (n := 1 + 1) rfl rfl, ← s.advance_advance (by decide)]
  rfl

theorem storeHighRegister_step :
    storeHighImmediate.step [s.get8 .C] s = (storeHighRegister.step [] s).advance 1 := by
  rw [step_eq_effect (n := 1 + 1) rfl rfl, ← s.advance_advance (by decide)]
  rfl

/-- An address in the last page. -/
theorem wordIn_lastPage (n : UInt8) : wordIn [n, 0xFF] = 0xFF00 + n.toUInt16 := by
  have hn := n.toNat_lt
  apply UInt16.toNat_inj.mp
  rw [wordIn, wordOf_toNat, UInt16.toNat_add, UInt8.toNat_toUInt16]
  show 256 * 255 + n.toNat = (0xFF00 + n.toNat) % 65536
  omega

theorem loadHighImmediate_step (n : UInt8) :
    loadAbsolute.step [n, 0xFF] s = (loadHighImmediate.step [n] s).advance 1 := by
  rw [step_eq_effect (n := 2 + 1) rfl rfl, ← s.advance_advance (by decide), effect, wordIn_lastPage]
  rfl

theorem storeHighImmediate_step (n : UInt8) :
    storeAbsolute.step [n, 0xFF] s = (storeHighImmediate.step [n] s).advance 1 := by
  rw [step_eq_effect (n := 2 + 1) rfl rfl, ← s.advance_advance (by decide), effect, wordIn_lastPage]
  rfl

/-- The rotations of the accumulator clear Z, those of the second page set it by the result. -/
theorem rotateAccumulator_step (r : Rotation) :
    ∃ t : Cpu, (rotateAccumulator r).step [] s = { t with zf := false } ∧
      (shift (.rotate r) (.register .A)).step [] s = t.advance 1 := by
  refine ⟨(shift (.rotate r) (.register .A)).effect [] (s.advance 1), rfl, ?_⟩
  rw [step_eq_effect (n := 1 + 1) rfl rfl, ← s.advance_advance (by decide)]
  rfl

theorem wordIn_firstPage (n : Fin 8) : wordIn [.ofNat (8 * n), 0x00] = .ofNat (8 * n) := by
  revert n
  decide

/-- A call is two bytes longer than a restart, so from two bytes before it pushes the same
    address. -/
theorem restart_step (n : Fin 8) :
    (call none).step [.ofNat (8 * n), 0x00] { s with pc := s.pc - 2 } = (restart n).step [] s := by
  have hpc : ({ s with pc := s.pc - 2 } : Cpu).advance 3 = s.advance 1 := by
    show { s with pc := s.pc - 2 + 3 } = { s with pc := s.pc + 1 }
    rw [show (3 : UInt16) = 2 + 1 from rfl, ← UInt16.add_assoc, UInt16.sub_add_cancel]
  rw [step_eq_effect (n := 3) rfl rfl, hpc, effect, wordIn_firstPage]
  rfl

end Instruction

/-! ## 3. The core -/

section Core

variable {s : Cpu} {b b' b'' : UInt8} {i j k : Instruction} {tail tail' tail'' : List UInt8}

theorem shortens_of_step (hi : Encodes b tail i) (hj : Encodes b' tail' j)
    (h : j.step tail' s = (i.step tail s).advance 1) :
    Shortens s (b :: tail) [b' :: tail'] := by
  refine ⟨i.step tail s, hi.runAll s [], ?_⟩
  rw [hj.runAll, h]
  rfl

theorem shortens_of_steps (hi : Encodes b tail i) (hj : Encodes b' tail' j)
    (hk : Encodes b'' tail'' k)
    (h : k.step tail'' (j.step tail' s) = (i.step tail s).advance 1) :
    Shortens s (b :: tail) [b' :: tail', b'' :: tail''] := by
  refine ⟨i.step tail s, hi.runAll s [], ?_⟩
  rw [hj.runAll, hk.runAll, h]
  rfl

end Core

/-- The opcodes of the accumulator rotations and of the restarts, on both sides. -/
theorem encodes_rotate (q : Fin 4) :
    Encodes (.ofNat (0x07 + 8 * q)) [] (.rotateAccumulator (.ofIndex q)) ∧
      Instruction.ofSecondPage (.ofNat (0x07 + 8 * q)) =
        .shift (.rotate (.ofIndex q)) (.register .A) := by
  have h : UInt8.ofNat (0x07 + 8 * q) ≠ secondPage ∧ Instruction.ofFirstPage
      (.ofNat (0x07 + 8 * q)) = some (.rotateAccumulator (.ofIndex q)) ∧
      Instruction.ofSecondPage (.ofNat (0x07 + 8 * q)) =
        .shift (.rotate (.ofIndex q)) (.register .A) := by
    revert q
    decide
  exact ⟨⟨h.1, h.2.1, rfl⟩, h.2.2⟩

theorem encodes_restart (n : Fin 8) : Encodes (.ofNat (0xC7 + 8 * n)) [] (.restart n) := by
  have h : UInt8.ofNat (0xC7 + 8 * n) ≠ secondPage ∧
      Instruction.ofFirstPage (.ofNat (0xC7 + 8 * n)) = some (.restart n) := by
    revert n
    decide
  exact ⟨h.1, h.2, rfl⟩

/-- **Every abbreviation leaves what it stands for.** A load that steps HL is a load and a step of
    HL; an access to the last page by C is one by an immediate, and that is one by an address; a
    restart is a call of its address from two bytes before. A rotation of the accumulator is that of
    the second page, but that it clears Z. -/
theorem decodeExecute_abbreviations (s : Cpu) :
    Shortens s [0x22] [[0x77], [0x23]] ∧ Shortens s [0x32] [[0x77], [0x2B]] ∧
    Shortens s [0x2A] [[0x7E], [0x23]] ∧ Shortens s [0x3A] [[0x7E], [0x2B]] ∧
    Shortens s [0xF2] [[0xF0, s.get8 .C]] ∧ Shortens s [0xE2] [[0xE0, s.get8 .C]] ∧
    (∀ n, Shortens s [0xF0, n] [[0xFA, n, 0xFF]]) ∧
    (∀ n, Shortens s [0xE0, n] [[0xEA, n, 0xFF]]) ∧
    (∀ q : Fin 4, ∃ t : Cpu,
      sm83.runAll s [[.ofNat (0x07 + 8 * q)]] = some { t with zf := false } ∧
      sm83.runAll s [[0xCB, .ofNat (0x07 + 8 * q)]] = some (t.advance 1)) ∧
    (∀ n : Fin 8, ∃ t, sm83.runAll s [[.ofNat (0xC7 + 8 * n)]] = some t ∧
      sm83.runAll { s with pc := s.pc - 2 } [[0xCD, .ofNat (8 * n), 0x00]] = some t) := by
  have store : Encodes 0x77 [] (.storeTo .HL .A) := ⟨by decide, rfl, rfl⟩
  have load : Encodes 0x7E [] (.loadFrom .A .HL) := ⟨by decide, rfl, rfl⟩
  have up : Encodes 0x23 [] (.stepPair true .HL) := ⟨by decide, rfl, rfl⟩
  have down : Encodes 0x2B [] (.stepPair false .HL) := ⟨by decide, rfl, rfl⟩
  have loadHigh (n : UInt8) : Encodes 0xF0 [n] .loadHighImmediate := ⟨by decide, rfl, rfl⟩
  have storeHigh (n : UInt8) : Encodes 0xE0 [n] .storeHighImmediate := ⟨by decide, rfl, rfl⟩
  refine ⟨?_, ?_, ?_, ?_, ?_, ?_, fun n => ?_, fun n => ?_, fun q => ?_, fun n => ?_⟩
  · exact shortens_of_steps ⟨by decide, rfl, rfl⟩ store up (Instruction.storeStepping_step s true)
  · exact shortens_of_steps ⟨by decide, rfl, rfl⟩ store down
      (Instruction.storeStepping_step s false)
  · exact shortens_of_steps ⟨by decide, rfl, rfl⟩ load up (Instruction.loadStepping_step s true)
  · exact shortens_of_steps ⟨by decide, rfl, rfl⟩ load down (Instruction.loadStepping_step s false)
  · exact shortens_of_step ⟨by decide, rfl, rfl⟩ (loadHigh _) (Instruction.loadHighRegister_step s)
  · exact shortens_of_step ⟨by decide, rfl, rfl⟩ (storeHigh _)
      (Instruction.storeHighRegister_step s)
  · exact shortens_of_step (loadHigh n) ⟨by decide, rfl, rfl⟩
      (Instruction.loadHighImmediate_step s n)
  · exact shortens_of_step (storeHigh n) ⟨by decide, rfl, rfl⟩
      (Instruction.storeHighImmediate_step s n)
  · obtain ⟨hfirst, hsecond⟩ := encodes_rotate q
    obtain ⟨t, hshort, hlong⟩ := Instruction.rotateAccumulator_step s (.ofIndex q)
    obtain ⟨_, hexec⟩ := decodeExecute_secondPage hsecond ⟨rfl, hlong⟩
    exact ⟨t, (hfirst.runAll s []).trans (congrArg some hshort), runAll_single hexec⟩
  · have call : Encodes 0xCD [.ofNat (8 * n), 0x00] (.call none) := ⟨by decide, rfl, rfl⟩
    refine ⟨(Instruction.restart n).step [] s, (encodes_restart n).runAll s [], ?_⟩
    rw [call.runAll, Instruction.restart_step]
    rfl

end Sm83Codegen
