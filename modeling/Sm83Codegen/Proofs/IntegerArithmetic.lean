import Sm83Codegen.Proofs.BitFields

/-!
# Arithmetic by unbounded integers

What addition, subtraction and logic leave in a register and in the flags, said of integers without
a width, and proved of the core for every form that an instruction set has of them: with a register,
with the byte where HL points, with an immediate, and with the accumulator itself.

* `AluResult.IsSum`, `AluResult.IsDifference`, `AluResult.IsBitwise` -- a byte and its flags, by the
  integers;
* `AluOp.Specifies`, `WordSum`, `SignedSum` -- what an operation on the accumulator, a sum of words
  and a sum of a word and a signed byte have to be;
* `result_specifies`, `wordSum_add`, `signedSum_add` -- the meaning of an instruction is that;
* `decodeExecute_arithmetic` -- and so is what the core does with every opcode.
-/

namespace Sm83Codegen

/-! ## 1. The reference -/

/-- A byte as a signed number: its highest bit counts as negative. -/
def signedValue (b : UInt8) : Int := if b.toNat < 128 then b.toNat else b.toNat - 256

namespace AluResult

/-- The sum of two bytes and a carry, with the carries out of bits 3 and 7. -/
structure IsSum (a b : UInt8) (c : Int) (r : AluResult) : Prop where
  value : (r.value.toNat : Int) = (a.toNat + b.toNat + c) % 256
  zero : r.z = true ↔ r.value = 0
  subtract : r.n = false
  half : r.h = true ↔ (a.toNat % 16 + b.toNat % 16 + c : Int) ≥ 16
  carry : r.c = true ↔ (a.toNat + b.toNat + c : Int) ≥ 256

/-- The difference of a byte and another with a borrow, with the borrows into bits 3 and 7. -/
structure IsDifference (a b : UInt8) (c : Int) (r : AluResult) : Prop where
  value : (r.value.toNat : Int) = (a.toNat - b.toNat - c) % 256
  zero : r.z = true ↔ r.value = 0
  subtract : r.n = true
  half : r.h = true ↔ (a.toNat % 16 : Int) < b.toNat % 16 + c
  carry : r.c = true ↔ (a.toNat : Int) < b.toNat + c

/-- Two bytes combined bit by bit. The half carry is fixed, and there is no carry. -/
structure IsBitwise (f : Bool → Bool → Bool) (h : Bool) (a b : UInt8) (r : AluResult) : Prop where
  value : ∀ k, r.value.toNat.testBit k = f (a.toNat.testBit k) (b.toNat.testBit k)
  zero : r.z = true ↔ r.value = 0
  subtract : r.n = false
  half : r.h = h
  carry : r.c = false

end AluResult

/-- What an operation on the accumulator `a` and a byte `b` has to be. A comparison sets the flags
    of a difference and leaves the accumulator. -/
def AluOp.Specifies (a b : UInt8) (carry : Bool) (r : AluResult) : AluOp → Prop
  | add => r.IsSum a b 0
  | adc => r.IsSum a b carry.toNat
  | sub => r.IsDifference a b 0
  | sbc => r.IsDifference a b carry.toNat
  | and => r.IsBitwise (· && ·) true a b
  | xor => r.IsBitwise (· ^^ ·) false a b
  | or => r.IsBitwise (· || ·) false a b
  | cp => r.value = a ∧ ∃ v, { r with value := v }.IsDifference a b 0

/-- A sum of words, with the carries out of bits 11 and 15. -/
structure WordSum (v w x : UInt16) (h c : Bool) : Prop where
  value : (x.toNat : Int) = (v.toNat + w.toNat) % 65536
  half : h = true ↔ (v.toNat % 4096 + w.toNat % 4096 : Int) ≥ 4096
  carry : c = true ↔ (v.toNat + w.toNat : Int) ≥ 65536

/-- A sum of a word and a signed byte. The carries are those out of bits 3 and 7 of the low byte,
    whatever the sign. -/
structure SignedSum (w : UInt16) (b : UInt8) (x : UInt16) (h c : Bool) : Prop where
  value : (x.toNat : Int) = (w.toNat + signedValue b) % 65536
  half : h = true ↔ (w.toNat % 16 + b.toNat % 16 : Int) ≥ 16
  carry : c = true ↔ (w.toNat % 256 + b.toNat : Int) ≥ 256

/-! ## 2. The meaning of instructions meets the reference -/

theorem isSum_sum (a b : UInt8) (c : Nat) : (AluResult.sum a b c).IsSum a b c where
  value := by
    show ((UInt8.ofNat (a.toNat + b.toNat + c)).toNat : Int) = _
    rw [UInt8.toNat_ofNat']
    omega
  zero := beq_iff_eq
  subtract := rfl
  half := by
    show decide (16 ≤ a.toNat % 16 + b.toNat % 16 + c) = true ↔ _
    rw [decide_eq_true_iff]
    omega
  carry := by
    show decide (256 ≤ a.toNat + b.toNat + c) = true ↔ _
    rw [decide_eq_true_iff]
    omega

theorem isDifference_difference (a b : UInt8) {c : Nat} (hc : c ≤ 1) :
    (AluResult.difference a b c).IsDifference a b c where
  value := by
    show ((UInt8.ofNat (a.toNat + 512 - (b.toNat + c))).toNat : Int) = _
    have hb := b.toNat_lt
    rw [UInt8.toNat_ofNat']
    omega
  zero := beq_iff_eq
  subtract := rfl
  half := by
    show decide (a.toNat % 16 < b.toNat % 16 + c) = true ↔ _
    rw [decide_eq_true_iff]
    omega
  carry := by
    show decide (a.toNat < b.toNat + c) = true ↔ _
    rw [decide_eq_true_iff]
    omega

/-- **The result of an operation on the accumulator is what the integers say.** -/
theorem result_specifies (op : AluOp) (a b : UInt8) (carry : Bool) :
    op.Specifies a b carry (op.result a b carry) := by
  have hcarry := Bool.toNat_lt carry
  cases op with
  | add => exact isSum_sum a b 0
  | adc => exact isSum_sum a b carry.toNat
  | sub => exact isDifference_difference a b (by decide)
  | sbc => exact isDifference_difference a b (by omega)
  | cp =>
    have h := isDifference_difference a b (c := 0) (by decide)
    exact ⟨rfl, _, h.value, h.zero, h.subtract, h.half, h.carry⟩
  | and => exact ⟨fun k => by rw [← Nat.testBit_and, ← UInt8.toNat_and]; rfl, beq_iff_eq, rfl, rfl, rfl⟩
  | xor => exact ⟨fun k => by rw [← Nat.testBit_xor, ← UInt8.toNat_xor]; rfl, beq_iff_eq, rfl, rfl, rfl⟩
  | or => exact ⟨fun k => by rw [← Nat.testBit_or, ← UInt8.toNat_or]; rfl, beq_iff_eq, rfl, rfl, rfl⟩

theorem wordSum_add (v w : UInt16) :
    WordSum v w (v + w) (4096 ≤ v.toNat % 4096 + w.toNat % 4096) (65536 ≤ v.toNat + w.toNat) where
  value := by
    rw [UInt16.toNat_add]
    omega
  half := by
    rw [decide_eq_true_iff]
    omega
  carry := by
    rw [decide_eq_true_iff]
    omega

theorem signedSum_add (w : UInt16) (b : UInt8) :
    SignedSum w b (w + signedWord b) (16 ≤ w.toNat % 16 + b.toNat % 16)
      (256 ≤ w.toNat % 256 + b.toNat) where
  value := by
    rw [UInt16.toNat_add, signedWord_toNat, signedValue]
    split <;> omega
  half := by
    rw [decide_eq_true_iff]
    omega
  carry := by
    rw [decide_eq_true_iff]
    omega

/-! ## 3. Opcodes -/

/-- The register opcodes of the accumulator operations are the third quarter of the first page. -/
theorem highField_eq_two {b : UInt8} (hl : 0x80 ≤ b) (hu : b ≤ 0xBF) : highField b = 2 := by
  have hl' : 128 ≤ b.toNat := UInt8.le_iff_toNat_le.mp hl
  have hu' : b.toNat ≤ 191 := UInt8.le_iff_toNat_le.mp hu
  rw [← UInt8.toNat_inj, highField_toNat]
  show b.toNat / 64 = 2
  omega

/-! ## 4. Steps -/

namespace Instruction

theorem alu_cell_length (op : AluOp) (t : Cell) : (alu op (.cell t)).operation.length = 1 := by
  match t with
  | .register .A => cases op <;> rfl
  | .register .F | .register .B | .register .C | .register .D | .register .E | .register .H
  | .register .L | .pointed => rfl

theorem alu_cell_step (op : AluOp) (t : Cell) (s : Cpu) :
    (alu op (.cell t)).step [] s =
      (s.setResult .A (op.result (s.get8 .A) (s.cell t) s.cf)).advance 1 := by
  rw [step_eq_effect rfl (alu_cell_length op t)]
  cases t <;> rfl

theorem stepByte_step (up : Bool) (t : Cell) (s : Cpu) {r : AluResult}
    (hr : (if up then AluResult.sum (s.cell t) 1 0 else AluResult.difference (s.cell t) 1 0) = r) :
    (stepByte up t).step [] s =
      ((s.setCell t r.value).setFlags r.z r.n r.h s.cf).advance 1 := by
  subst hr
  cases t <;> rfl

end Instruction

/-! ## 5. The core -/

variable (s : Cpu)

/-- **The accumulator and one of the eight cells.** -/
theorem decodeExecute_alu_cell {b : UInt8} (hl : 0x80 ≤ b) (hu : b ≤ 0xBF) :
    ∃ r cycles, (AluOp.ofIndex (middleField b).toNat).Specifies (s.get8 .A)
        (s.cell (slot (lowField b))) s.cf r ∧
      sm83.decodeExecute s [b] = .executed ((s.setResult .A r).advance 1) cycles := by
  have hhigh := highField_eq_two hl hu
  have hi := ofFirstPage_eq b
  rw [hhigh] at hi
  obtain ⟨n, hn⟩ := decodeExecute_firstPage (ne_secondPage (.inl (by rw [hhigh]; decide))) hi
    [] rfl s
  rw [Instruction.alu_cell_step] at hn
  exact ⟨_, n, result_specifies _ _ _ _, hn⟩

/-- **The accumulator and an immediate.** -/
theorem decodeExecute_alu_immediate {b : UInt8} (h : highField b = 3) (hz : lowField b = 6)
    (n : UInt8) :
    ∃ r cycles, (AluOp.ofIndex (middleField b).toNat).Specifies (s.get8 .A) n s.cf r ∧
      sm83.decodeExecute s [b, n] = .executed ((s.setResult .A r).advance 2) cycles := by
  have hi := ofFirstPage_eq b
  rw [h, hz] at hi
  obtain ⟨m, hm⟩ := decodeExecute_firstPage (ne_secondPage (.inr (by rw [hz]; decide))) hi
    [n] rfl s
  exact ⟨_, m, result_specifies _ _ _ _, hm⟩

/-- **A cell stepped by one.** -/
theorem decodeExecute_stepByte {b : UInt8} (up : Bool) (h : highField b = 0)
    (hz : lowField b = if up then 4 else 5) {r : AluResult}
    (hr : (if up then AluResult.sum (s.cell (slot (middleField b))) 1 0
      else AluResult.difference (s.cell (slot (middleField b))) 1 0) = r) :
    ∃ cycles, sm83.decodeExecute s [b] = .executed
      (((s.setCell (slot (middleField b)) r.value).setFlags r.z r.n r.h s.cf).advance 1)
      cycles := by
  have hi : Instruction.ofFirstPage b = some (.stepByte up (slot (middleField b))) := by
    rw [ofFirstPage_eq b, h, hz]
    cases up <;> rfl
  have ht : ([] : List UInt8).length = (Instruction.stepByte up (slot (middleField b))).trailing :=
    rfl
  rw [← Instruction.stepByte_step up _ s hr]
  exact decodeExecute_firstPage (ne_secondPage (.inl (by rw [h]; decide))) hi [] ht s

/-- The opcodes that add a word to HL, with the words. -/
def pairSums : List (UInt8 × Reg16) := [(0x09, .BC), (0x19, .DE), (0x29, .HL), (0x39, .SP)]

theorem ofFirstPage_pairSums :
    ∀ q ∈ pairSums, q.1 ≠ secondPage ∧ Instruction.ofFirstPage q.1 = some (.addPairs q.2) := by
  decide

/-! ## 6. Every form -/

/-- **Arithmetic and logic are those of the integers, in every form.** An operation on the
    accumulator has its result and its flags from the integers, whether its source is a register,
    memory, an immediate or the accumulator itself. So has a cell that is stepped by one, which
    keeps carry; a word added to HL, which keeps Z; and a signed byte added to the stack pointer,
    which goes there or to HL. Nothing else changes but the program counter. -/
theorem decodeExecute_arithmetic :
    (∀ b, 0x80 ≤ b → b ≤ 0xBF → ∃ r cycles,
      (AluOp.ofIndex (middleField b).toNat).Specifies (s.get8 .A) (s.cell (slot (lowField b))) s.cf
        r ∧
      sm83.decodeExecute s [b] = .executed ((s.setResult .A r).advance 1) cycles) ∧
    (∀ b n, highField b = 3 → lowField b = 6 → ∃ r cycles,
      (AluOp.ofIndex (middleField b).toNat).Specifies (s.get8 .A) n s.cf r ∧
      sm83.decodeExecute s [b, n] = .executed ((s.setResult .A r).advance 2) cycles) ∧
    (∀ b, highField b = 0 → lowField b = 4 → ∃ r cycles,
      AluResult.IsSum (s.cell (slot (middleField b))) 1 0 r ∧
      sm83.decodeExecute s [b] = .executed
        (((s.setCell (slot (middleField b)) r.value).setFlags r.z r.n r.h s.cf).advance 1)
        cycles) ∧
    (∀ b, highField b = 0 → lowField b = 5 → ∃ r cycles,
      AluResult.IsDifference (s.cell (slot (middleField b))) 1 0 r ∧
      sm83.decodeExecute s [b] = .executed
        (((s.setCell (slot (middleField b)) r.value).setFlags r.z r.n r.h s.cf).advance 1)
        cycles) ∧
    (∀ q ∈ pairSums, ∃ x h c cycles, WordSum (s.get16 .HL) (s.get16 q.2) x h c ∧
      sm83.decodeExecute s [q.1] =
        .executed (((s.set16 .HL x).setFlags s.zf false h c).advance 1) cycles) ∧
    (∀ n, ∃ x h c cycles, SignedSum (s.get16 .SP) n x h c ∧
      sm83.decodeExecute s [0xE8, n] =
        .executed (((s.set16 .SP x).setFlags false false h c).advance 2) cycles) ∧
    (∀ n, ∃ x h c cycles, SignedSum (s.get16 .SP) n x h c ∧
      sm83.decodeExecute s [0xF8, n] =
        .executed (((s.set16 .HL x).setFlags false false h c).advance 2) cycles) := by
  refine ⟨fun b hl hu => decodeExecute_alu_cell s hl hu,
    fun b n h hz => decodeExecute_alu_immediate s h hz n, fun b h hz => ?_, fun b h hz => ?_,
    fun q hq => ?_, fun n => ?_, fun n => ?_⟩
  · obtain ⟨m, hm⟩ := decodeExecute_stepByte s true h hz rfl
    exact ⟨_, m, isSum_sum _ 1 0, hm⟩
  · obtain ⟨m, hm⟩ := decodeExecute_stepByte s false h hz rfl
    exact ⟨_, m, isDifference_difference _ 1 (by decide), hm⟩
  · obtain ⟨hp, hi⟩ := ofFirstPage_pairSums q hq
    obtain ⟨m, hm⟩ := decodeExecute_firstPage hp hi [] rfl s
    exact ⟨_, _, _, m, wordSum_add _ _, hm⟩
  · obtain ⟨m, hm⟩ := decodeExecute_firstPage (b := 0xE8) (by decide) (i := .addSigned) (by decide)
      [n] rfl s
    exact ⟨_, _, _, m, signedSum_add _ _, hm⟩
  · obtain ⟨m, hm⟩ := decodeExecute_firstPage (b := 0xF8) (by decide) (i := .loadSum) (by decide)
      [n] rfl s
    exact ⟨_, _, _, m, signedSum_add _ _, hm⟩

end Sm83Codegen
