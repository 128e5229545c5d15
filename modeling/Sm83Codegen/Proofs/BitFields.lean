import Sm83Codegen.Proofs.Encodings

/-!
# Opcodes by their bit fields

Two blocks of opcodes are regular: the loads between cells and the whole second page. There a core
that goes by a table does what one would do that takes an opcode apart: the low three bits choose a
cell, the next three a cell, a bit or a rotation, and the high two what is done.

* `lowField`, `middleField`, `slot` -- the parts of an opcode;
* `decodeExecute_firstPage`, `ofFirstPage_eq` -- the first page, by the fields of its opcodes;
* `decodeExecute_loads` -- the loads between cells;
* `decodeExecute_secondPage` -- rotations, shifts and single bits;
* `decodeExecute_bitFields` -- both blocks, for every state and every opcode.
-/

namespace Sm83Codegen

/-! ## 1. Fields -/

/-- The low three bits of an opcode. -/
def lowField (b : UInt8) : UInt8 := b &&& 7

/-- The three bits above them. -/
def middleField (b : UInt8) : UInt8 := b >>> 3 &&& 7

/-- The high two bits. -/
def highField (b : UInt8) : UInt8 := b >>> 6

/-- The cell that three bits choose: B, C, D, E, H, L, where HL points, and A. -/
def slot (n : UInt8) : Cell := .ofIndex n.toNat

theorem lowField_toNat (b : UInt8) : (lowField b).toNat = b.toNat % 8 := by
  rw [lowField, UInt8.toNat_and]
  exact Nat.and_two_pow_sub_one_eq_mod b.toNat 3

theorem middleField_toNat (b : UInt8) : (middleField b).toNat = b.toNat / 8 % 8 := by
  rw [middleField, UInt8.toNat_and, UInt8.toNat_shiftRight]
  have h : b.toNat >>> ((3 : UInt8).toNat % 8) = b.toNat / 8 := Nat.shiftRight_eq_div_pow b.toNat 3
  rw [h]
  exact Nat.and_two_pow_sub_one_eq_mod (b.toNat / 8) 3

theorem highField_toNat (b : UInt8) : (highField b).toNat = b.toNat / 64 := by
  rw [highField, UInt8.toNat_shiftRight]
  exact Nat.shiftRight_eq_div_pow b.toNat 6

/-! ## 2. The first page -/

/-- The core executes the instruction that the bits of an opcode of the first page name. -/
theorem decodeExecute_firstPage {b : UInt8} {i : Instruction} (hb : b ≠ secondPage)
    (hi : Instruction.ofFirstPage b = some i) (tail : List UInt8)
    (ht : tail.length = i.trailing) (s : Cpu) :
    ∃ cycles, sm83.decodeExecute s (b :: tail) = .executed (i.step tail s) cycles :=
  ⟨i.cycles s, decodeExecute_of_names (k := .plain b) (.inl ⟨rfl, hb⟩) hi s ht⟩

/-- The instruction of the first page, by the fields of its opcode. -/
theorem ofFirstPage_eq (b : UInt8) :
    Instruction.ofFirstPage b =
      (match (highField b).toNat with
        | 0 => Instruction.ofFirstQuarter (middleField b).toNat (lowField b).toNat
        | 1 => Instruction.ofCells (slot (middleField b)) (slot (lowField b))
        | 2 => some (.alu (.ofIndex (middleField b).toNat) (.cell (slot (lowField b))))
        | _ => Instruction.ofLastQuarter (middleField b).toNat (lowField b).toNat) := by
  unfold slot
  rw [middleField_toNat, lowField_toNat, highField_toNat]
  rfl

/-- The byte that selects the second page is in the last quarter, and its low field is three. -/
theorem ne_secondPage {b : UInt8} (h : highField b ≠ 3 ∨ lowField b ≠ 3) : b ≠ secondPage := by
  rintro rfl
  exact absurd h (by decide)

/-! ## 3. Single bits -/

theorem setBit_testBit (v : UInt8) (n : Fin 8) (k : Nat) :
    (setBit v n).toNat.testBit k = (v.toNat.testBit k || decide (k = n)) := by
  have h : decide (n.val = k) = decide (k = n.val) := decide_eq_decide.mpr eq_comm
  rw [setBit, UInt8.toNat_or, Nat.testBit_or, mask_toNat, Nat.testBit_two_pow, h]

theorem clearBit_testBit (v : UInt8) (n : Fin 8) (k : Nat) :
    (clearBit v n).toNat.testBit k = (v.toNat.testBit k && !decide (k = n)) := by
  rw [clearBit, UInt8.toNat_and, Nat.testBit_and]
  by_cases hk : k < 8
  · have hmask : ∀ n k : Fin 8, (~~~(1 <<< UInt8.ofNat n) : UInt8).toNat.testBit k =
        !decide (k.val = n.val) := by decide
    rw [hmask n ⟨k, hk⟩]
  · have hv : v.toNat.testBit k = false := Nat.testBit_lt_two_pow
      (Nat.lt_of_lt_of_le v.toNat_lt (Nat.pow_le_pow_right (by decide) (by omega)))
    rw [hv, Bool.false_and, Bool.false_and]

/-! ## 4. Loads between cells -/

/-- A load between cells copies what the source held, to where the target was. -/
theorem ofCells_step {t u : Cell} {i : Instruction} (h : Instruction.ofCells t u = some i)
    (s : Cpu) : i.trailing = 0 ∧ i.step [] s = (s.setCell t (s.cell u)).advance 1 := by
  cases t with
  | register d => cases u <;> cases h <;> exact ⟨rfl, rfl⟩
  | pointed =>
    cases u with
    | register r => cases h; exact ⟨rfl, rfl⟩
    | pointed => cases h

theorem slot_eq_pointed {n : Nat} (hn : n < 8) (h : Cell.ofIndex n = .pointed) : n = 6 := by
  revert n
  decide

theorem ofCells_isSome {t u : Cell} (h : ¬(t = .pointed ∧ u = .pointed)) :
    ∃ i, Instruction.ofCells t u = some i := by
  cases t with
  | register d => cases u <;> exact ⟨_, rfl⟩
  | pointed =>
    cases u with
    | register r => exact ⟨_, rfl⟩
    | pointed => exact absurd ⟨rfl, rfl⟩ h

theorem decodeExecute_loads (s : Cpu) {b : UInt8} (hl : 0x40 ≤ b) (hu : b ≤ 0x7F) (hb : b ≠ 0x76) :
    ∃ cycles, sm83.decodeExecute s [b] =
      .executed ((s.setCell (slot (middleField b)) (s.cell (slot (lowField b)))).advance 1)
        cycles := by
  have hl' : 64 ≤ b.toNat := UInt8.le_iff_toNat_le.mp hl
  have hu' : b.toNat ≤ 127 := UInt8.le_iff_toNat_le.mp hu
  have hb' : b.toNat ≠ 118 := fun he => hb (UInt8.toNat_inj.mp he)
  have hfirst : Instruction.ofKey (.plain b) =
      Instruction.ofCells (slot (middleField b)) (slot (lowField b)) := by
    show Instruction.ofFirstPage b = _
    unfold Instruction.ofFirstPage slot
    rw [middleField_toNat, lowField_toNat, show b.toNat / 64 = 1 by omega]
    rfl
  obtain ⟨i, hi⟩ := ofCells_isSome (t := slot (middleField b)) (u := slot (lowField b)) (by
    rintro ⟨hm, hz⟩
    have hm' := slot_eq_pointed (by rw [middleField_toNat]; omega) hm
    have hz' := slot_eq_pointed (by rw [lowField_toNat]; omega) hz
    rw [middleField_toNat] at hm'
    rw [lowField_toNat] at hz'
    omega)
  obtain ⟨htrail, hstep⟩ := ofCells_step hi s
  have hp : (OpcodeKey.plain b).Proper :=
    .inl ⟨rfl, fun he => by rw [show b = secondPage from he] at hu'; exact absurd hu' (by decide)⟩
  have ht : ([] : List UInt8).length = i.trailing := htrail.symm
  refine ⟨i.cycles s, ?_⟩
  rw [← hstep]
  exact decodeExecute_of_names hp (hfirst.trans hi) s ht

/-! ## 5. The second page -/

/-- The core executes every opcode of the second page. -/
theorem decodeExecute_secondPage {b : UInt8} {i : Instruction} {s t : Cpu}
    (hi : Instruction.ofSecondPage b = i) (hs : i.trailing = 0 ∧ i.step [] s = t) :
    ∃ cycles, sm83.decodeExecute s [0xCB, b] = .executed t cycles := by
  have hp : (OpcodeKey.paged b).Proper := .inr rfl
  have hk : Instruction.ofKey (.paged b) = some i := congrArg some hi
  have ht : ([] : List UInt8).length = i.trailing := hs.1.symm
  refine ⟨i.cycles s, ?_⟩
  rw [← hs.2]
  exact decodeExecute_of_names hp hk s ht

theorem shift_step (op : ShiftOp) (t : Cell) (s : Cpu) :
    (Instruction.shift op t).trailing = 0 ∧ (Instruction.shift op t).step [] s =
      ((s.setCell t (op.apply (s.cell t) s.cf).1).setFlags ((op.apply (s.cell t) s.cf).1 == 0) false
        false (op.apply (s.cell t) s.cf).2).advance 2 := by
  cases t with
  | register r => exact ⟨rfl, rfl⟩
  | pointed => exact ⟨rfl, rfl⟩

theorem test_step (n : Fin 8) (t : Cell) (s : Cpu) :
    (Instruction.bit .test n t).trailing = 0 ∧ (Instruction.bit .test n t).step [] s =
      (s.setFlags (!(s.cell t).toNat.testBit n) false true s.cf).advance 2 := by
  cases t with
  | register r => exact ⟨rfl, rfl⟩
  | pointed => exact ⟨rfl, rfl⟩

theorem clear_step (n : Fin 8) (t : Cell) (s : Cpu) :
    (Instruction.bit .clear n t).trailing = 0 ∧ (Instruction.bit .clear n t).step [] s =
      (s.setCell t (clearBit (s.cell t) n)).advance 2 := by
  cases t with
  | register r => exact ⟨rfl, rfl⟩
  | pointed => exact ⟨rfl, rfl⟩

theorem set_step (n : Fin 8) (t : Cell) (s : Cpu) :
    (Instruction.bit .set n t).trailing = 0 ∧ (Instruction.bit .set n t).step [] s =
      (s.setCell t (setBit (s.cell t) n)).advance 2 := by
  cases t with
  | register r => exact ⟨rfl, rfl⟩
  | pointed => exact ⟨rfl, rfl⟩

/-- The instruction of the second page, by the fields of its opcode. -/
theorem ofSecondPage_eq (b : UInt8) :
    Instruction.ofSecondPage b =
      (match (highField b).toNat with
        | 0 => .shift (.ofIndex (middleField b).toNat) (slot (lowField b))
        | 1 => .bit .test (.ofNat 8 (middleField b).toNat) (slot (lowField b))
        | 2 => .bit .clear (.ofNat 8 (middleField b).toNat) (slot (lowField b))
        | _ => .bit .set (.ofNat 8 (middleField b).toNat) (slot (lowField b))) := by
  unfold slot
  rw [middleField_toNat, lowField_toNat, highField_toNat]
  rfl

theorem ofNat_middleField (b : UInt8) :
    (Fin.ofNat 8 (middleField b).toNat).val = (middleField b).toNat := by
  rw [Fin.val_ofNat, middleField_toNat, Nat.mod_mod]

/-! ## 6. Both blocks -/

/-- **Opcodes are executed as their bit fields say.** A load copies a cell, where memory is
    addressed as it was before. A rotation or a shift leaves its result, whether that is zero, and
    the bit that fell out; a test leaves in Z whether the bit is clear; the rest change one bit of a
    cell. -/
theorem decodeExecute_bitFields (s : Cpu) (b : UInt8) :
    (0x40 ≤ b → b ≤ 0x7F → b ≠ 0x76 → ∃ cycles, sm83.decodeExecute s [b] =
      .executed ((s.setCell (slot (middleField b)) (s.cell (slot (lowField b)))).advance 1)
        cycles) ∧
    (highField b = 0 → ∃ v c cycles,
      (ShiftOp.ofIndex (middleField b).toNat).apply (s.cell (slot (lowField b))) s.cf = (v, c) ∧
      sm83.decodeExecute s [0xCB, b] = .executed
        (((s.setCell (slot (lowField b)) v).setFlags (v == 0) false false c).advance 2) cycles) ∧
    (highField b = 1 → ∃ cycles, sm83.decodeExecute s [0xCB, b] = .executed
      ((s.setFlags (!(s.cell (slot (lowField b))).toNat.testBit (middleField b).toNat) false true
        s.cf).advance 2) cycles) ∧
    (highField b = 2 → ∃ v cycles,
      (∀ k, v.toNat.testBit k = if k = (middleField b).toNat then false else
        (s.cell (slot (lowField b))).toNat.testBit k) ∧
      sm83.decodeExecute s [0xCB, b] =
        .executed ((s.setCell (slot (lowField b)) v).advance 2) cycles) ∧
    (highField b = 3 → ∃ v cycles,
      (∀ k, v.toNat.testBit k = if k = (middleField b).toNat then true else
        (s.cell (slot (lowField b))).toNat.testBit k) ∧
      sm83.decodeExecute s [0xCB, b] =
        .executed ((s.setCell (slot (lowField b)) v).advance 2) cycles) := by
  have hfields := ofSecondPage_eq b
  refine ⟨fun hl hu hb => decodeExecute_loads s hl hu hb, fun h => ?_, fun h => ?_, fun h => ?_,
    fun h => ?_⟩
  · rw [h] at hfields
    obtain ⟨n, hn⟩ := decodeExecute_secondPage hfields (shift_step _ _ s)
    exact ⟨_, _, n, rfl, hn⟩
  · rw [h] at hfields
    have hs := test_step (.ofNat 8 (middleField b).toNat) (slot (lowField b)) s
    rw [ofNat_middleField] at hs
    exact decodeExecute_secondPage hfields hs
  · rw [h] at hfields
    obtain ⟨n, hn⟩ := decodeExecute_secondPage hfields (clear_step _ _ s)
    refine ⟨_, n, fun k => ?_, hn⟩
    rw [clearBit_testBit, ofNat_middleField]
    by_cases hk : k = (middleField b).toNat <;> simp [hk]
  · rw [h] at hfields
    obtain ⟨n, hn⟩ := decodeExecute_secondPage hfields (set_step _ _ s)
    refine ⟨_, n, fun k => ?_, hn⟩
    rw [setBit_testBit, ofNat_middleField]
    by_cases hk : k = (middleField b).toNat <;> simp [hk]

end Sm83Codegen
