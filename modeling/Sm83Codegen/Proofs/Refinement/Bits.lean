import Sm83Codegen.Proofs.Evaluation

/-!
# Rotates, shifts and single bits execute

The fragments that move bits are written with shifts and disjunctions; their meaning is written
with sums and quotients. The two agree, and so do the ways to correct packed decimals.

* `eval_shifted`, `run_carryFrom` -- the value of a rotation or a shift, and the bit that falls out;
* `makes_shiftRegister`, `makes_shiftPointed`, `makes_test` and the like -- the fragments;
* `Corrected`, `makes_decimalAdjust` -- packed decimals;
* `shift_executes_register`, `bit_executes` and the like -- the instructions.
-/

namespace Sm83Codegen

open Catalog (dst src)
open Instruction (shiftUpdates shiftParts)

/-! ## 1. Bits of numbers -/

theorem byte_ofNat {m n : Nat} (h : m = n % 256) : Value.number .u8 m = .byte (.ofNat n) := by
  rw [Value.byte, UInt8.toNat_ofNat', h]

/-- A bit moved in from below. -/
theorem shiftLeft_or {v c : Nat} (hc : c < 2) : (v * 2 ^ 1 % 2 ^ 8 ||| c) = (2 * v + c) % 256 := by
  have h : v * 2 ^ 1 % 2 ^ 8 = 2 ^ 1 * (v % 128) := by omega
  rw [h, ← Nat.two_pow_add_eq_or_of_lt hc]
  omega

/-- A bit moved in from above. -/
theorem shiftRight_or {v c : Nat} (hv : v < 256) :
    (v / 2 ^ 1 ||| 2 ^ 7 * c) = v / 2 + 128 * c := by
  rw [Nat.or_comm, ← Nat.two_pow_add_eq_or_of_lt (by omega)]
  omega

theorem testBit_seven {v : Nat} (hv : v < 256) : v.testBit 7 = decide (128 ≤ v) := by
  rw [Nat.testBit_eq_decide_div_mod_eq, decide_eq_decide]
  omega

theorem testBit_zero_eq (v : Nat) : v.testBit 0 = decide (v % 2 = 1) := by
  rw [Nat.testBit_eq_decide_div_mod_eq, Nat.pow_zero, Nat.div_one]

/-- The highest bit by itself. -/
theorem and_highest {v : Nat} (hv : v < 256) : v &&& 2 ^ 7 = 2 ^ 7 * (v / 128) := by
  rw [Nat.and_two_pow, testBit_seven hv, Nat.mul_comm]
  by_cases h : 128 ≤ v
  · rw [decide_eq_true h, show v / 128 = 1 by omega]
    rfl
  · rw [decide_eq_false h, show v / 128 = 0 by omega]
    rfl

theorem mask_toNat (n : Fin 8) : (1 <<< UInt8.ofNat n : UInt8).toNat = 2 ^ n.val := by
  revert n
  decide

/-! ## 2. Rotations and shifts -/

section Shifted

variable {f : Frame} {e : Expr} {v : UInt8} {c : Bool} {mask k : Nat}

/-- The bits that leave a byte at one end come in at the other. -/
theorem rotate_byte (up : Bool) (n : Nat) {k : Nat} (hk : k = if up then n % 8 else 8 - n % 8) :
    (Value.byte v).rotate up n =
      .ok (.number .u8 (v.toNat * 2 ^ k % 2 ^ 8 + v.toNat / 2 ^ (8 - k))) := by
  rw [hk, ← Nat.shiftLeft_eq, ← Nat.shiftRight_eq_div_pow]
  rfl

theorem eval_rotateLeft {n : Nat} (he : e.eval f = .ok (.byte v)) (hn : n < 8) :
    (Expr.rotateLeft e n).eval f =
      .ok (.number .u8 (v.toNat * 2 ^ n % 2 ^ 8 + v.toNat / 2 ^ (8 - n))) := by
  unfold Expr.eval
  rw [he]
  exact rotate_byte true n (Nat.mod_eq_of_lt hn).symm

theorem eval_rotateRight (he : e.eval f = .ok (.byte v)) :
    (Expr.rotateRight e 1).eval f =
      .ok (.number .u8 (v.toNat * 2 ^ 7 % 2 ^ 8 + v.toNat / 2 ^ 1)) := by
  unfold Expr.eval
  rw [he]
  exact rotate_byte false 1 rfl

theorem eval_shiftedUp (hv : f.value .value = .ok (.byte v)) :
    Catalog.shiftedUp.eval f = .ok (.number .u8 (v.toNat * 2 ^ 1 % 2 ^ 8)) :=
  eval_binary (by decide) hv rfl (combine_shiftLeft (by decide))

theorem eval_shiftedDown (hv : f.value .value = .ok (.byte v)) :
    Catalog.shiftedDown.eval f = .ok (.number .u8 (v.toNat / 2 ^ 1)) :=
  eval_binary (by decide) hv rfl (combine_shiftRight (by decide))

theorem eval_carryLow (hC : (Catalog.borrowed .C).eval f = .ok (.truth c)) :
    Catalog.carryLow.eval f = .ok (.number .u8 c.toNat) := eval_cast hC rfl

theorem eval_carryHigh (hC : (Catalog.borrowed .C).eval f = .ok (.truth c)) :
    Catalog.carryHigh.eval f = .ok (.number .u8 (2 ^ 7 * c.toNat)) := by
  have h : Catalog.carryHigh.eval f = .ok (.number .u8 (c.toNat * 2 ^ 7 % 2 ^ 8)) :=
    eval_binary (by decide) (eval_carryLow hC) rfl (combine_shiftLeft (by decide))
  rw [h]
  cases c <;> rfl

/-- A swap has fragments of its own. -/
theorem shiftParts_cases (op : ShiftOp) :
    op = .swap ∨ op ≠ .swap ∧ ∃ e mask, shiftParts op = some (e, mask) := by
  cases op with
  | swap => exact .inl rfl
  | rotate r => cases r <;> exact .inr ⟨by decide, _, _, rfl⟩
  | arithmeticLeft | arithmeticRight | logicalRight => exact .inr ⟨by decide, _, _, rfl⟩

/-- The value of a rotation or a shift. -/
theorem eval_shifted {op : ShiftOp} (hp : shiftParts op = some (e, mask))
    (hv : f.value .value = .ok (.byte v)) (hC : (Catalog.borrowed .C).eval f = .ok (.truth c)) :
    e.eval f = .ok (.byte (op.apply v c).1) := by
  have hlt := v.toNat_lt
  have hc := Bool.toNat_lt c
  cases op with
  | rotate r =>
    cases r with
    | left =>
      cases hp
      refine (eval_rotateLeft (e := .get .value) hv (by decide)).trans ?_
      rw [byte_ofNat (n := 2 * v.toNat + v.toNat / 128) (by omega)]
      rfl
    | right =>
      cases hp
      refine (eval_rotateRight (e := .get .value) hv).trans ?_
      rw [byte_ofNat (n := v.toNat / 2 + 128 * (v.toNat % 2)) (by omega)]
      rfl
    | leftCarry =>
      cases hp
      have h : Catalog.rotatedLeftCarry.eval f =
          .ok (.number .u8 (v.toNat * 2 ^ 1 % 2 ^ 8 ||| c.toNat)) :=
        eval_binary (by decide) (eval_shiftedUp hv) (eval_carryLow hC) rfl
      rw [h, byte_ofNat (n := 2 * v.toNat + c.toNat) (shiftLeft_or hc)]
      rfl
    | rightCarry =>
      cases hp
      have h : Catalog.rotatedRightCarry.eval f =
          .ok (.number .u8 (v.toNat / 2 ^ 1 ||| 2 ^ 7 * c.toNat)) :=
        eval_binary (r := .group Catalog.carryHigh) (by decide) (eval_shiftedDown hv)
          (eval_carryHigh hC) rfl
      rw [h, shiftRight_or hlt, byte_ofNat (n := v.toNat / 2 + 128 * c.toNat) (by omega)]
      rfl
  | arithmeticLeft =>
    cases hp
    refine (eval_shiftedUp hv).trans ?_
    rw [byte_ofNat (n := 2 * v.toNat) (by omega)]
    rfl
  | arithmeticRight =>
    cases hp
    have hand : (Expr.group (.binary .and (.get .value) (Catalog.hexByte 0x80))).eval f =
        .ok (.number .u8 (v.toNat &&& 2 ^ 7)) :=
      eval_binary (l := .get .value) (by decide) hv rfl rfl
    have h : Catalog.shiftedRightSigned.eval f =
        .ok (.number .u8 (v.toNat / 2 ^ 1 ||| v.toNat &&& 2 ^ 7)) :=
      eval_binary (by decide) (eval_shiftedDown hv) hand rfl
    rw [h, and_highest hlt, shiftRight_or hlt,
      byte_ofNat (n := v.toNat / 2 + 128 * (v.toNat / 128)) (by omega)]
    rfl
  | swap => cases hp
  | logicalRight =>
    cases hp
    refine (eval_shiftedDown hv).trans ?_
    rw [byte_ofNat (n := v.toNat / 2) (by omega)]
    rfl

theorem run_carryFrom (hv : f.value .value = .ok (.byte v))
    (ha : f.access (.flag .C) = .ok (.flag .C)) :
    (Catalog.carryFrom (2 ^ k)).run f =
      .ok { f with cpu := f.cpu.setFlag .C (v.toNat.testBit k) } := by
  have hand : (Expr.group (.binary .and (.get .value) (Catalog.hexByte (2 ^ k)))).eval f =
      .ok (.number .u8 (v.toNat &&& 2 ^ k)) := eval_binary (l := .get .value) (by decide) hv rfl rfl
  have he : (Expr.binary .different (.group (.binary .and (.get .value) (Catalog.hexByte (2 ^ k))))
      (Catalog.decimal .u8 0)).eval f = .ok (.truth ((v.toNat &&& 2 ^ k) != 0)) :=
    eval_binary (by decide) hand rfl rfl
  rw [and_two_pow_ne_zero] at he
  exact run_setFlag he ha

/-- The bit that falls out of a rotation or a shift. -/
theorem run_carryOut {op : ShiftOp} (hp : shiftParts op = some (e, mask))
    (hv : f.value .value = .ok (.byte v)) (ha : f.access (.flag .C) = .ok (.flag .C)) :
    (Catalog.carryFrom mask).run f =
      .ok { f with cpu := f.cpu.setFlag .C (op.apply v c).2 } := by
  have hhigh := run_carryFrom (k := 7) hv ha
  have hlow := run_carryFrom (k := 0) hv ha
  rw [testBit_seven v.toNat_lt] at hhigh
  rw [testBit_zero_eq] at hlow
  cases op with
  | rotate r =>
    cases r with
    | left | leftCarry => cases hp; exact hhigh
    | right | rightCarry => cases hp; exact hlow
  | arithmeticLeft => cases hp; exact hhigh
  | arithmeticRight | logicalRight => cases hp; exact hlow
  | swap => cases hp

end Shifted

/-! ## 3. Fragments: rotations and shifts -/

section Shifting

variable {f : Frame} {d : Reg8} {p : Reg16} {v : UInt8} {e : Expr} {mask : Nat} {op : ShiftOp}

/-- The flags that a rotation or a shift sets beside carry. -/
theorem run_shiftUpdates (h₃ : f.value .result = .ok (.byte v))
    (hF : ∀ F, f.access (.flag F) = .ok (.flag F)) :
    runUpdates f shiftUpdates =
      .ok { f with cpu := f.cpu.setFlags (v == 0) false false f.cpu.cf } := by
  rw [← toNat_beq_zero]
  exact runUpdates_cons (run_zero h₃ (hF .Z)) (runUpdates_cons (run_fixed (hF .N))
    (runUpdates_cons (run_fixed (hF .H)) rfl))

theorem makes_shiftRegister (hp : shiftParts op = some (e, mask)) (hn : f.needsRegisters = .ok ())
    (hd : f.reg8 dst = .ok d) (hv : f.cpu.get8 d = v)
    (hF : ∀ F, f.access (.flag F) = .ok (.flag F)) :
    (Catalog.shiftRegister e mask).Makes shiftUpdates f
      ((f.cpu.set8 d (op.apply v f.cpu.cf).1).setFlags ((op.apply v f.cpu.cf).1 == 0) false false
        (op.apply v f.cpu.cf).2) := by
  let f₁ := f.bind .value (.byte v)
  let f₂ := f₁.bind .result (.byte (op.apply v f.cpu.cf).1)
  let f₃ : Frame := { f₂ with cpu := f.cpu.setFlag .C (op.apply v f.cpu.cf).2 }
  have h₁ : (Statement.bind .value (.register dst)).run f = .ok f₁ := by
    show _ = Except.ok (f.bind .value (.byte v))
    rw [← hv]
    exact run_bind (eval_register hn hd)
  have h₂ : (Statement.bind .result e).run f₁ = .ok f₂ :=
    run_bind (eval_shifted hp rfl (eval_borrowed (f := f₁) (hF .C)))
  have h₃ : (Catalog.carryFrom mask).run f₂ = .ok f₃ := run_carryOut (f := f₂) hp rfl (hF .C)
  have h₄ : (Catalog.setByte dst (.get .result)).run f₃ =
      .ok { f₃ with cpu := f₃.cpu.set8 d (op.apply v f.cpu.cf).1 } := run_setByte rfl hn hd
  exact makes_program (run_step h₁ (run_step h₂ (run_blank (run_step h₃ (run_step h₄ rfl)))))
    (run_shiftUpdates rfl hF) rfl

theorem makes_shiftPointed (hp : shiftParts op = some (e, mask)) (hn : f.needsRegisters = .ok ())
    (hm : f.memoryView = .ok true) (hd : f.reg16 dst = .ok p)
    (hv : f.cpu.at16 (f.cpu.get16 p) = v) (hF : ∀ F, f.access (.flag F) = .ok (.flag F)) :
    (Catalog.shiftPointed e mask).Makes shiftUpdates f
      ((f.cpu.put (f.cpu.get16 p) (op.apply v f.cpu.cf).1).setFlags
        ((op.apply v f.cpu.cf).1 == 0) false false (op.apply v f.cpu.cf).2) := by
  let f₀ := f.bind .address (.place (f.cpu.get16 p))
  let f₁ := f₀.bind .value (.byte v)
  let f₂ := f₁.bind .result (.byte (op.apply v f.cpu.cf).1)
  let f₃ : Frame := { f₂ with cpu := f.cpu.setFlag .C (op.apply v f.cpu.cf).2 }
  have h₀ : (Statement.bind .address (Catalog.asAddress (.pair dst))).run f = .ok f₀ :=
    run_bind (eval_asAddress (eval_pair hn hd))
  have h₁ : (Statement.bind .value (.byteAt (.get .address))).run f₀ = .ok f₁ := by
    show _ = Except.ok (f₀.bind .value (.byte v))
    rw [← hv]
    exact run_bind (eval_byteAt hm rfl)
  have h₂ : (Statement.bind .result e).run f₁ = .ok f₂ :=
    run_bind (eval_shifted hp rfl (eval_borrowed (f := f₁) (hF .C)))
  have h₃ : (Catalog.carryFrom mask).run f₂ = .ok f₃ := run_carryOut (f := f₂) hp rfl (hF .C)
  have h₄ : (Statement.assign Catalog.atAddress (.get .result)).run f₃ =
      .ok { f₃ with cpu := f₃.cpu.put (f.cpu.get16 p) (op.apply v f.cpu.cf).1 } :=
    run_store rfl hm rfl
  exact makes_program (run_step h₀ (run_step h₁ (run_step h₂ (run_blank (run_step h₃
    (run_step h₄ rfl)))))) (run_shiftUpdates rfl hF) rfl

/-- The halves of a byte swapped. -/
theorem eval_swapped (he : e.eval f = .ok (.byte v)) :
    (Expr.rotateLeft e 4).eval f = .ok (.byte (ShiftOp.swap.apply v false).1) := by
  have hv := v.toNat_lt
  rw [eval_rotateLeft he (by decide),
    byte_ofNat (n := v.toNat / 16 + 16 * (v.toNat % 16)) (by omega)]
  rfl

theorem makes_swapRegister (hn : f.needsRegisters = .ok ()) (hd : f.reg8 dst = .ok d)
    (hv : f.cpu.get8 d = v) (hF : ∀ F, f.access (.flag F) = .ok (.flag F)) :
    Catalog.swapRegister.Makes (shiftUpdates ++ [.fixed .C false]) f
      ((f.cpu.set8 d (ShiftOp.swap.apply v false).1).setFlags
        ((ShiftOp.swap.apply v false).1 == 0) false false false) := by
  let g := f.bind .result (.byte (ShiftOp.swap.apply v false).1)
  have h₁ : (Statement.bind .result (.rotateLeft (.register dst) 4)).run f = .ok g := by
    show _ = Except.ok (f.bind .result (.byte (ShiftOp.swap.apply v false).1))
    rw [← hv]
    exact run_bind (eval_swapped (eval_register hn hd))
  have h₂ : (Catalog.setByte dst (.get .result)).run g =
      .ok { g with cpu := f.cpu.set8 d (ShiftOp.swap.apply v false).1 } := run_setByte rfl hn hd
  exact makes_program (run_step h₁ (run_step h₂ rfl))
    (run_byteUpdates rfl hF) rfl

theorem makes_swapPointed (hn : f.needsRegisters = .ok ()) (hm : f.memoryView = .ok true)
    (hd : f.reg16 dst = .ok p) (hv : f.cpu.at16 (f.cpu.get16 p) = v)
    (hF : ∀ F, f.access (.flag F) = .ok (.flag F)) :
    Catalog.swapPointed.Makes (shiftUpdates ++ [.fixed .C false]) f
      ((f.cpu.put (f.cpu.get16 p) (ShiftOp.swap.apply v false).1).setFlags
        ((ShiftOp.swap.apply v false).1 == 0) false false false) := by
  let f₀ := f.bind .address (.place (f.cpu.get16 p))
  let g := f₀.bind .result (.byte (ShiftOp.swap.apply v false).1)
  have h₀ : (Statement.bind .address (Catalog.asAddress (.pair dst))).run f = .ok f₀ :=
    run_bind (eval_asAddress (eval_pair hn hd))
  have h₁ : (Statement.bind .result (.rotateLeft (.byteAt (.get .address)) 4)).run f₀ = .ok g := by
    show _ = Except.ok (f₀.bind .result (.byte (ShiftOp.swap.apply v false).1))
    rw [← hv]
    exact run_bind (eval_swapped (eval_byteAt hm rfl))
  have h₂ : (Statement.assign Catalog.atAddress (.get .result)).run g =
      .ok { g with cpu := f.cpu.put (f.cpu.get16 p) (ShiftOp.swap.apply v false).1 } :=
    run_store rfl hm rfl
  exact makes_program (run_step h₀ (run_step h₁ (run_step h₂ rfl)))
    (run_byteUpdates rfl hF) rfl

/-- The flags that a rotation of the accumulator fixes. -/
theorem run_rotateUpdates (hF : ∀ F, f.access (.flag F) = .ok (.flag F)) :
    runUpdates f [.fixed .Z false, .fixed .N false, .fixed .H false] =
      .ok { f with cpu := f.cpu.setFlags false false false f.cpu.cf } :=
  runUpdates_cons (run_fixed (hF .Z)) (runUpdates_cons (run_fixed (hF .N))
    (runUpdates_cons (run_fixed (hF .H)) rfl))

/-- The accumulator rotated by itself. Carry is set before the value is worked out. -/
theorem makes_rotateAccumulator {r : Rotation} (hp : shiftParts (.rotate r) = some (e, mask))
    (hc : ∀ c, r.apply v c = r.apply v f.cpu.cf) (hn : f.needsRegisters = .ok ())
    (hv : f.cpu.get8 .A = v) (hF : ∀ F, f.access (.flag F) = .ok (.flag F)) :
    (Catalog.rotateAccumulator mask e).Makes [.fixed .Z false, .fixed .N false, .fixed .H false] f
      ((f.cpu.set8 .A (r.apply v f.cpu.cf).1).setFlags false false false
        (r.apply v f.cpu.cf).2) := by
  let f₁ := f.bind .value (.byte v)
  let f₂ : Frame := { f₁ with cpu := f.cpu.setFlag .C (r.apply v f.cpu.cf).2 }
  have h₁ : (Statement.bind .value (.register Catalog.accumulatorTerm)).run f = .ok f₁ := by
    show _ = Except.ok (f.bind .value (.byte v))
    rw [← hv]
    exact run_bind (eval_register hn rfl)
  have h₂ : (Catalog.carryFrom mask).run f₁ = .ok f₂ := run_carryOut (f := f₁) hp rfl (hF .C)
  have he : e.eval f₂ = .ok (.byte (r.apply v f.cpu.cf).1) := by
    rw [← hc f₂.cpu.cf]
    exact eval_shifted hp rfl (eval_borrowed (f := f₂) (hF .C))
  have h₃ : (Catalog.setByte Catalog.accumulatorTerm e).run f₂ =
      .ok { f₂ with cpu := f₂.cpu.set8 .A (r.apply v f.cpu.cf).1 } := run_setByte he hn rfl
  exact makes_program (run_step h₁ (run_blank (run_step h₂ (run_step h₃ rfl))))
    (run_rotateUpdates hF) rfl

/-- The accumulator rotated through carry, which is bound before it is set. -/
theorem makes_rotateAccumulatorCarry {r : Rotation} {carry shifted : Expr} {m k : Nat}
    (hp : shiftParts (.rotate r) = some (e, mask)) (hn : f.needsRegisters = .ok ())
    (hv : f.cpu.get8 .A = v) (hF : ∀ F, f.access (.flag F) = .ok (.flag F))
    (hk : carry.eval (f.bind .value (.byte v)) = .ok (.number .u8 k))
    (hm : ∀ t, shifted.eval { (f.bind .value (.byte v)).bind .carryIn (.number .u8 k) with
      cpu := t } = .ok (.number .u8 m))
    (hr : Value.number .u8 (m ||| k) = .byte (r.apply v f.cpu.cf).1) :
    (Catalog.rotateAccumulatorCarry carry mask shifted).Makes
      [.fixed .Z false, .fixed .N false, .fixed .H false] f
      ((f.cpu.set8 .A (r.apply v f.cpu.cf).1).setFlags false false false
        (r.apply v f.cpu.cf).2) := by
  let f₁ := f.bind .value (.byte v)
  let f₂ := f₁.bind .carryIn (.number .u8 k)
  let f₃ : Frame := { f₂ with cpu := f.cpu.setFlag .C (r.apply v f.cpu.cf).2 }
  have h₁ : (Statement.bind .value (.register Catalog.accumulatorTerm)).run f = .ok f₁ := by
    show _ = Except.ok (f.bind .value (.byte v))
    rw [← hv]
    exact run_bind (eval_register hn rfl)
  have h₂ : (Statement.bind .carryIn carry).run f₁ = .ok f₂ := run_bind hk
  have h₃ : (Catalog.carryFrom mask).run f₂ = .ok f₃ := run_carryOut (f := f₂) hp rfl (hF .C)
  have he : (Expr.binary .or shifted (.get .carryIn)).eval f₃ =
      .ok (.byte (r.apply v f.cpu.cf).1) := by
    rw [← hr]
    exact eval_binary (by decide) (hm _) rfl rfl
  have h₄ : (Catalog.setByte Catalog.accumulatorTerm (.binary .or shifted (.get .carryIn))).run
      f₃ = .ok { f₃ with cpu := f₃.cpu.set8 .A (r.apply v f.cpu.cf).1 } := run_setByte he hn rfl
  exact makes_program (run_step h₁ (run_step h₂ (run_blank (run_step h₃ (run_step h₄ rfl)))))
    (run_rotateUpdates hF) rfl

/-- **Every rotation of the accumulator.** -/
theorem makes_rotation (r : Rotation) (hn : f.needsRegisters = .ok ()) (hv : f.cpu.get8 .A = v)
    (hF : ∀ F, f.access (.flag F) = .ok (.flag F)) :
    (Instruction.rotateFragment r).Makes [.fixed .Z false, .fixed .N false, .fixed .H false] f
      ((f.cpu.set8 .A (r.apply v f.cpu.cf).1).setFlags false false false
        (r.apply v f.cpu.cf).2) := by
  have hlt := v.toNat_lt
  have hc := Bool.toNat_lt f.cpu.cf
  have hC : (Catalog.borrowed .C).eval (f.bind .value (.byte v)) = .ok (.truth f.cpu.cf) :=
    eval_borrowed (f := f.bind .value (.byte v)) (hF .C)
  cases r with
  | left => exact makes_rotateAccumulator (r := .left) rfl (fun _ => rfl) hn hv hF
  | right => exact makes_rotateAccumulator (r := .right) rfl (fun _ => rfl) hn hv hF
  | leftCarry =>
    exact makes_rotateAccumulatorCarry (r := .leftCarry) rfl hn hv hF (eval_carryLow hC)
      (fun _ => eval_shiftedUp rfl) (byte_ofNat (shiftLeft_or hc))
  | rightCarry =>
    refine makes_rotateAccumulatorCarry (r := .rightCarry) rfl hn hv hF (eval_carryHigh hC)
      (fun _ => eval_shiftedDown rfl) ?_
    rw [shiftRight_or hlt]
    exact byte_ofNat (by omega)

end Shifting

/-! ## 4. Fragments: single bits -/

section SingleBits

variable {f : Frame} {r : Reg8} {p : Reg16} {v : UInt8} {n : Fin 8} {e : Expr}

theorem eval_bitMask (hl : f.value .literal = .ok (.byte (.ofNat n))) :
    Catalog.bitMask.eval f = .ok (.byte (1 <<< UInt8.ofNat n)) := by
  have hn : (UInt8.ofNat n).toNat = n.val :=
    UInt8.toNat_ofNat_of_lt' (by rw [UInt8.size]; omega)
  have hlt : (2 : Nat) ^ n.val < 2 ^ 8 := Nat.pow_lt_pow_right (by decide) n.isLt
  have h : Catalog.bitMask.eval f = .ok (.number .u8 (1 * 2 ^ (UInt8.ofNat n).toNat % 2 ^ 8)) :=
    eval_binary (by decide) rfl hl (combine_shiftLeft (by rw [hn]; exact n.isLt))
  rw [h, hn, Nat.one_mul, Nat.mod_eq_of_lt hlt, Value.byte, mask_toNat]

theorem eval_otherBits (hl : f.value .literal = .ok (.byte (.ofNat n))) :
    Catalog.otherBits.eval f = .ok (.byte (~~~(1 <<< UInt8.ofNat n))) := by
  refine eval_complement (e := .group Catalog.bitMask) (eval_bitMask hl) ?_
  exact congrArg (fun k => Except.ok (Value.number .u8 k)) (UInt8.toNat_not _).symm

/-- Z says whether the bit is zero. -/
theorem run_testUpdates (hr : f.value .result = .ok (.byte (v &&& 1 <<< UInt8.ofNat n)))
    (hZ : f.access (.flag .Z) = .ok (.flag .Z)) (hN : f.access (.flag .N) = .ok (.flag .N))
    (hH : f.access (.flag .H) = .ok (.flag .H)) :
    runUpdates f [.zero .Z, .fixed .N false, .fixed .H true] = .ok { f with
      cpu := f.cpu.setFlags (!v.toNat.testBit n) false true f.cpu.cf } := by
  have hz : ((v &&& 1 <<< UInt8.ofNat n).toNat % 256 == 0) = !v.toNat.testBit n := by
    rw [Nat.mod_eq_of_lt (UInt8.toNat_lt _), UInt8.toNat_and, mask_toNat, ← and_two_pow_ne_zero,
      bne, Bool.not_not]
  rw [← hz]
  exact runUpdates_cons (run_zero hr hZ) (runUpdates_cons (run_fixed hN)
    (runUpdates_cons (run_fixed hH) rfl))

theorem makes_test (he : e.eval f = .ok (.byte v))
    (hl : f.value .literal = .ok (.byte (.ofNat n))) (hZ : f.access (.flag .Z) = .ok (.flag .Z))
    (hN : f.access (.flag .N) = .ok (.flag .N)) (hH : f.access (.flag .H) = .ok (.flag .H)) :
    (Catalog.single (.bind .result (.binary .and e (.group Catalog.bitMask)))).Makes
      [.zero .Z, .fixed .N false, .fixed .H true] f
      (f.cpu.setFlags (!v.toNat.testBit n) false true f.cpu.cf) := by
  have hand : (Expr.binary .and e (.group Catalog.bitMask)).eval f =
      .ok (.byte (v &&& 1 <<< UInt8.ofNat n)) :=
    eval_binary (by decide) he (eval_bitMask hl) (combine_and ..)
  exact makes_program (run_step (run_bind hand) rfl) (run_testUpdates rfl hZ hN hH) rfl

theorem makes_clearRegister (hn : f.needsRegisters = .ok ()) (hs : f.reg8 src = .ok r)
    (hl : f.value .literal = .ok (.byte (.ofNat n))) :
    Catalog.clearRegister.Makes [] f (f.cpu.set8 r (clearBit (f.cpu.get8 r) n)) :=
  makes_single (run_update (eval_otherBits hl) (eval_register hn hs) (combine_and ..)
    (write_register hn hs)) rfl

theorem makes_setRegister (hn : f.needsRegisters = .ok ()) (hs : f.reg8 src = .ok r)
    (hl : f.value .literal = .ok (.byte (.ofNat n))) :
    Catalog.setRegister.Makes [] f (f.cpu.set8 r (setBit (f.cpu.get8 r) n)) :=
  makes_single (run_update (eval_bitMask hl) (eval_register hn hs) (combine_or ..)
    (write_register hn hs)) rfl

/-- The byte in memory is read and written at the address that was bound. -/
theorem makes_updatePointed {op : BinaryOp} {b w : UInt8} (hn : f.needsRegisters = .ok ())
    (hm : f.memoryView = .ok true) (hs : f.reg16 src = .ok p)
    (he : e.eval (f.bind .address (.place (f.cpu.get16 p))) = .ok (.byte b))
    (hc : (Value.byte (f.cpu.at16 (f.cpu.get16 p))).combine op (.byte b) = .ok (.byte w)) :
    (Catalog.updatePointed op e).Makes [] f (f.cpu.put (f.cpu.get16 p) w) := by
  let g := f.bind .address (.place (f.cpu.get16 p))
  have h₁ : (Statement.bind .address (Catalog.asAddress (.pair src))).run f = .ok g :=
    run_bind (eval_asAddress (eval_pair hn hs))
  have h₂ : (Statement.update op Catalog.atAddress e).run g =
      .ok { g with cpu := f.cpu.put (f.cpu.get16 p) w } :=
    run_update he (eval_byteAt (f := g) (a := .get .address) hm rfl) hc (write_byteAt hm rfl)
  exact makes_framed (run_step h₁ (run_step h₂ rfl)) rfl

end SingleBits

/-! ## 5. Fragments: packed decimals -/

/-- A frame that differs from another in its result alone. -/
structure Corrected (f : Frame) (r : Nat) (g : Frame) : Prop where
  cpu : g.cpu = f.cpu
  result : g.value .result = .ok (.number .u16 r)
  access : ∀ b, b ≠ .result → g.access b = f.access b

theorem access_bind_of_ne {f : Frame} {b c : Binding} (a : Value) (h : c ≠ b) :
    (f.bind b a).access c = f.access c := by
  unfold Frame.access Frame.bind
  rw [List.find?_cons_of_neg (by simpa using h.symm)]

section Decimal

variable {f g : Frame} {c : Expr} {t : Statement} {m r : Nat} {b : Bool}

theorem Corrected.bind (hg : Corrected f m g) (r : Nat) :
    Corrected f r (g.bind .result (.number .u16 r)) :=
  ⟨hg.cpu, rfl, fun b hb => (access_bind_of_ne _ hb).trans (hg.access b hb)⟩

theorem Corrected.borrowed (hg : Corrected f m g) {F : Flag}
    (hF : f.access (.flag F) = .ok (.flag F)) :
    (Catalog.borrowed F).eval g = .ok (.truth (f.cpu.flag F)) := by
  rw [← hg.cpu]
  exact eval_borrowed ((hg.access _ (by simp)).trans hF)

/-- One correction, made if a test holds. -/
theorem Corrected.choose (hg : Corrected f m g) (hc : c.eval g = .ok (.truth b))
    (ht : t.run g = .ok (g.bind .result (.number .u16 r))) :
    ∃ h, Corrected f (if b then r else m) h ∧
      ∀ rest, (Program.choose c (.step t .done) .done rest).run g = rest.run h := by
  cases b with
  | true =>
    exact ⟨_, hg.bind r, fun rest => run_choose (b := true) hc (run_step ht rfl) rfl⟩
  | false => exact ⟨g, hg, fun rest => run_choose (b := false) hc rfl rfl⟩

/-- The result after a subtraction. -/
theorem run_correctDifference {a : UInt8} (hg : Corrected f a.toNat g)
    (hH : f.access (.flag .H) = .ok (.flag .H)) (hC : f.access (.flag .C) = .ok (.flag .C)) :
    ∃ h r, Corrected f r h ∧ Catalog.correctDifference.run g = .ok h ∧
      UInt8.ofNat r = adjusted a true f.cpu.hf f.cpu.cf ∧
      (f.cpu.cf || r.testBit 8) = f.cpu.cf := by
  have ha := a.toNat_lt
  have hless : (Statement.assign (.named .result) (.binary .and
      (.wrappingSub (.get .result) (Catalog.hexWord 0x06)) (Catalog.hexWord 0xFF))).run g =
      .ok (g.bind .result (.number .u16 ((a.toNat + (65536 - 6)) % 65536 % 256))) := by
    have he : (Expr.binary .and (.wrappingSub (.get .result) (Catalog.hexWord 0x06))
        (Catalog.hexWord 0xFF)).eval g =
        .ok (.number .u16 ((a.toNat + (65536 - 6)) % 65536 &&& 0xFF)) :=
      eval_binary (by decide) (eval_wrapping (l := .get .result) hg.result rfl).2 rfl rfl
    rw [show (0xFF : Nat) = 2 ^ 8 - 1 from rfl, Nat.and_two_pow_sub_one_eq_mod] at he
    exact run_setNamed he hg.result
  obtain ⟨g₁, hg₁, hrun₁⟩ := hg.choose (hg.borrowed hH) hless
  let r₁ := if f.cpu.hf then (a.toNat + (65536 - 6)) % 65536 % 256 else a.toNat
  have hr₁ : r₁ = (a.toNat + 256 - if f.cpu.hf then 6 else 0) % 256 := by
    show (if f.cpu.hf then (a.toNat + (65536 - 6)) % 65536 % 256 else a.toNat) = _
    split <;> omega
  have hlow : (Statement.assign (.named .result)
      (.wrappingSub (.get .result) (Catalog.hexWord 0x60))).run g₁ =
      .ok (g₁.bind .result (.number .u16 ((r₁ + (65536 - 0x60)) % 65536))) :=
    run_setNamed (eval_wrapping (l := .get .result) hg₁.result rfl).2 hg₁.result
  obtain ⟨g₂, hg₂, hrun₂⟩ := hg₁.choose (hg₁.borrowed hC) hlow
  refine ⟨g₂, _, hg₂, (hrun₁ _).trans (hrun₂ _), ofNat_eq_ofNat ?_, ?_⟩
  · show (if f.cpu.cf then (r₁ + (65536 - 0x60)) % 65536 else r₁) % 256 =
      (a.toNat + 256 - correction a true f.cpu.hf f.cpu.cf) % 256
    simp only [hr₁, correction, Bool.not_true, Bool.false_and, Bool.or_false]
    split <;> split <;> omega
  · show (f.cpu.cf || (if f.cpu.cf then (r₁ + (65536 - 0x60)) % 65536 else r₁).testBit 8) = _
    -- without a borrow the result stays a byte
    have hlt : r₁ < 2 ^ 8 := by rw [hr₁]; exact Nat.mod_lt _ (by decide)
    cases f.cpu.cf with
    | true => rfl
    | false => exact Nat.testBit_lt_two_pow hlt

/-- A constant added to the result. -/
theorem run_addToResult {n : Nat} (hg : Corrected f m g) (hn : m + n < 65536) :
    (Catalog.addToResult n).run g = .ok (g.bind .result (.number .u16 (m + n))) := by
  have hw : (Place.named .result).write g (.number .u16 (m + n)) =
      .ok (g.bind .result (.number .u16 (m + n))) := by
    rw [Place.write, hg.result]
    rfl
  exact run_update rfl hg.result (if_pos hn) hw

/-- Whether the low digit of the result is above nine. -/
theorem eval_lowDigit {a : UInt8} (hg : Corrected f a.toNat g) :
    (Expr.binary .greater (.group (.binary .and (.get .result) (Catalog.hexWord 0x0F)))
      (Catalog.hexWord 0x09)).eval g = .ok (.truth (decide (a.toNat % 16 > 9))) := by
  have hand : (Expr.group (.binary .and (.get .result) (Catalog.hexWord 0x0F))).eval g =
      .ok (.number .u16 (a.toNat &&& 0x0F)) :=
    eval_binary (l := .get .result) (by decide) hg.result rfl rfl
  rw [show (0x0F : Nat) = 2 ^ 4 - 1 from rfl, Nat.and_two_pow_sub_one_eq_mod] at hand
  exact eval_binary (by decide) hand rfl rfl

/-- The first correction takes a low digit above nine over the border of the second. -/
theorem highDigit_border {a r : Nat} {h : Bool} (ha : a < 256)
    (hr : r = a + if h || decide (9 < a % 16) then 6 else 0) :
    decide (r > 0x9F) = decide (0x99 < a) := by
  rw [hr, decide_eq_decide]
  by_cases hd : 9 < a % 16
  · rw [decide_eq_true hd, Bool.or_true, if_pos rfl]
    omega
  · split <;> omega

/-- The second correction is what carries out of the byte. -/
theorem testBit_corrected {a r : Nat} (c : Bool) (hlt : r < 262)
    (hborder : decide (r > 0x9F) = decide (0x99 < a)) :
    (c || (if c || decide (0x99 < a) then r + 0x60 else r).testBit 8) =
      (c || decide (0x99 < a)) := by
  cases c with
  | true => rfl
  | false =>
    rw [← hborder]
    by_cases hr : r > 0x9F
    · rw [decide_eq_true hr]
      show (r + 0x60).testBit 8 = true
      rw [Nat.testBit_eq_decide_div_mod_eq, decide_eq_true (by omega)]
    · rw [decide_eq_false hr]
      show r.testBit 8 = false
      exact Nat.testBit_lt_two_pow (by omega)

/-- The result after an addition. -/
theorem run_correctSum {a : UInt8} (hg : Corrected f a.toNat g)
    (hH : f.access (.flag .H) = .ok (.flag .H)) (hC : f.access (.flag .C) = .ok (.flag .C)) :
    ∃ h r, Corrected f r h ∧ Catalog.correctSum.run g = .ok h ∧
      UInt8.ofNat r = adjusted a false f.cpu.hf f.cpu.cf ∧
      (f.cpu.cf || r.testBit 8) = (f.cpu.cf || decide (0x99 < a.toNat)) := by
  have ha := a.toNat_lt
  obtain ⟨g₁, hg₁, hrun₁⟩ := hg.choose (eval_either (hg.borrowed hH) (eval_lowDigit hg))
    (run_addToResult (n := 0x06) hg (by omega))
  let r₁ := if f.cpu.hf || decide (a.toNat % 16 > 9) then a.toNat + 6 else a.toNat
  change Corrected f r₁ g₁ at hg₁
  have hr₁ : r₁ = a.toNat + if f.cpu.hf || decide (9 < a.toNat % 16) then 6 else 0 := by
    show (if f.cpu.hf || decide (a.toNat % 16 > 9) then a.toNat + 6 else a.toNat) = _
    split <;> rfl
  have hlt : r₁ < 262 := by
    rw [hr₁]
    split <;> omega
  have hhigh : (Expr.binary .greater (.get .result) (Catalog.hexWord 0x9F)).eval g₁ =
      .ok (.truth (decide (r₁ > 0x9F))) :=
    eval_binary (l := .get .result) (by decide) hg₁.result rfl rfl
  have hborder := highDigit_border ha hr₁
  rw [hborder] at hhigh
  obtain ⟨g₂, hg₂, hrun₂⟩ := hg₁.choose (eval_either (hg₁.borrowed hC) hhigh)
    (run_addToResult (n := 0x60) hg₁ (by omega))
  refine ⟨g₂, _, hg₂, (hrun₁ _).trans (hrun₂ _), ofNat_eq_ofNat ?_,
    testBit_corrected _ hlt hborder⟩
  show (if f.cpu.cf || decide (0x99 < a.toNat) then r₁ + 0x60 else r₁) % 256 =
    (a.toNat + correction a false f.cpu.hf f.cpu.cf) % 256
  simp only [hr₁, correction, Bool.not_false, Bool.true_and]
  split <;> omega

/-- Both corrections, chosen by the flag of the last operation. -/
theorem run_correct {a : UInt8} {n : Bool} (hg : Corrected f a.toNat g)
    (hN : f.value (.flag .N) = .ok (.truth n)) (hH : f.access (.flag .H) = .ok (.flag .H))
    (hC : f.access (.flag .C) = .ok (.flag .C)) :
    ∃ h r, Corrected f r h ∧
      (∀ rest, (Program.choose (.get (.flag .N)) Catalog.correctDifference Catalog.correctSum
        rest).run g = rest.run h) ∧
      UInt8.ofNat r = adjusted a n f.cpu.hf f.cpu.cf ∧
      (f.cpu.cf || r.testBit 8) = (f.cpu.cf || (!n && decide (0x99 < a.toNat))) := by
  have hn : (Expr.get (.flag .N)).eval g = .ok (.truth n) := by
    show (g.access _ >>= _) = _
    rw [hg.access _ (by simp)]
    exact hN
  cases n with
  | true =>
    obtain ⟨h, r, hh, hrun, hv, hc⟩ := run_correctDifference hg hH hC
    exact ⟨h, r, hh, fun rest => run_choose hn hrun rfl, hv, hc.trans (Bool.or_false _).symm⟩
  | false =>
    obtain ⟨h, r, hh, hrun, hv, hc⟩ := run_correctSum hg hH hC
    exact ⟨h, r, hh, fun rest => run_choose hn hrun rfl, hv, hc⟩

/-- The bit above the byte of the result, joined with the carry that was. -/
theorem eval_carryOrOverflow (hg : Corrected f r g) (hC : f.access (.flag .C) = .ok (.flag .C)) :
    (Expr.binary .either (Catalog.borrowed .C) (.binary .different
      (.group (.binary .and (.get .result) (.number .u16 0x100 (.hex 3))))
      (Catalog.decimal .u16 0))).eval g = .ok (.truth (f.cpu.cf || r.testBit 8)) := by
  have hand : (Expr.group (.binary .and (.get .result) (.number .u16 0x100 (.hex 3)))).eval g =
      .ok (.number .u16 (r &&& 2 ^ 8)) :=
    eval_binary (l := .get .result) (by decide) hg.result rfl rfl
  have hbit : (Expr.binary .different
      (.group (.binary .and (.get .result) (.number .u16 0x100 (.hex 3))))
      (Catalog.decimal .u16 0)).eval g = .ok (.truth ((r &&& 2 ^ 8) != 0)) :=
    eval_binary (by decide) hand rfl rfl
  rw [and_two_pow_ne_zero] at hbit
  exact eval_either (hg.borrowed hC) hbit

theorem makes_decimalAdjust {a : UInt8} {n : Bool} (hreg : f.needsRegisters = .ok ())
    (ha : f.cpu.get8 .A = a) (hN : f.value (.flag .N) = .ok (.truth n))
    (hZ : f.access (.flag .Z) = .ok (.flag .Z)) (hH : f.access (.flag .H) = .ok (.flag .H))
    (hC : f.access (.flag .C) = .ok (.flag .C)) :
    Catalog.decimalAdjust.Makes [.zero .Z, .fixed .H false] f
      ((f.cpu.set8 .A (adjusted a n f.cpu.hf f.cpu.cf)).setFlags
        (adjusted a n f.cpu.hf f.cpu.cf == 0) f.cpu.nf false
        (f.cpu.cf || (!n && decide (0x99 < a.toNat)))) := by
  let f₀ := f.bind .result (.number .u16 a.toNat)
  have h₀ : (Statement.bindMutable .result (Catalog.wide (.register Catalog.accumulatorTerm))).run
      f = .ok f₀ := by
    show _ = Except.ok (f.bind .result (.number .u16 a.toNat))
    rw [← ha]
    exact run_bindMutable (eval_wide (eval_register hreg rfl))
  have hf₀ : Corrected f a.toNat f₀ := ⟨rfl, rfl, fun _ hb => access_bind_of_ne _ hb⟩
  obtain ⟨g, r, hg, hrun, hv, hc⟩ := run_correct hf₀ hN hH hC
  have hcarry := eval_carryOrOverflow hg hC
  rw [hc] at hcarry
  let g₁ : Frame := { g with cpu := g.cpu.setFlag .C (f.cpu.cf || (!n && decide (0x99 < a.toNat))) }
  have h₁ : (Statement.assign (.deref (.flag .C)) (.binary .either (Catalog.borrowed .C)
      (.binary .different (.group (.binary .and (.get .result) (.number .u16 0x100 (.hex 3))))
        (Catalog.decimal .u16 0)))).run g = .ok g₁ :=
    run_setFlag hcarry ((hg.access _ (by simp)).trans hC)
  have hreg₁ : g₁.needsRegisters = .ok () := by
    show (g.access .registers >>= _) = _
    rw [hg.access _ (by simp)]
    exact hreg
  have h₂ : (Catalog.setByte Catalog.accumulatorTerm Catalog.resultByte).run g₁ =
      .ok { g₁ with cpu := g₁.cpu.set8 .A (.ofNat r) } :=
    run_setByte (eval_resultByte hg.result) hreg₁ rfl
  have hZ' := (hg.access (.flag .Z) (by simp)).trans hZ
  have hH' := (hg.access (.flag .H) (by simp)).trans hH
  have hu : runUpdates { g₁ with cpu := g₁.cpu.set8 .A (.ofNat r) } [.zero .Z, .fixed .H false] =
      .ok { g₁ with
        cpu := ((g₁.cpu.set8 .A (.ofNat r)).setFlag .Z (r % 256 == 0)).setFlag .H false } :=
    runUpdates_cons (run_zero hg.result hZ') (runUpdates_cons (run_fixed hH') rfl)
  refine makes_program (run_step h₀ (run_blank ((hrun _).trans (run_blank (run_step h₁
    (run_step h₂ rfl)))))) hu ?_
  rw [← hv, ofNat_beq_zero]
  show ((((g.cpu.setFlag .C _).set8 .A _).setFlag .Z _).setFlag .H false) = _
  rw [hg.cpu]
  rfl

end Decimal

/-! ## 6. Fragments: flags and the accumulator -/

section Flags

variable {f : Frame}

theorem makes_nothing : Catalog.nothing.Makes [] f f.cpu := makes_program rfl rfl rfl

theorem makes_setCarry (hN : f.access (.flag .N) = .ok (.flag .N))
    (hH : f.access (.flag .H) = .ok (.flag .H)) (hC : f.access (.flag .C) = .ok (.flag .C)) :
    Catalog.nothing.Makes [.fixed .N false, .fixed .H false, .fixed .C true] f
      (f.cpu.setFlags f.cpu.zf false false true) :=
  makes_program rfl (runUpdates_cons (run_fixed hN) (runUpdates_cons (run_fixed hH)
    (runUpdates_cons (run_fixed hC) rfl))) rfl

theorem makes_complementCarry (hN : f.access (.flag .N) = .ok (.flag .N))
    (hH : f.access (.flag .H) = .ok (.flag .H)) (hC : f.access (.flag .C) = .ok (.flag .C)) :
    Catalog.complementCarry.Makes [.fixed .N false, .fixed .H false] f
      (f.cpu.setFlags f.cpu.zf false false !f.cpu.cf) := by
  have h : (Expr.complement (Catalog.borrowed .C)).eval f = .ok (.truth !f.cpu.cf) :=
    eval_complement (eval_borrowed hC) rfl
  exact makes_program (run_step (run_setFlag h hC) rfl)
    (runUpdates_cons (run_fixed hN) (runUpdates_cons (run_fixed hH) rfl)) rfl

theorem makes_complement (hn : f.needsRegisters = .ok ())
    (hN : f.access (.flag .N) = .ok (.flag .N)) (hH : f.access (.flag .H) = .ok (.flag .H)) :
    Catalog.complementAccumulator.Makes [.fixed .N true, .fixed .H true] f
      ((f.cpu.set8 .A (~~~f.cpu.get8 .A)).setFlags f.cpu.zf true true f.cpu.cf) := by
  have h : (Expr.complement (.register Catalog.accumulatorTerm)).eval f =
      .ok (.byte (~~~f.cpu.get8 .A)) :=
    eval_complement (eval_register hn rfl)
      (congrArg (fun k => Except.ok (Value.number .u8 k)) (UInt8.toNat_not _).symm)
  exact makes_program (run_step (run_setByte h hn rfl) rfl)
    (runUpdates_cons (run_fixed hN) (runUpdates_cons (run_fixed hH) rfl)) rfl

end Flags

/-! ## 7. Instructions -/

section Instructions

open Instruction
open Argument (access_reg8)

variable (s : Cpu)

theorem nop_executes : nop.Executes [] s := executes_plain rfl rfl rfl makes_nothing

theorem rotateAccumulator_executes (r : Rotation) : (rotateAccumulator r).Executes [] s :=
  executes_plain rfl rfl (pass_cons rfl rfl)
    (makes_rotation r rfl rfl (fun F => by cases F <;> rfl))

theorem decimalAdjust_executes : decimalAdjust.Executes [] s :=
  executes_plain rfl rfl (pass_cons rfl rfl) (makes_decimalAdjust rfl rfl rfl rfl rfl rfl)

theorem complement_executes : complement.Executes [] s :=
  executes_plain rfl rfl (pass_cons rfl rfl) (makes_complement rfl rfl rfl)

theorem setCarry_executes : setCarry.Executes [] s :=
  executes_plain rfl rfl rfl (makes_setCarry rfl rfl rfl)

theorem complementCarry_executes : complementCarry.Executes [] s :=
  executes_plain rfl rfl rfl (makes_complementCarry rfl rfl rfl)

theorem shift_executes_register (op : ShiftOp) (r : Reg8) :
    (shift op (.register r)).Executes [] s := by
  have hp : Operation.pass s (.ofTail []) (registers :: Instruction.dst r :: lentFlags) = .ok _ :=
    pass_cons rfl (pass_cons (access_reg8 ..) rfl)
  rcases shiftParts_cases op with rfl | ⟨hop, e, mask, hparts⟩
  · exact executes_plain rfl rfl hp (makes_swapRegister rfl rfl rfl (fun F => by cases F <;> rfl))
  · have ho : (shift op (.register r)).operation =
        plain 2 8 (registers :: Instruction.dst r :: lentFlags) (Catalog.shiftRegister e mask)
          shiftUpdates := by
      show shiftOperation op (.register r) = _
      rw [shiftOperation, hparts, shiftOpUpdates, if_neg hop]
    exact executes_plain ho rfl hp
      (makes_shiftRegister hparts rfl rfl rfl (fun F => by cases F <;> rfl))

theorem shift_executes_pointed (op : ShiftOp) : (shift op .pointed).Executes [] s := by
  have hp : Operation.pass s (.ofTail [])
      (registers :: memory true :: dstPair .HL :: lentFlags) = .ok _ :=
    pass_cons rfl (pass_cons rfl (pass_cons rfl rfl))
  rcases shiftParts_cases op with rfl | ⟨hop, e, mask, hparts⟩
  · exact executes_plain rfl rfl hp
      (makes_swapPointed rfl rfl rfl rfl (fun F => by cases F <;> rfl))
  · have ho : (shift op .pointed).operation =
        plain 2 16 (registers :: memory true :: dstPair .HL :: lentFlags)
          (Catalog.shiftPointed e mask) shiftUpdates := by
      show shiftOperation op .pointed = _
      rw [shiftOperation, hparts, shiftOpUpdates, if_neg hop]
    exact executes_plain ho rfl hp
      (makes_shiftPointed hparts rfl rfl rfl rfl (fun F => by cases F <;> rfl))

theorem bit_executes (op : BitOp) (n : Fin 8) (t : Cell) : (bit op n t).Executes [] s := by
  cases t with
  | register r =>
    cases op with
    | test =>
      exact executes_plain rfl rfl
        (pass_cons rfl (pass_cons rfl (pass_cons (access_reg8 ..) rfl)))
        (makes_test (eval_register rfl rfl) rfl rfl rfl rfl)
    | clear =>
      exact executes_plain rfl rfl
        (pass_cons rfl (pass_cons rfl (pass_cons (access_reg8 ..) rfl)))
        (makes_clearRegister rfl rfl rfl)
    | set =>
      exact executes_plain rfl rfl
        (pass_cons rfl (pass_cons rfl (pass_cons (access_reg8 ..) rfl)))
        (makes_setRegister rfl rfl rfl)
  | pointed =>
    cases op with
    | test =>
      exact executes_plain rfl rfl
        (pass_cons rfl (pass_cons rfl (pass_cons rfl (pass_cons rfl rfl))))
        (makes_test (eval_pointedBy rfl rfl rfl) rfl rfl rfl rfl)
    | clear =>
      exact executes_plain rfl rfl
        (pass_cons rfl (pass_cons rfl (pass_cons rfl (pass_cons rfl rfl))))
        (makes_updatePointed rfl rfl rfl (eval_otherBits rfl) (combine_and ..))
    | set =>
      exact executes_plain rfl rfl
        (pass_cons rfl (pass_cons rfl (pass_cons rfl (pass_cons rfl rfl))))
        (makes_updatePointed rfl rfl rfl (eval_bitMask rfl) (combine_or ..))

end Instructions

end Sm83Codegen
