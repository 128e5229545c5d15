import Sm83Codegen.Proofs.Evaluation

/-!
# Arithmetic and logic execute

The fragments that compute bind both operands and their result, and the updates after them read the
flags off these. Each is proved from what its routine binds to the result that the numbers have.

* `run_bindOperands`, `run_sumUpdates` -- the frame in which the flags are computed, and the flags;
* `makes_alu` -- every operation of the accumulator with a second operand;
* `makes_addPairs`, `makes_addSigned` -- words;
* `alu_executes_register` and the like -- the instructions.
-/

namespace Sm83Codegen

open Catalog (dst src)
open Instruction (sumUpdates signedUpdates aluFragment aluUpdates)

/-! ## 1. Operands -/

theorem Cpu.set8_get8 (s : Cpu) (r : Reg8) : s.set8 r (s.get8 r) = s := by
  cases r <;> rfl

/-- The frame with both operands bound. -/
def Frame.operands (f : Frame) (a b : Value) : Frame :=
  (f.bind .operand1 a).bind .operand2 b

section Operands

variable {f : Frame} {d r : Reg8} {p : Reg16} {source combined : Expr} {a b : UInt8} {n : Nat}
  {rest : Program} {out : Run Frame} {F : Flag} {t : Bool}

theorem run_bindOperands (hn : f.needsRegisters = .ok ()) (hd : f.reg8 dst = .ok d)
    (ha : f.cpu.get8 d = a) (hs : source.eval (f.bind .operand1 (.byte a)) = .ok (.byte b))
    (hc : combined.eval (f.operands (.byte a) (.byte b)) = .ok (.number .u16 n))
    (hr : rest.run ((f.operands (.byte a) (.byte b)).bind .result (.number .u16 n)) = out) :
    (Catalog.bindOperands source combined rest).run f = out := by
  subst ha
  have h₁ : (Statement.bind .operand1 (.register dst)).run f =
      .ok (f.bind .operand1 (.byte (f.cpu.get8 d))) := run_bind (eval_register hn hd)
  exact run_step h₁ (run_step (run_bind hs) (run_step (run_bind hc) hr))

theorem eval_sum (h₁ : f.value .operand1 = .ok (.byte a)) (h₂ : f.value .operand2 = .ok (.byte b)) :
    Catalog.sum.eval f = .ok (.number .u16 (a.toNat + b.toNat)) := by
  have ha := a.toNat_lt
  have hb := b.toNat_lt
  exact eval_binary (by decide) (eval_wide h₁) (eval_wide h₂)
    (if_pos (by show a.toNat + b.toNat < 2 ^ 16; omega))

theorem eval_sumWithCarry (h₁ : f.value .operand1 = .ok (.byte a))
    (h₂ : f.value .operand2 = .ok (.byte b))
    (hC : (Catalog.borrowed .C).eval f = .ok (.truth t)) :
    Catalog.sumWithCarry.eval f = .ok (.number .u16 (a.toNat + b.toNat + t.toNat)) := by
  have ha := a.toNat_lt
  have hb := b.toNat_lt
  have ht := Bool.toNat_lt t
  have hcarry : Catalog.wideCarry.eval f = .ok (.number .u16 t.toNat) := eval_cast hC rfl
  exact eval_binary (by decide) (eval_sum h₁ h₂) hcarry
    (if_pos (by show a.toNat + b.toNat + t.toNat < 2 ^ 16; omega))

theorem eval_difference (h₁ : f.value .operand1 = .ok (.byte a))
    (h₂ : f.value .operand2 = .ok (.byte b)) :
    Catalog.difference.eval f = .ok (.number .u16 ((a.toNat + (65536 - b.toNat)) % 65536)) := by
  have hl : (Expr.group Catalog.wideOperand1).eval f = .ok (.number .u16 a.toNat) :=
    eval_wide (e := .get .operand1) h₁
  have hr : Catalog.wideOperand2.eval f = .ok (.number .u16 b.toNat) := eval_wide h₂
  exact (eval_wrapping hl hr).2

theorem eval_differenceWithCarry {e : Expr} (h₁ : f.value .operand1 = .ok (.byte a))
    (h₂ : f.value .operand2 = .ok (.byte b)) (hC : e.eval f = .ok (.truth t)) :
    (Expr.wrappingSub Catalog.difference (Catalog.wide e)).eval f =
      .ok (.number .u16 (((a.toNat + (65536 - b.toNat)) % 65536 + (65536 - t.toNat)) % 65536)) :=
  (eval_wrapping (eval_difference h₁ h₂) (eval_cast hC rfl)).2

end Operands

/-! ## 2. Updates -/

section Updates

variable {f : Frame} {a b : UInt8} {n : Nat} {us : List FlagUpdate} {out : Run Frame} {s : Bool}

/-- The flags that a step by one sets. -/
theorem run_stepUpdates (h₁ : f.value .operand1 = .ok (.byte a))
    (h₂ : f.value .operand2 = .ok (.byte b)) (h₃ : f.value .result = .ok (.number .u16 n))
    (hZ : f.access (.flag .Z) = .ok (.flag .Z)) (hN : f.access (.flag .N) = .ok (.flag .N))
    (hH : f.access (.flag .H) = .ok (.flag .H))
    (hr : runUpdates
      { f with
        cpu := f.cpu.setFlags (n % 256 == 0) s ((a.toNat ^^^ b.toNat ^^^ n).testBit 4) f.cpu.cf }
      us = out) :
    runUpdates f (.zero .Z :: .fixed .N s :: .carry .H .bit4 :: us) = out :=
  runUpdates_cons (run_zero h₃ hZ) (runUpdates_cons (run_fixed hN)
    (runUpdates_cons (run_carry rfl rfl rfl h₁ h₂ h₃ hH) hr))

/-- The flags that a sum or a difference of bytes sets. -/
theorem run_sumUpdates (h₁ : f.value .operand1 = .ok (.byte a))
    (h₂ : f.value .operand2 = .ok (.byte b)) (h₃ : f.value .result = .ok (.number .u16 n))
    (hF : ∀ F, f.access (.flag F) = .ok (.flag F)) :
    runUpdates f (sumUpdates s) = .ok
      { f with
        cpu := f.cpu.setFlags (n % 256 == 0) s ((a.toNat ^^^ b.toNat ^^^ n).testBit 4)
          ((a.toNat ^^^ b.toNat ^^^ n).testBit 8) } :=
  run_stepUpdates h₁ h₂ h₃ (hF .Z) (hF .N) (hF .H)
    (runUpdates_cons (run_carry rfl rfl rfl h₁ h₂ h₃ (hF .C)) rfl)

end Updates

/-! ## 3. Fragments: two operands -/

section Accumulator

variable {f : Frame} {d r : Reg8} {source combined : Expr} {a b : UInt8} {n : Nat} {s : Bool}

/-- The state with a result in a register and its flags. -/
def Cpu.setResult (t : Cpu) (d : Reg8) (x : AluResult) : Cpu :=
  (t.set8 d x.value).setFlags x.z x.n x.h x.c

theorem makes_arithmetic {x : AluResult} (hn : f.needsRegisters = .ok ())
    (hd : f.reg8 dst = .ok d) (ha : f.cpu.get8 d = a)
    (hs : source.eval (f.bind .operand1 (.byte a)) = .ok (.byte b))
    (hc : combined.eval (f.operands (.byte a) (.byte b)) = .ok (.number .u16 n))
    (hF : ∀ F, f.access (.flag F) = .ok (.flag F))
    (hx : x = ⟨.ofNat n, n % 256 == 0, s, (a.toNat ^^^ b.toNat ^^^ n).testBit 4,
      (a.toNat ^^^ b.toNat ^^^ n).testBit 8⟩) :
    (Catalog.arithmetic source combined).Makes (sumUpdates s) f (f.cpu.setResult d x) := by
  subst hx
  let g := (f.operands (.byte a) (.byte b)).bind .result (.number .u16 n)
  have hset : (Catalog.setByte dst Catalog.resultByte).run g =
      .ok { g with cpu := f.cpu.set8 d (.ofNat n) } := run_setByte (eval_resultByte rfl) hn hd
  exact makes_program (run_bindOperands hn hd ha hs hc (run_blank (run_step hset rfl)))
    (run_sumUpdates rfl rfl rfl hF) rfl

/-- A comparison leaves the register as it was. -/
theorem makes_compare (hn : f.needsRegisters = .ok ()) (hd : f.reg8 dst = .ok d)
    (ha : f.cpu.get8 d = a) (hs : source.eval (f.bind .operand1 (.byte a)) = .ok (.byte b))
    (hF : ∀ F, f.access (.flag F) = .ok (.flag F)) :
    (Catalog.compare source).Makes (sumUpdates true) f
      (f.cpu.setResult d (AluOp.cp.result a b f.cpu.cf)) := by
  have hb := b.toNat_lt
  have hx := difference_eq (a := a) (b := b) (c := 0) (by decide)
    (r := (a.toNat + (65536 - b.toNat)) % 65536) (by have := a.toNat_lt; omega)
  rw [AluOp.result, hx, Cpu.setResult, ← ha, Cpu.set8_get8, ha]
  exact makes_program (run_bindOperands hn hd ha hs (eval_difference rfl rfl) rfl)
    (run_sumUpdates rfl rfl rfl hF) rfl

theorem makes_logic {op : BinaryOp} {v : UInt8} {h c : Bool} (hop : op ≠ .either)
    (hn : f.needsRegisters = .ok ()) (hd : f.reg8 dst = .ok d)
    (hs : source.eval f = .ok (.byte b))
    (hc : (Value.byte (f.cpu.get8 d)).combine op (.byte b) = .ok (.byte v))
    (hF : ∀ F, f.access (.flag F) = .ok (.flag F)) :
    (Catalog.logic op source).Makes [.zero .Z, .fixed .N s, .fixed .H h, .fixed .C c] f
      (f.cpu.setResult d (.of v s h c)) := by
  let g := f.bind .result (.byte v)
  have hb : (Statement.bind .result (.binary op (.register dst) source)).run f = .ok g :=
    run_bind (eval_binary hop (eval_register hn hd) hs hc)
  have hset : (Catalog.setByte dst (.get .result)).run g =
      .ok { g with cpu := f.cpu.set8 d v } := run_setByte rfl hn hd
  exact makes_program (run_step hb (run_step hset rfl)) (run_byteUpdates rfl hF) rfl

/-- **Every operation of the accumulator with a second operand**, wherever that is. -/
theorem makes_alu (op : AluOp) (hn : f.needsRegisters = .ok ()) (hd : f.reg8 dst = .ok d)
    (ha : f.cpu.get8 d = a) (hs : source.eval f = .ok (.byte b))
    (hs' : source.eval (f.bind .operand1 (.byte a)) = .ok (.byte b))
    (hF : ∀ F, f.access (.flag F) = .ok (.flag F)) :
    (aluFragment source op).Makes (aluUpdates op) f
      (f.cpu.setResult d (op.result a b f.cpu.cf)) := by
  have hlt := a.toNat_lt
  have hlt' := b.toNat_lt
  have ht := Bool.toNat_lt f.cpu.cf
  have hcarry : (Catalog.borrowed .C).eval (f.operands (.byte a) (.byte b)) =
      .ok (.truth f.cpu.cf) := eval_borrowed (f := f.operands (.byte a) (.byte b)) (hF .C)
  cases op with
  | add => exact makes_arithmetic hn hd ha hs' (eval_sum rfl rfl) hF (sum_eq a b (by decide))
  | adc =>
    exact makes_arithmetic hn hd ha hs' (eval_sumWithCarry rfl rfl hcarry) hF
      (sum_eq a b (by omega))
  | sub =>
    exact makes_arithmetic hn hd ha hs' (eval_difference rfl rfl) hF
      (difference_eq (by decide) (by omega))
  | sbc =>
    exact makes_arithmetic hn hd ha hs' (eval_differenceWithCarry rfl rfl hcarry) hF
      (difference_eq (by omega) (by omega))
  | cp => exact makes_compare hn hd ha hs' hF
  | and =>
    subst ha
    exact makes_logic (by decide) hn hd hs (combine_and ..) hF
  | xor =>
    subst ha
    exact makes_logic (by decide) hn hd hs (combine_xor ..) hF
  | or =>
    subst ha
    exact makes_logic (by decide) hn hd hs (combine_or ..) hF

end Accumulator

/-! ## 4. Fragments: the accumulator with itself -/

section Itself

variable {f : Frame} {d : Reg8} {a : UInt8}

/-- A byte less itself. -/
theorem eval_lessItself (hn : f.needsRegisters = .ok ()) (hd : f.reg8 dst = .ok d)
    (hs : f.reg8 src = .ok d) :
    (Expr.wrappingSub (.register dst) (.register src)).eval f = .ok (.byte 0) := by
  have h := (eval_wrapping (eval_register hn hd) (eval_register hn hs)).2
  have ha := (f.cpu.get8 d).toNat_lt
  rw [show ((f.cpu.get8 d).toNat + (IntType.u8.size - (f.cpu.get8 d).toNat)) %
    IntType.u8.size = 0 by show (_ + (2 ^ 8 - _)) % 2 ^ 8 = 0; omega] at h
  exact h

theorem makes_subtractItself (hn : f.needsRegisters = .ok ()) (hd : f.reg8 dst = .ok d)
    (hs : f.reg8 src = .ok d) (hF : ∀ F, f.access (.flag F) = .ok (.flag F)) :
    Catalog.subtractItself.Makes [.fixed .Z true, .fixed .N true, .fixed .H false, .fixed .C false]
      f (f.cpu.setResult d (AluOp.sub.result a a f.cpu.cf)) := by
  let g := f.bind .value (.byte 0)
  have hset : (Catalog.setByte dst (.get .value)).run g = .ok { g with cpu := f.cpu.set8 d 0 } :=
    run_setByte rfl hn hd
  rw [AluOp.result, difference_self]
  exact makes_program (run_step (run_bind (eval_lessItself hn hd hs)) (run_step hset rfl))
    (run_fixedUpdates hF) rfl

theorem makes_clearItself (hn : f.needsRegisters = .ok ()) (hd : f.reg8 dst = .ok d)
    (hs : f.reg8 src = .ok d) (hF : ∀ F, f.access (.flag F) = .ok (.flag F)) :
    Catalog.clearItself.Makes [.fixed .Z true, .fixed .N false, .fixed .H false, .fixed .C false]
      f (f.cpu.setResult d (AluOp.xor.result a a f.cpu.cf)) := by
  let g := f.bind .value (.byte 0)
  have hxor : (Expr.binary .xor (.register dst) (.register src)).eval f = .ok (.byte 0) := by
    have h := eval_binary (by decide) (eval_register hn hd) (eval_register hn hs)
      (combine_xor (f.cpu.get8 d) (f.cpu.get8 d))
    rwa [UInt8.xor_self] at h
  have hset : (Catalog.setByte dst (.get .value)).run g = .ok { g with cpu := f.cpu.set8 d 0 } :=
    run_setByte rfl hn hd
  rw [AluOp.result, UInt8.xor_self]
  exact makes_program (run_step (run_bind hxor) (run_step hset rfl)) (run_fixedUpdates hF) rfl

theorem makes_compareItself (hn : f.needsRegisters = .ok ()) (hd : f.reg8 dst = .ok d)
    (hs : f.reg8 src = .ok d) (ha : f.cpu.get8 d = a)
    (hF : ∀ F, f.access (.flag F) = .ok (.flag F)) :
    Catalog.compareItself.Makes [.fixed .Z true, .fixed .N true, .fixed .H false, .fixed .C false]
      f (f.cpu.setResult d (AluOp.cp.result a a f.cpu.cf)) := by
  rw [AluOp.result, difference_self, Cpu.setResult, ← ha, Cpu.set8_get8]
  exact makes_program (run_step (run_drop (eval_lessItself hn hd hs)) rfl) (run_fixedUpdates hF) rfl

/-- The borrow that is left is the one that was there, so that carry stays. -/
theorem makes_borrowItself (hn : f.needsRegisters = .ok ()) (hd : f.reg8 dst = .ok d)
    (hs : f.reg8 src = .ok d) (ha : f.cpu.get8 d = a)
    (hC : f.value (.flag .C) = .ok (.truth f.cpu.cf)) (hZ : f.access (.flag .Z) = .ok (.flag .Z))
    (hN : f.access (.flag .N) = .ok (.flag .N)) (hH : f.access (.flag .H) = .ok (.flag .H)) :
    Catalog.borrowItself.Makes [.zero .Z, .fixed .N true, .carry .H .bit4] f
      (f.cpu.setResult d (AluOp.sbc.result a a f.cpu.cf)) := by
  let n := ((a.toNat + (65536 - a.toNat)) % 65536 + (65536 - f.cpu.cf.toNat)) % 65536
  let g := (f.operands (.byte a) (.byte a)).bind .result (.number .u16 n)
  have hlt := a.toNat_lt
  have ht := Bool.toNat_lt f.cpu.cf
  have hset : (Catalog.setByte dst Catalog.resultByte).run g =
      .ok { g with cpu := f.cpu.set8 d (.ofNat n) } := run_setByte (eval_resultByte rfl) hn hd
  have hx := difference_eq (a := a) (b := a) (c := f.cpu.cf.toNat) (r := n) (by omega) (by omega)
  have hcarry : (AluOp.sbc.result a a f.cpu.cf).c = f.cpu.cf := by
    show decide (a.toNat < a.toNat + f.cpu.cf.toNat) = f.cpu.cf
    cases f.cpu.cf <;> simp
  rw [Cpu.setResult, hcarry, AluOp.result, hx]
  have hsource : Catalog.registerSource.eval (f.bind .operand1 (.byte a)) = .ok (.byte a) := by
    rw [← ha]
    exact eval_register hn hs
  exact makes_program (run_bindOperands hn hd ha hsource (eval_differenceWithCarry rfl rfl hC)
    (run_blank (run_step hset rfl))) (run_stepUpdates rfl rfl rfl hZ hN hH rfl) rfl

end Itself

/-! ## 5. Fragments: one operand -/

section Stepping

variable {f : Frame} {d : Reg8} {p : Reg16} {a : UInt8}

/-- A byte stepped by one, and the result that the numbers have. -/
theorem eval_step (up : Bool) (h₁ : f.value .operand1 = .ok (.byte a))
    (h₂ : f.value .operand2 = .ok (.byte 1)) :
    ∃ n, (if up then Catalog.sum else Catalog.difference).eval f = .ok (.number .u16 n) ∧
      (if up then AluResult.sum a 1 0 else AluResult.difference a 1 0) =
        ⟨.ofNat n, n % 256 == 0, !up, (a.toNat ^^^ UInt8.toNat 1 ^^^ n).testBit 4,
          (a.toNat ^^^ UInt8.toNat 1 ^^^ n).testBit 8⟩ := by
  have ha := a.toNat_lt
  cases up with
  | true => exact ⟨_, eval_sum h₁ h₂, sum_eq a 1 (by decide)⟩
  | false =>
    refine ⟨_, eval_difference h₁ h₂, difference_eq (by decide) ?_⟩
    show ((a.toNat + (65536 - 1)) % 65536 + 1 + 0) % 65536 = a.toNat
    omega

theorem makes_stepRegister (up : Bool) (hn : f.needsRegisters = .ok ()) (hd : f.reg8 dst = .ok d)
    (ha : f.cpu.get8 d = a) (hZ : f.access (.flag .Z) = .ok (.flag .Z))
    (hN : f.access (.flag .N) = .ok (.flag .N)) (hH : f.access (.flag .H) = .ok (.flag .H))
    {x : AluResult} (hx : x = if up then .sum a 1 0 else .difference a 1 0) :
    (Catalog.stepRegister (if up then Catalog.sum else Catalog.difference)).Makes
      [.zero .Z, .fixed .N (!up), .carry .H .bit4] f
      ((f.cpu.set8 d x.value).setFlags x.z x.n x.h f.cpu.cf) := by
  obtain ⟨n, hc, hx'⟩ := eval_step (f := f.operands (.byte a) (.byte 1)) up rfl rfl
  rw [hx, hx']
  let g := (f.operands (.byte a) (.byte 1)).bind .result (.number .u16 n)
  have hset : (Catalog.setByte dst Catalog.resultByte).run g =
      .ok { g with cpu := f.cpu.set8 d (.ofNat n) } := run_setByte (eval_resultByte rfl) hn hd
  exact makes_program (run_bindOperands hn hd ha rfl hc (run_blank (run_step hset rfl)))
    (run_stepUpdates (b := 1) rfl rfl rfl hZ hN hH rfl) rfl

theorem makes_stepPointed (up : Bool) (hn : f.needsRegisters = .ok ())
    (hm : f.memoryView = .ok true) (hd : f.reg16 dst = .ok p)
    (ha : f.cpu.at16 (f.cpu.get16 p) = a) (hZ : f.access (.flag .Z) = .ok (.flag .Z))
    (hN : f.access (.flag .N) = .ok (.flag .N)) (hH : f.access (.flag .H) = .ok (.flag .H))
    {x : AluResult} (hx : x = if up then .sum a 1 0 else .difference a 1 0) :
    (Catalog.stepPointed (if up then Catalog.sum else Catalog.difference)).Makes
      [.zero .Z, .fixed .N (!up), .carry .H .bit4] f
      ((f.cpu.put (f.cpu.get16 p) x.value).setFlags x.z x.n x.h f.cpu.cf) := by
  let f₁ := f.bind .address (.place (f.cpu.get16 p))
  obtain ⟨n, hc, hx'⟩ := eval_step (f := f₁.operands (.byte a) (.byte 1)) up rfl rfl
  rw [hx, hx']
  let g := (f₁.operands (.byte a) (.byte 1)).bind .result (.number .u16 n)
  have h₁ : (Statement.bind .address (Catalog.asAddress (.pair dst))).run f = .ok f₁ :=
    run_bind (eval_asAddress (eval_pair hn hd))
  have h₂ : (Statement.bind .operand1 (.byteAt (.get .address))).run f₁ =
      .ok (f₁.bind .operand1 (.byte a)) := by
    rw [← ha]
    exact run_bind (eval_byteAt hm rfl)
  have h₃ : (Statement.bind .operand2 Catalog.one).run (f₁.bind .operand1 (.byte a)) =
      .ok (f₁.operands (.byte a) (.byte 1)) := run_bind rfl
  have hset : (Statement.assign Catalog.atAddress Catalog.resultByte).run g =
      .ok { g with cpu := f.cpu.put (f.cpu.get16 p) (.ofNat n) } :=
    run_store (eval_resultByte rfl) hm rfl
  exact makes_program (run_step h₁ (run_step h₂ (run_step h₃ (run_step (run_bind hc)
    (run_blank (run_step hset rfl)))))) (run_stepUpdates (b := 1) rfl rfl rfl hZ hN hH rfl) rfl

theorem makes_stepPair (up : Bool) (hn : f.needsRegisters = .ok ()) (hd : f.reg16 dst = .ok p) :
    (Catalog.stepPair (if up then Catalog.pairUp else Catalog.pairDown)).Makes [] f
      (f.cpu.set16 p (if up then f.cpu.get16 p + 1 else f.cpu.get16 p - 1)) := by
  let w := if up then f.cpu.get16 p + 1 else f.cpu.get16 p - 1
  have hc : (if up then Catalog.pairUp else Catalog.pairDown).eval f = .ok (.word w) := by
    cases up with
    | true => exact eval_add16 (x := 1) (eval_pair hn hd) rfl
    | false => exact eval_sub16 (x := 1) (eval_pair hn hd) rfl
  have hset : (Statement.setPair dst (.get .value)).run (f.bind .value (.word w)) =
      .ok { f.bind .value (.word w) with cpu := f.cpu.set16 p w } := run_setPair rfl hn hd
  exact makes_framed (run_step (run_bind hc) (run_step hset rfl)) rfl

end Stepping

/-! ## 6. Fragments: words -/

section Words

variable {f : Frame} {p q : Reg16} {v w : UInt16} {b : UInt8}

/-- A word that was widened. -/
theorem eval_wider {e : Expr} (he : e.eval f = .ok (.word w)) :
    (Catalog.wider e).eval f = .ok (.number .u32 w.toNat) := by
  have hw := w.toNat_lt
  refine eval_cast he ?_
  rw [cast_unsigned rfl, Nat.mod_eq_of_lt (by show w.toNat < 2 ^ 32; omega)]

theorem makes_addPairs (hn : f.needsRegisters = .ok ()) (hd : f.reg16 dst = .ok p)
    (hs : f.reg16 src = .ok q) (hv : f.cpu.get16 p = v) (hw : f.cpu.get16 q = w)
    (hN : f.access (.flag .N) = .ok (.flag .N)) (hH : f.access (.flag .H) = .ok (.flag .H))
    (hC : f.access (.flag .C) = .ok (.flag .C)) :
    Catalog.addPairs.Makes [.fixed .N false, .carry .H .bit12, .carry .C .bit16] f
      ((f.cpu.set16 p (v + w)).setFlags f.cpu.zf false
        (4096 ≤ v.toNat % 4096 + w.toNat % 4096) (65536 ≤ v.toNat + w.toNat)) := by
  have hlt := v.toNat_lt
  have hlt' := w.toNat_lt
  let f₂ := f.operands (.word v) (.word w)
  let g := f₂.bind .result (.number .u32 (v.toNat + w.toNat))
  have h₁ : (Statement.bind .operand1 (.pair dst)).run f = .ok (f.bind .operand1 (.word v)) := by
    rw [← hv]
    exact run_bind (eval_pair hn hd)
  have h₂ : (Statement.bind .operand2 (.pair src)).run (f.bind .operand1 (.word v)) = .ok f₂ := by
    show _ = Except.ok (f.operands (.word v) (.word w))
    rw [← hw]
    exact run_bind (eval_pair (f := f.bind .operand1 (.word v)) hn hs)
  have h₃ : (Statement.bind .result (.binary .add (Catalog.wider (.get .operand1))
      (Catalog.wider (.get .operand2)))).run f₂ = .ok g :=
    run_bind (eval_binary (by decide) (eval_wider rfl) (eval_wider rfl)
      (if_pos (by show v.toNat + w.toNat < 2 ^ 32; omega)))
  have hresult : (Expr.cast (.get .result) .u16).eval g = .ok (.word (v + w)) := by
    have h : (Expr.cast (.get .result) .u16).eval g =
        .ok (.number .u16 ((v.toNat + w.toNat) % 2 ^ 16)) := eval_cast rfl (cast_unsigned rfl _)
    rwa [← UInt16.toNat_add] at h
  have hset : (Statement.setPair dst (.cast (.get .result) .u16)).run g =
      .ok { g with cpu := f.cpu.set16 p (v + w) } := run_setPair hresult hn hd
  have hhalf := testBit_sum 12 v.toNat w.toNat 0 (by decide)
  have hcarry := testBit_sum 16 v.toNat w.toNat 0 (by decide)
  rw [Nat.mod_eq_of_lt hlt, Nat.mod_eq_of_lt hlt'] at hcarry
  simp only [Nat.add_zero] at hhalf hcarry
  have hu : runUpdates { g with cpu := f.cpu.set16 p (v + w) }
      [.fixed .N false, .carry .H .bit12, .carry .C .bit16] = .ok { g with
        cpu := (f.cpu.set16 p (v + w)).setFlags f.cpu.zf false
          ((v.toNat ^^^ w.toNat ^^^ (v.toNat + w.toNat)).testBit 12)
          ((v.toNat ^^^ w.toNat ^^^ (v.toNat + w.toNat)).testBit 16) } :=
    runUpdates_cons (run_fixed hN) (runUpdates_cons (run_carry rfl rfl rfl rfl rfl rfl hH)
      (runUpdates_cons (run_carry rfl rfl rfl rfl rfl rfl hC) rfl))
  rw [hhalf, hcarry] at hu
  exact makes_program (run_step h₁ (run_step h₂ (run_step h₃ (run_blank (run_step hset rfl))))) hu
    rfl

/-- The stack pointer and a signed byte are added; the sum goes to `target`. -/
theorem makes_addSigned {target : RegisterTerm} (hn : f.needsRegisters = .ok ())
    (hd : f.reg16 dst = .ok .SP) (hb : f.value .immediate = .ok (.byte b))
    (ht : ∀ x y z, ((f.operands x y).bind .result z).reg16 target = .ok q)
    (hF : ∀ F, f.access (.flag F) = .ok (.flag F)) :
    (Catalog.addSigned target).Makes signedUpdates f (Instruction.withSignedSum f.cpu q b) := by
  let w := f.cpu.get16 .SP
  let f₁ := f.bind .operand1 (.word w)
  let f₂ := f.operands (.word w) (.word (signedWord b))
  let g := f₂.bind .result (.word (w + signedWord b))
  have h₁ : (Statement.bind .operand1 (.pair dst)).run f = .ok f₁ := run_bind (eval_pair hn hd)
  have h₂ : (Statement.bind .operand2 (Catalog.signedWord (.get .immediate))).run f₁ = .ok f₂ :=
    run_bind (eval_signedWord hb)
  have h₃ : (Statement.bind .result (.wrappingAdd (.get .operand1) (.get .operand2))).run f₂ =
      .ok g := run_bind (eval_add16 rfl rfl)
  have hset : (Statement.setPair target (.get .result)).run g =
      .ok { g with cpu := f.cpu.set16 q (w + signedWord b) } := run_setPair rfl hn (ht _ _ _)
  have hu : runUpdates { g with cpu := f.cpu.set16 q (w + signedWord b) } signedUpdates =
      .ok { g with
        cpu := (f.cpu.set16 q (w + signedWord b)).setFlags false false
          ((w.toNat ^^^ (signedWord b).toNat ^^^ (w + signedWord b).toNat).testBit 4)
          ((w.toNat ^^^ (signedWord b).toNat ^^^ (w + signedWord b).toNat).testBit 8) } :=
    runUpdates_cons (run_fixed (hF .Z)) (runUpdates_cons (run_fixed (hF .N))
      (runUpdates_cons (run_carry rfl rfl rfl rfl rfl rfl (hF .H))
        (runUpdates_cons (run_carry rfl rfl rfl rfl rfl rfl (hF .C)) rfl)))
  rw [testBit_signed w b (.inl rfl), testBit_signed w b (.inr rfl),
    Nat.mod_eq_of_lt b.toNat_lt] at hu
  exact makes_program (run_step h₁ (run_step h₂ (run_step h₃ (run_blank (run_step hset rfl))))) hu
    rfl

end Words

/-! ## 7. Instructions -/

section Instructions

open Instruction
open Argument (access_reg8 access_reg16)

variable (s : Cpu)

/-- The accumulator with a register, where that has no fragment of its own. -/
theorem alu_executes_of_operation {op : AluOp} {r : Reg8}
    (ho : (alu op (.cell (.register r))).operation = aluOperation op (.cell (.register r))) :
    (alu op (.cell (.register r))).Executes [] s :=
  executes_plain ho rfl
    (pass_cons rfl (pass_cons rfl (pass_cons (access_reg8 ..) rfl)))
    (makes_alu op rfl rfl rfl (eval_register rfl rfl) (eval_register rfl rfl)
      (fun F => by cases F <;> rfl))

theorem alu_executes_itself (op : AluOp) : (alu op (.cell (.register .A))).Executes [] s := by
  have hp : Operation.pass s (.ofTail []) (registers :: dst .A :: src .A :: lentFlags) = .ok _ :=
    pass_cons rfl (pass_cons rfl (pass_cons rfl rfl))
  cases op with
  | add | adc | and | or => exact alu_executes_of_operation s rfl
  | sub =>
    exact executes_plain rfl rfl hp (makes_subtractItself rfl rfl rfl (fun F => by cases F <;> rfl))
  | sbc =>
    exact executes_plain rfl rfl (pass_cons rfl (pass_cons rfl (pass_cons rfl rfl)))
      (makes_borrowItself rfl rfl rfl rfl rfl rfl rfl rfl)
  | xor =>
    exact executes_plain rfl rfl hp (makes_clearItself rfl rfl rfl (fun F => by cases F <;> rfl))
  | cp =>
    exact executes_plain rfl rfl hp
      (makes_compareItself rfl rfl rfl rfl (fun F => by cases F <;> rfl))

theorem alu_executes_register (op : AluOp) (r : Reg8) :
    (alu op (.cell (.register r))).Executes [] s := by
  cases r with
  | A => exact alu_executes_itself s op
  | F | B | C | D | E | H | L => exact alu_executes_of_operation s rfl

theorem alu_executes_pointed (op : AluOp) : (alu op (.cell .pointed)).Executes [] s :=
  executes_plain rfl rfl
    (pass_cons rfl (pass_cons rfl (pass_cons rfl (pass_cons rfl rfl))))
    (makes_alu op rfl rfl rfl (eval_pointedBy rfl rfl rfl) (eval_pointedBy rfl rfl rfl)
      (fun F => by cases F <;> rfl))

theorem alu_executes_immediate (op : AluOp) (n : UInt8) : (alu op .immediate).Executes [n] s :=
  executes_plain rfl rfl
    (pass_cons rfl (pass_cons rfl (pass_cons rfl rfl)))
    (makes_alu op rfl rfl rfl rfl rfl (fun F => by cases F <;> rfl))

theorem stepByte_executes (up : Bool) (t : Cell) : (stepByte up t).Executes [] s := by
  cases t with
  | register r =>
    exact executes_plain rfl rfl
      (pass_cons rfl (pass_cons (access_reg8 ..) rfl))
      (makes_stepRegister up rfl rfl rfl rfl rfl rfl rfl)
  | pointed =>
    exact executes_plain rfl rfl
      (pass_cons rfl (pass_cons rfl (pass_cons rfl rfl)))
      (makes_stepPointed up rfl rfl rfl rfl rfl rfl rfl rfl)

theorem stepPair_executes (up : Bool) (p : Reg16) : (stepPair up p).Executes [] s :=
  executes_plain rfl rfl
    (pass_cons rfl (pass_cons (access_reg16 ..) rfl))
    (makes_stepPair up rfl rfl)

theorem addPairs_executes (p : Reg16) : (addPairs p).Executes [] s :=
  executes_plain rfl rfl
    (pass_cons rfl (pass_cons rfl (pass_cons (access_reg16 ..) rfl)))
    (makes_addPairs rfl rfl rfl rfl rfl rfl rfl rfl)

theorem addSigned_executes (n : UInt8) : addSigned.Executes [n] s :=
  executes_plain rfl rfl
    (pass_cons rfl (pass_cons rfl (pass_cons rfl rfl)))
    (makes_addSigned rfl rfl rfl (fun _ _ _ => rfl) (fun F => by cases F <;> rfl))

theorem loadSum_executes (n : UInt8) : loadSum.Executes [n] s :=
  executes_plain rfl rfl
    (pass_cons rfl (pass_cons rfl (pass_cons rfl rfl)))
    (makes_addSigned rfl rfl rfl (fun _ _ _ => rfl) (fun F => by cases F <;> rfl))

end Instructions

end Sm83Codegen
