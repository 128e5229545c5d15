import Sm83Codegen.Proofs.Refinement.Loads

/-!
# Jumps, calls and returns execute

The fragments that go on elsewhere, with and without a condition. The program counter that they
read and push already points past their instruction.

* `makes_jump`, `makes_jumpRelative`, `makes_callTo`, `makes_ret` -- the fragments;
* `jump_executes` and the like -- the instructions.
-/

namespace Sm83Codegen

open Catalog (dst)

/-! ## 1. Fragments -/

section Control

variable {f : Frame} {p : Reg16} {v : UInt8} {w : UInt16} {m : Bool}

theorem makes_jump (ha : f.access .pc = .ok .pc) (hw : f.value .immediate = .ok (.word w)) :
    Catalog.jump.Makes [] f (f.cpu.goto w) :=
  makes_single (run_setPc hw ha) rfl

theorem makes_jumpRegister (ha : f.access .pc = .ok .pc) (hn : f.needsRegisters = .ok ())
    (hd : f.reg16 dst = .ok p) : Catalog.jumpRegister.Makes [] f (f.cpu.goto (f.cpu.get16 p)) :=
  makes_single (run_setPc (eval_pair hn hd) ha) rfl

theorem makes_jumpRelative (ha : f.access .pc = .ok .pc)
    (hv : f.value .immediate = .ok (.byte v)) :
    Catalog.jumpRelative.Makes [] f (f.cpu.goto (f.cpu.pc + signedWord v)) :=
  makes_single (run_setPc (eval_add16 (eval_through ha) (eval_signedWord hv)) ha) rfl

/-- A call pushes the program counter before it goes on. -/
theorem makes_callTo {target : Expr} (ha : f.access .pc = .ok .pc)
    (hn : f.needsRegisters = .ok ()) (hm : f.memoryView = .ok true)
    (ht : ∀ t, target.eval { f.grow.bindWord f.cpu.pc with cpu := t } = .ok (.word w)) :
    (Catalog.callTo target).Makes [] f
      ((f.cpu.grow.push (lowByte f.cpu.pc) (highByte f.cpu.pc)).goto w) := by
  let t := f.cpu.grow.push (lowByte f.cpu.pc) (highByte f.cpu.pc)
  let g : Frame := { f.grow.bindWord f.cpu.pc with cpu := t }
  have hb : (Statement.bindBytes (some .low) (some .high) (.through .pc)).run f.grow =
      .ok (f.grow.bindWord f.cpu.pc) := run_bindWord (eval_through (f := f.grow) ha)
  have hset : (Catalog.setPc target).run g = .ok { g with cpu := t.goto w } :=
    run_setPc (ht t) ha
  exact makes_framed (run_growStack hn (run_blank (run_step hb
    (run_storeTop hm rfl rfl rfl (run_blank (run_step hset rfl)))))) rfl

theorem makes_ret (ha : f.access .pc = .ok .pc) (hn : f.needsRegisters = .ok ())
    (hm : f.memoryView = .ok m) :
    Catalog.ret.Makes [] f (f.cpu.shrink.goto (wordOf f.cpu.topHigh f.cpu.topLow)) := by
  let f₁ := f.bind .sp (.word (f.cpu.get16 .SP))
  let f₂ := f₁.bind .low (.byte f.cpu.topLow)
  let f₃ := f₂.bind .high (.byte f.cpu.topHigh)
  let f₄ : Frame := { f₃ with cpu := f.cpu.shrink }
  have h₁ : (Statement.bind .low Catalog.topLow).run f₁ = .ok f₂ := run_bind (eval_topLow hm rfl)
  have h₂ : (Statement.bind .high Catalog.topHigh).run f₂ = .ok f₃ :=
    run_bind (eval_topHigh hm rfl)
  have h₃ : Catalog.shrinkStack.run f₃ = .ok f₄ := run_shrinkStack hn rfl
  have hset : (Catalog.setPc (.ofBytes (.get .low) (.get .high))).run f₄ =
      .ok { f₄ with cpu := f₄.cpu.goto (wordOf f.cpu.topHigh f.cpu.topLow) } :=
    run_setPc (eval_ofBytes rfl rfl) ha
  exact makes_framed (run_bindTop hn (run_step h₁ (run_step h₂ (run_blank (run_step h₃
    (run_step hset rfl)))))) rfl

end Control

/-! ## 2. Instructions -/

section Instructions

open Instruction
open Argument (access_reg16)

variable (s : Cpu)

theorem jump_executes (c : Option Condition) (l h : UInt8) : (jump c).Executes [l, h] s := by
  cases c with
  | none => exact executes_plain rfl rfl (pass_cons (access_word ..) rfl) (makes_jump rfl rfl)
  | some c =>
    exact executes_conditional rfl rfl
      (pass_cons rfl (pass_cons rfl (pass_cons (access_word ..) rfl))) rfl rfl (makes_jump rfl rfl)

theorem jumpRegister_executes : jumpRegister.Executes [] s :=
  executes_plain rfl rfl (pass_cons rfl (pass_cons rfl rfl)) (makes_jumpRegister rfl rfl rfl)

theorem jumpRelative_executes (c : Option Condition) (n : UInt8) :
    (jumpRelative c).Executes [n] s := by
  cases c with
  | none => exact executes_plain rfl rfl (pass_cons rfl rfl) (makes_jumpRelative rfl rfl)
  | some c =>
    exact executes_conditional rfl rfl
      (pass_cons rfl (pass_cons rfl (pass_cons rfl rfl))) rfl rfl (makes_jumpRelative rfl rfl)

theorem call_executes (c : Option Condition) (l h : UInt8) : (call c).Executes [l, h] s := by
  cases c with
  | none =>
    exact executes_plain rfl rfl
      (pass_cons rfl (pass_cons rfl (pass_cons (access_word ..) rfl)))
      (makes_callTo rfl rfl rfl (fun _ => rfl))
  | some c =>
    exact executes_conditional rfl rfl
      (pass_cons rfl (pass_cons rfl (pass_cons rfl (pass_cons rfl (pass_cons (access_word ..)
        rfl))))) rfl rfl (makes_callTo rfl rfl rfl (fun _ => rfl))

theorem ret_executes (c : Option Condition) : (ret c).Executes [] s := by
  cases c with
  | none =>
    exact executes_plain rfl rfl (pass_cons rfl (pass_cons rfl rfl)) (makes_ret rfl rfl rfl)
  | some c =>
    exact executes_conditional rfl rfl
      (pass_cons rfl (pass_cons rfl (pass_cons rfl (pass_cons rfl rfl)))) rfl rfl
      (makes_ret rfl rfl rfl)

/-- The addresses of restarts are multiples of eight in the first page of memory. -/
theorem restart_executes (n : Fin 8) : (restart n).Executes [] s := by
  have hn : (UInt8.ofNat (8 * n)).toNat = (UInt16.ofNat (8 * n)).toNat := by
    rw [UInt8.toNat_ofNat_of_lt' (by rw [UInt8.size]; omega),
      UInt16.toNat_ofNat_of_lt' (by rw [UInt16.size]; omega)]
  refine executes_plain rfl rfl (pass_cons rfl (pass_cons rfl (pass_cons rfl rfl)))
    (makes_callTo rfl rfl rfl (fun t => ?_))
  rw [Value.word, ← hn]
  exact eval_wide rfl

end Instructions

end Sm83Codegen
