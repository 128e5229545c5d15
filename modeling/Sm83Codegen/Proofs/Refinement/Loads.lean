import Sm83Codegen.Proofs.Evaluation

/-!
# Loads, pushes and pops execute

The fragments that move bytes and words, each from what its routine binds to what it does; and the
instructions that run them.

* `makes_loadRegister` and the like -- bytes, by register, by address and in the last page;
* `makes_storeStepping`, `makes_loadStepping` -- bytes at an address that steps;
* `makes_push`, `makes_pop` and those of AF -- the stack;
* `load_executes` and the like -- the instructions.
-/

namespace Sm83Codegen

open Catalog (dst src)

/-! ## 1. Fragments: bytes -/

section Bytes

variable {f : Frame} {d r : Reg8} {p : Reg16} {v : UInt8} {w : UInt16} {m : Bool}

theorem makes_loadImmediate (hn : f.needsRegisters = .ok ()) (hd : f.reg8 dst = .ok d)
    (hv : f.value .immediate = .ok (.byte v)) :
    Catalog.loadImmediate.Makes [] f (f.cpu.set8 d v) :=
  makes_single (run_setByte hv hn hd) rfl

theorem makes_loadRegister (hn : f.needsRegisters = .ok ()) (hd : f.reg8 dst = .ok d)
    (hs : f.reg8 src = .ok r) :
    Catalog.loadRegister.Makes [] f (f.cpu.set8 d (f.cpu.get8 r)) :=
  makes_single (run_setByte (eval_register hn hs) hn hd) rfl

theorem makes_loadPointed (hn : f.needsRegisters = .ok ()) (hm : f.memoryView = .ok m)
    (hd : f.reg8 dst = .ok d) (hs : f.reg16 src = .ok p) :
    Catalog.loadPointed.Makes [] f (f.cpu.set8 d (f.cpu.at16 (f.cpu.get16 p))) :=
  makes_single (run_setByte (eval_pointedBy hm hn hs) hn hd) rfl

theorem makes_storePointed (hn : f.needsRegisters = .ok ()) (hm : f.memoryView = .ok true)
    (hd : f.reg16 dst = .ok p) (hs : f.reg8 src = .ok r) :
    Catalog.storePointed.Makes [] f (f.cpu.put (f.cpu.get16 p) (f.cpu.get8 r)) :=
  makes_single (run_store (eval_register hn hs) hm (eval_asAddress (eval_pair hn hd))) rfl

theorem makes_storeImmediate (hn : f.needsRegisters = .ok ()) (hm : f.memoryView = .ok true)
    (hd : f.reg16 dst = .ok p) (hv : f.value .immediate = .ok (.byte v)) :
    Catalog.storeImmediate.Makes [] f (f.cpu.put (f.cpu.get16 p) v) :=
  makes_single (run_store hv hm (eval_asAddress (eval_pair hn hd))) rfl

theorem makes_loadAbsolute (hn : f.needsRegisters = .ok ()) (hm : f.memoryView = .ok m)
    (hd : f.reg8 dst = .ok d) (hw : f.value .immediate = .ok (.word w)) :
    Catalog.loadAbsolute.Makes [] f (f.cpu.set8 d (f.cpu.at16 w)) :=
  makes_single (run_setByte (eval_byteAt hm (eval_asAddress hw)) hn hd) rfl

theorem makes_storeAbsolute (hn : f.needsRegisters = .ok ()) (hm : f.memoryView = .ok true)
    (hw : f.value .immediate = .ok (.word w)) (hs : f.reg8 src = .ok r) :
    Catalog.storeAbsolute.Makes [] f (f.cpu.put w (f.cpu.get8 r)) :=
  makes_single (run_store (eval_register hn hs) hm (eval_asAddress hw)) rfl

/-- An address in the last page. The sum cannot leave memory. -/
theorem run_bindHighAddress {e : Expr} (he : e.eval f = .ok (.byte v)) :
    (Catalog.bindHighAddress e).run f =
      .ok (f.bind .address (.place (0xFF00 + v.toUInt16))) := by
  have hv := v.toNat_lt
  have hc : (Catalog.asAddress e).eval f = .ok (.number .usize v.toNat) := by
    refine eval_cast he ?_
    rw [cast_unsigned rfl, Nat.mod_eq_of_lt (by show v.toNat < 2 ^ 64; omega)]
  have hadd : (Value.number .usize 0xFF00).combine .add (.number .usize v.toNat) =
      .ok (.place (0xFF00 + v.toUInt16)) := by
    show (if 0xFF00 + v.toNat < 2 ^ 64 then _ else _) = _
    rw [if_pos (by omega), Value.place, UInt16.toNat_add, UInt8.toNat_toUInt16,
      Nat.mod_eq_of_lt (by show 0xFF00 + v.toNat < 2 ^ 16; omega)]
    rfl
  exact run_bind (eval_binary (by decide) rfl hc hadd)

theorem makes_loadHigh {e : Expr} (he : e.eval f = .ok (.byte v)) (hn : f.needsRegisters = .ok ())
    (hm : f.memoryView = .ok m) (hd : f.reg8 dst = .ok d) :
    (Catalog.framed (.step (Catalog.bindHighAddress e)
      (.step (Catalog.setByte dst (.byteAt (.get .address))) .done))).Makes [] f
        (f.cpu.set8 d (f.cpu.at16 (0xFF00 + v.toUInt16))) :=
  makes_framed (run_step (run_bindHighAddress he)
    (run_step (run_setByte (eval_byteAt hm rfl) hn hd) rfl)) rfl

theorem makes_storeHigh {e : Expr} (he : e.eval f = .ok (.byte v)) (hn : f.needsRegisters = .ok ())
    (hm : f.memoryView = .ok true) (hs : f.reg8 src = .ok r) :
    (Catalog.framed (.step (Catalog.bindHighAddress e)
      (.step (.assign Catalog.atAddress (.register src)) .done))).Makes [] f
        (f.cpu.put (0xFF00 + v.toUInt16) (f.cpu.get8 r)) :=
  makes_framed (run_step (run_bindHighAddress he)
    (run_step (run_store (eval_register hn hs) hm rfl) rfl)) rfl

/-- The address after an access, one up or one down. -/
theorem eval_stepped (up : Bool) (ha : f.value .address = .ok (.word w)) :
    (if up then Catalog.addressUp else Catalog.addressDown).eval f =
      .ok (.word (if up then w + 1 else w - 1)) := by
  cases up with
  | true => exact eval_add16 (x := 1) ha rfl
  | false => exact eval_sub16 (x := 1) ha rfl

theorem makes_storeStepping (up : Bool) (hn : f.needsRegisters = .ok ())
    (hm : f.memoryView = .ok true) (hd : f.reg16 dst = .ok p) (hs : f.reg8 src = .ok r)
    (ha : f.cpu.get16 p = w) :
    (Catalog.storeStepping (if up then Catalog.addressUp else Catalog.addressDown)).Makes [] f
      ((f.cpu.put w (f.cpu.get8 r)).set16 p (if up then w + 1 else w - 1)) := by
  subst ha
  let g := f.bind .address (.word (f.cpu.get16 p))
  have hbind : (Statement.bind .address (.pair dst)).run f = .ok g := run_bind (eval_pair hn hd)
  have hstore : (Statement.assign (.byteAt Catalog.boundAddress) (.register src)).run g =
      .ok { g with cpu := f.cpu.put (f.cpu.get16 p) (f.cpu.get8 r) } :=
    run_store (eval_register hn hs) hm (eval_asAddress rfl)
  exact makes_framed (run_step hbind (run_step hstore
    (run_step (run_setPair (eval_stepped up rfl) hn hd) rfl))) rfl

theorem makes_loadStepping (up : Bool) (hn : f.needsRegisters = .ok ())
    (hm : f.memoryView = .ok m) (hd : f.reg8 dst = .ok d) (hs : f.reg16 src = .ok p)
    (ha : f.cpu.get16 p = w) :
    (Catalog.loadStepping (if up then Catalog.addressUp else Catalog.addressDown)).Makes [] f
      ((f.cpu.set8 d (f.cpu.at16 w)).set16 p (if up then w + 1 else w - 1)) := by
  subst ha
  let g := f.bind .address (.word (f.cpu.get16 p))
  have hbind : (Statement.bind .address (.pair src)).run f = .ok g := run_bind (eval_pair hn hs)
  have hload : (Catalog.setByte dst (.byteAt Catalog.boundAddress)).run g =
      .ok { g with cpu := f.cpu.set8 d (f.cpu.at16 (f.cpu.get16 p)) } :=
    run_setByte (eval_byteAt hm (eval_asAddress rfl)) hn hd
  exact makes_framed (run_step hbind (run_step hload
    (run_step (run_setPair (eval_stepped up rfl) hn hs) rfl))) rfl

end Bytes

/-! ## 2. Fragments: words -/

section Words

variable {f : Frame} {p q : Reg16} {v : UInt8} {w x : UInt16}

theorem makes_loadWord (hn : f.needsRegisters = .ok ()) (hd : f.reg16 dst = .ok p)
    (hw : f.value .immediate = .ok (.word w)) :
    Catalog.loadWord.Makes [] f (f.cpu.set16 p w) :=
  makes_single (run_setPair hw hn hd) rfl

theorem makes_loadStackPointer (hn : f.needsRegisters = .ok ()) (hd : f.reg16 dst = .ok p)
    (hs : f.reg16 src = .ok q) :
    Catalog.loadStackPointer.Makes [] f (f.cpu.set16 p (f.cpu.get16 q)) :=
  makes_single (run_setPair (eval_pair hn hs) hn hd) rfl

/-- The byte after an address. -/
theorem eval_byteAfter {e : Expr} (he : e.eval f = .ok (.word w)) :
    (Catalog.byteAfter e).eval f = .ok (.place (w + 1)) :=
  eval_asAddress (eval_add16 (x := 1) he rfl)

/-- The frame in which a word is bound byte by byte. -/
def Frame.bindWord (f : Frame) (w : UInt16) : Frame :=
  (f.bind .low (.byte (lowByte w))).bind .high (.byte (highByte w))

theorem run_bindWord {e : Expr} (he : e.eval f = .ok (.word w)) :
    (Statement.bindBytes (some .low) (some .high) e).run f = .ok (f.bindWord w) :=
  run_bindBytes he

theorem makes_storeWord (hn : f.needsRegisters = .ok ()) (hm : f.memoryView = .ok true)
    (hw : f.value .immediate = .ok (.word w)) (hs : f.reg16 src = .ok p)
    (hx : f.cpu.get16 p = x) :
    Catalog.storeWord.Makes [] f ((f.cpu.put w (lowByte x)).put (w + 1) (highByte x)) := by
  subst hx
  let g := f.bindWord (f.cpu.get16 p)
  have hlow : (Statement.assign (.byteAt (Catalog.asAddress (.get .immediate))) (.get .low)).run
      g = .ok { g with cpu := f.cpu.put w (lowByte (f.cpu.get16 p)) } :=
    run_store rfl hm (eval_asAddress hw)
  exact makes_framed (run_step (run_bindWord (eval_pair hn hs)) (run_step hlow
    (run_step (run_store rfl hm (eval_byteAfter hw)) rfl))) rfl

end Words

/-! ## 3. Fragments: the stack -/

section Stack

variable {f : Frame} {p : Reg16} {rest : Program} {out : Run Frame} {u v : UInt8} {w : UInt16}
  {m : Bool}

/-- The frame with room for a word on the stack, and its address. -/
def Frame.grow (f : Frame) : Frame :=
  { f.bind .newSp (.word (f.cpu.get16 .SP - 2)) with cpu := f.cpu.grow }

theorem run_growStack (hn : f.needsRegisters = .ok ()) (hr : rest.run f.grow = out) :
    (Catalog.growStack rest).run f = out := by
  let g := f.bind .newSp (.word (f.cpu.get16 .SP - 2))
  have hb : (Statement.bind .newSp (.wrappingSub (.pair Catalog.stackPointer)
      (Catalog.decimal .u16 2))).run f = .ok g :=
    run_bind (eval_sub16 (x := 2) (eval_pair hn rfl) rfl)
  have hs : (Statement.setPair Catalog.stackPointer (.get .newSp)).run g = .ok f.grow :=
    run_setPair rfl hn rfl
  exact run_step hb (run_step hs hr)

theorem run_storeTop {b₁ b₂ : Binding} (hm : f.memoryView = .ok true)
    (hs : f.value .newSp = .ok (.word w)) (h₁ : f.value b₁ = .ok (.byte u))
    (h₂ : f.value b₂ = .ok (.byte v))
    (hr : rest.run { f with cpu := (f.cpu.put w u).put (w + 1) v } = out) :
    (Catalog.storeTop b₁ b₂ rest).run f = out := by
  have hlow : (Statement.assign (.byteAt (Catalog.asAddress (.get .newSp))) (.get b₁)).run f =
      .ok { f with cpu := f.cpu.put w u } := run_store h₁ hm (eval_asAddress hs)
  have hhigh : (Statement.assign (.byteAt (Catalog.byteAfter (.get .newSp))) (.get b₂)).run
      { f with cpu := f.cpu.put w u } =
      .ok { f with cpu := (f.cpu.put w u).put (w + 1) v } := run_store h₂ hm (eval_byteAfter hs)
  exact run_step hlow (run_step hhigh hr)

theorem run_bindTop (hn : f.needsRegisters = .ok ())
    (hr : rest.run (f.bind .sp (.word (f.cpu.get16 .SP))) = out) :
    (Catalog.bindTop rest).run f = out :=
  run_step (run_bind (eval_pair hn rfl)) hr

theorem eval_topLow (hm : f.memoryView = .ok m) (hs : f.value .sp = .ok (.word w)) :
    Catalog.topLow.eval f = .ok (.byte (f.cpu.at16 w)) := eval_byteAt hm (eval_asAddress hs)

theorem eval_topHigh (hm : f.memoryView = .ok m) (hs : f.value .sp = .ok (.word w)) :
    Catalog.topHigh.eval f = .ok (.byte (f.cpu.at16 (w + 1))) := eval_byteAt hm (eval_byteAfter hs)

theorem run_shrinkStack (hn : f.needsRegisters = .ok ()) (hs : f.value .sp = .ok (.word w)) :
    Catalog.shrinkStack.run f = .ok { f with cpu := f.cpu.set16 .SP (w + 2) } :=
  run_setPair (eval_add16 (x := 2) hs rfl) hn rfl

theorem makes_push (hn : f.needsRegisters = .ok ()) (hm : f.memoryView = .ok true)
    (hd : f.reg16 dst = .ok p) (hw : f.cpu.grow.get16 p = w) :
    Catalog.push.Makes [] f (f.cpu.grow.push (lowByte w) (highByte w)) := by
  subst hw
  have hb : (Statement.bindBytes (some .low) (some .high) (.pair dst)).run f.grow =
      .ok (f.grow.bindWord (f.cpu.grow.get16 p)) := run_bindWord (eval_pair hn hd)
  exact makes_framed (run_growStack hn (run_blank (run_step hb
    (run_storeTop hm rfl rfl rfl rfl)))) rfl

theorem makes_pop (hn : f.needsRegisters = .ok ()) (hm : f.memoryView = .ok m)
    (hd : f.reg16 dst = .ok p) :
    Catalog.pop.Makes [] f ((f.cpu.set16 p (wordOf f.cpu.topHigh f.cpu.topLow)).set16 .SP
      (f.cpu.get16 .SP + 2)) := by
  let f₁ := f.bind .sp (.word (f.cpu.get16 .SP))
  let f₂ := f₁.bind .low (.byte f.cpu.topLow)
  let f₃ := f₂.bind .high (.byte f.cpu.topHigh)
  have h₁ : (Statement.bind .low Catalog.topLow).run f₁ = .ok f₂ := run_bind (eval_topLow hm rfl)
  have h₂ : (Statement.bind .high Catalog.topHigh).run f₂ = .ok f₃ :=
    run_bind (eval_topHigh hm rfl)
  have h₃ : (Statement.setPair dst (.ofBytes (.get .low) (.get .high))).run f₃ =
      .ok { f₃ with cpu := f.cpu.set16 p (wordOf f.cpu.topHigh f.cpu.topLow) } :=
    run_setPair (eval_ofBytes rfl rfl) hn hd
  exact makes_framed (run_bindTop hn (run_step h₁ (run_step h₂ (run_blank (run_step h₃
    (run_step (run_shrinkStack hn rfl) rfl)))))) rfl

/-- A flag, moved up to a bit of a byte. -/
theorem eval_flagBit {F : Flag} {t : Bool} {n : Nat} (hF : f.value (.flag F) = .ok (.truth t))
    (hn : n < 8) : (Catalog.flagBit F n).eval f = .ok (.number .u8 (t.toNat * 2 ^ n)) := by
  have hp : 2 ^ n < 2 ^ 8 := Nat.pow_lt_pow_right (by decide) hn
  have ht : t.toNat * 2 ^ n < IntType.u8.size := by
    cases t with
    | true => rw [Bool.toNat_true, Nat.one_mul]; exact hp
    | false => rw [Bool.toNat_false, Nat.zero_mul]; decide
  have hc : (Value.number .u8 t.toNat).combine .shiftLeft (.number .u8 n) =
      .ok (.number .u8 (t.toNat * 2 ^ n % IntType.u8.size)) := combine_shiftLeft hn
  rw [Nat.mod_eq_of_lt ht] at hc
  exact eval_binary (by decide) (eval_cast hF rfl) rfl hc

theorem eval_packedFlags (h : ∀ F, f.value (.flag F) = .ok (.truth (f.cpu.flag F))) :
    Catalog.packedFlags.eval f = .ok (.byte f.cpu.packed) := by
  have hbit : ∀ (F : Flag) {n : Nat}, n < 8 → (Catalog.flagBit F n).eval f =
      .ok (.number .u8 ((f.cpu.flag F).toNat * 2 ^ n)) := fun F _ hn => eval_flagBit (h F) hn
  have hor : Catalog.packedFlags.eval f = .ok (.number .u8
      ((f.cpu.zf.toNat * 2 ^ 7 ||| f.cpu.nf.toNat * 2 ^ 6) ||| f.cpu.hf.toNat * 2 ^ 5 |||
        f.cpu.cf.toNat * 2 ^ 4)) :=
    eval_binary (by decide) (eval_binary (by decide) (eval_binary (by decide)
      (hbit .Z (by decide)) (hbit .N (by decide)) rfl) (hbit .H (by decide)) rfl)
      (hbit .C (by decide)) rfl
  rw [hor]
  unfold Cpu.packed
  cases f.cpu.zf <;> cases f.cpu.nf <;> cases f.cpu.hf <;> cases f.cpu.cf <;> rfl

theorem makes_pushAccumulator (hn : f.needsRegisters = .ok ()) (hm : f.memoryView = .ok true)
    (hd : f.reg16 dst = .ok .AF) (h : ∀ F, f.value (.flag F) = .ok (.truth (f.cpu.flag F))) :
    Catalog.pushAccumulator.Makes [] f (f.cpu.grow.push f.cpu.packed (f.cpu.get8 .A)) := by
  let f₁ := f.grow.bind .accumulator (.byte (highByte (f.cpu.get16 .AF)))
  have h₁ : (Statement.bindBytes none (some .accumulator) (.pair dst)).run f.grow = .ok f₁ :=
    run_bindBytes (eval_pair (f := f.grow) (t := dst) hn hd)
  have h₂ : (Statement.bind .flags Catalog.packedFlags).run f₁ =
      .ok (f₁.bind .flags (.byte f.cpu.packed)) := run_bind (eval_packedFlags h)
  have ha : highByte (f.cpu.get16 .AF) = f.cpu.get8 .A := highByte_wordOf _ _
  rw [← ha]
  exact makes_framed (run_growStack hn (run_blank (run_step h₁ (run_step h₂
    (run_storeTop hm rfl rfl rfl rfl))))) rfl

/-- The flag that a bit of the popped byte becomes. -/
theorem run_unpackFlag {F : Flag} {k : Nat} (ha : f.access (.flag F) = .ok (.flag F))
    (hv : f.value .flags = .ok (.byte v)) :
    (Catalog.unpackFlag F (2 ^ k)).run f =
      .ok { f with cpu := f.cpu.setFlag F (v.toNat.testBit k) } := by
  have he : (Expr.binary .different (.binary .and (.get .flags) (Catalog.hexByte (2 ^ k)))
      (Catalog.decimal .u8 0)).eval f = .ok (.truth ((v.toNat &&& 2 ^ k) != 0)) :=
    eval_binary (by decide) (eval_binary (by decide) hv rfl rfl) rfl rfl
  rw [and_two_pow_ne_zero] at he
  exact run_setFlag he ha

theorem makes_popAccumulator (hn : f.needsRegisters = .ok ()) (hm : f.memoryView = .ok m)
    (hd : f.reg16 dst = .ok .AF) (hF : ∀ F, f.access (.flag F) = .ok (.flag F)) :
    Catalog.popAccumulator.Makes [] f
      (((f.cpu.set16 .AF (wordOf f.cpu.topHigh (f.cpu.topLow &&& 0xF0))).shrink).unpack
        f.cpu.topLow) := by
  let v := f.cpu.topLow &&& 0xF0
  let f₁ := f.bind .sp (.word (f.cpu.get16 .SP))
  let f₂ := f₁.bind .flags (.byte v)
  let f₃ := f₂.bind .accumulator (.byte f.cpu.topHigh)
  let f₄ : Frame := { f₃ with cpu := f.cpu.set16 .AF (wordOf f.cpu.topHigh v) }
  have h₁ : (Statement.bind .flags (.binary .and Catalog.topLow (Catalog.hexByte 0xF0))).run f₁ =
      .ok f₂ :=
    run_bind (eval_binary (by decide) (eval_topLow hm rfl) rfl (combine_and _ 0xF0))
  have h₂ : (Statement.bind .accumulator Catalog.topHigh).run f₂ = .ok f₃ :=
    run_bind (eval_topHigh hm rfl)
  have h₃ : (Statement.setPair dst (.ofBytes (.get .flags) (.get .accumulator))).run f₃ =
      .ok f₄ := run_setPair (eval_ofBytes rfl rfl) hn hd
  have h₄ : Catalog.shrinkStack.run f₄ = .ok { f₄ with cpu := f₄.cpu.shrink } :=
    run_shrinkStack hn rfl
  have hbits : ∀ k, 4 ≤ k → k < 8 → v.toNat.testBit k = f.cpu.topLow.toNat.testBit k := by
    intro k h4 h8
    have hk : k = 4 ∨ k = 5 ∨ k = 6 ∨ k = 7 := by omega
    rw [UInt8.toNat_and, Nat.testBit_and]
    rcases hk with rfl | rfl | rfl | rfl <;> exact Bool.and_true _
  rw [Cpu.unpack, ← hbits 7 (by decide) (by decide), ← hbits 6 (by decide) (by decide),
    ← hbits 5 (by decide) (by decide), ← hbits 4 (by decide) (by decide)]
  exact makes_framed (run_bindTop hn (run_step h₁ (run_step h₂ (run_blank (run_step h₃
    (run_step h₄ (run_blank (run_step (run_unpackFlag (k := 7) (hF .Z) rfl)
      (run_step (run_unpackFlag (k := 6) (hF .N) rfl)
        (run_step (run_unpackFlag (k := 5) (hF .H) rfl)
          (run_step (run_unpackFlag (k := 4) (hF .C) rfl) rfl))))))))))) rfl

end Stack

/-! ## 4. Instructions -/

section Instructions

open Instruction
open Argument (access_reg8 access_reg16)

variable (s : Cpu)

theorem load_executes (d r : Reg8) : (load d r).Executes [] s :=
  executes_plain rfl rfl
    (pass_cons rfl (pass_cons (access_reg8 ..) (pass_cons (access_reg8 ..) rfl)))
    (makes_loadRegister rfl rfl rfl)

theorem loadImmediate_executes (t : Cell) (n : UInt8) : (loadImmediate t).Executes [n] s := by
  cases t with
  | register r =>
    exact executes_plain rfl rfl
      (pass_cons rfl (pass_cons (access_reg8 ..) (pass_cons rfl rfl)))
      (makes_loadImmediate rfl rfl rfl)
  | pointed =>
    exact executes_plain rfl rfl
      (pass_cons rfl (pass_cons rfl (pass_cons rfl (pass_cons rfl rfl))))
      (makes_storeImmediate rfl rfl rfl rfl)

theorem loadFrom_executes (d : Reg8) (p : Reg16) : (loadFrom d p).Executes [] s :=
  executes_plain rfl rfl
    (pass_cons rfl (pass_cons rfl (pass_cons (access_reg8 ..) (pass_cons (access_reg16 ..) rfl))))
    (makes_loadPointed rfl rfl rfl rfl)

theorem storeTo_executes (p : Reg16) (r : Reg8) : (storeTo p r).Executes [] s :=
  executes_plain rfl rfl
    (pass_cons rfl (pass_cons rfl (pass_cons (access_reg16 ..) (pass_cons (access_reg8 ..) rfl))))
    (makes_storePointed rfl rfl rfl rfl)

theorem loadAbsolute_executes (l h : UInt8) : loadAbsolute.Executes [l, h] s :=
  executes_plain rfl rfl
    (pass_cons rfl (pass_cons rfl (pass_cons rfl (pass_cons (access_word ..) rfl))))
    (makes_loadAbsolute rfl rfl rfl rfl)

theorem storeAbsolute_executes (l h : UInt8) : storeAbsolute.Executes [l, h] s :=
  executes_plain rfl rfl
    (pass_cons rfl (pass_cons rfl (pass_cons (access_word ..) (pass_cons rfl rfl))))
    (makes_storeAbsolute rfl rfl rfl rfl)

theorem loadHighImmediate_executes (n : UInt8) : loadHighImmediate.Executes [n] s :=
  executes_plain rfl rfl
    (pass_cons rfl (pass_cons rfl (pass_cons rfl (pass_cons rfl rfl))))
    (makes_loadHigh rfl rfl rfl rfl)

theorem storeHighImmediate_executes (n : UInt8) : storeHighImmediate.Executes [n] s :=
  executes_plain rfl rfl
    (pass_cons rfl (pass_cons rfl (pass_cons rfl (pass_cons rfl rfl))))
    (makes_storeHigh rfl rfl rfl rfl)

theorem loadHighRegister_executes : loadHighRegister.Executes [] s :=
  executes_plain rfl rfl
    (pass_cons rfl (pass_cons rfl (pass_cons rfl (pass_cons rfl rfl))))
    (makes_loadHigh (eval_register rfl rfl) rfl rfl rfl)

theorem storeHighRegister_executes : storeHighRegister.Executes [] s :=
  executes_plain rfl rfl
    (pass_cons rfl (pass_cons rfl (pass_cons rfl (pass_cons rfl rfl))))
    (makes_storeHigh (eval_register rfl rfl) rfl rfl rfl)

theorem storeStepping_executes (up : Bool) : (storeStepping up).Executes [] s :=
  executes_plain rfl rfl
    (pass_cons rfl (pass_cons rfl (pass_cons rfl (pass_cons rfl rfl))))
    (makes_storeStepping up rfl rfl rfl rfl rfl)

theorem loadStepping_executes (up : Bool) : (loadStepping up).Executes [] s :=
  executes_plain rfl rfl
    (pass_cons rfl (pass_cons rfl (pass_cons rfl (pass_cons rfl rfl))))
    (makes_loadStepping up rfl rfl rfl rfl rfl)

theorem loadWord_executes (p : Reg16) (l h : UInt8) : (loadWord p).Executes [l, h] s :=
  executes_plain rfl rfl
    (pass_cons rfl (pass_cons (access_reg16 ..) (pass_cons (access_word ..) rfl)))
    (makes_loadWord rfl rfl rfl)

theorem loadStackPointer_executes : loadStackPointer.Executes [] s :=
  executes_plain rfl rfl
    (pass_cons rfl (pass_cons rfl (pass_cons rfl rfl)))
    (makes_loadStackPointer rfl rfl rfl)

theorem storeStackPointer_executes (l h : UInt8) : storeStackPointer.Executes [l, h] s :=
  executes_plain rfl rfl
    (pass_cons rfl (pass_cons rfl (pass_cons (access_word ..) (pass_cons rfl rfl))))
    (makes_storeWord rfl rfl rfl rfl rfl)

theorem push_executes (p : Reg16) : (push p).Executes [] s :=
  executes_plain rfl rfl
    (pass_cons rfl (pass_cons rfl (pass_cons (access_reg16 ..) rfl)))
    (makes_push rfl rfl rfl rfl)

theorem pop_executes (p : Reg16) : (pop p).Executes [] s :=
  executes_plain rfl rfl
    (pass_cons rfl (pass_cons rfl (pass_cons (access_reg16 ..) rfl)))
    (makes_pop rfl rfl rfl)

theorem pushAccumulator_executes : pushAccumulator.Executes [] s :=
  executes_plain rfl rfl
    (pass_cons rfl (pass_cons rfl (pass_cons rfl rfl)))
    (makes_pushAccumulator rfl rfl rfl (fun F => by cases F <;> rfl))

theorem popAccumulator_executes : popAccumulator.Executes [] s :=
  executes_plain rfl rfl
    (pass_cons rfl (pass_cons rfl (pass_cons rfl rfl)))
    (makes_popAccumulator rfl rfl rfl (fun F => by cases F <;> rfl))

end Instructions

end Sm83Codegen
